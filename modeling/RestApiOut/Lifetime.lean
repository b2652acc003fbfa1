import RestApiOut.Sample

/-!
# The lifetime of handlers

`waitingRestApis` holds raw pointers, and no destructor takes its object off the list.  `Lives` runs
the program with handlers that are constructed and destroyed along the way: destroying a handler
takes its replies, which are its children, with it, and leaves the server as it is.  Every call the
server makes is recorded with the status of the object it is made on.

`callbacks_on_live_iff`: the list holds only living handlers and the server calls only living
handlers, in every state of a run, in exactly the runs that destroy no handler that is on the list.
-/

namespace RestApiOut

open Transition

variable {P : Platform} {ι : Type} [DecidableEq ι]

inductive Status
  | unborn
  | alive
  | destroyed
deriving DecidableEq

structure Lives (P : Platform) (ι : Type) where
  world : World P ι
  status : ι → Status
  /-- The calls made by `Server::responseReceived`, each with the status of its target then. -/
  calls : List (ι × Status)

/-- `construct h` and `destroy h` are the application's, made wherever it may call the library. -/
inductive Deed (P : Platform) (ι : Type)
  | run (e : Event P ι)
  | construct (h : ι)
  | destroy (h : ι)

/-- The replies of `h` are deleted with it. -/
def Network.destroyReplies (n : Network ι) (h : ι) : Network ι where
  reply := n.reply
  next := n.next
  live := n.live.filter fun r => n.receiver r ≠ some (.handler h)
  live_lt r member := n.live_lt r (Finset.mem_of_mem_filter r member)
  fresh := n.fresh

/-- The application calls a member function only on an object that is there. -/
def Event.usable (status : ι → Status) : Event P ι → Prop
  | .call (.post h _ _) | .call (.setSecret h _) => status h = .alive
  | _ => True

instance (status : ι → Status) : ∀ e : Event P ι, Decidable (e.usable status)
  | .call (.post _ _ _) | .call (.setSecret _ _) => inferInstanceAs (Decidable (_ = _))
  | .call (.setDefaultSecret _) | .call (.setSchemeAndHost _) | .call (.setUserAgent _)
  | .call (.setTimeDeltaSlug _) | .call (.setTimeDelta _)
  | .ret | .next | .arrive _ _ | .finish _ | .destroyReply _ => isTrue trivial

/-- The handler the next iteration of a notification loop calls. -/
def Control.called : Control ι → Option ι
  | .updating (h :: _) | .failing (h :: _) => some h
  | _ => none

namespace World

/-- `delete h`: its replies go, its fields are gone, and the server is not told. -/
def destroy (w : World P ι) (h : ι) : World P ι :=
  { w with network := w.network.destroyReplies h }.setHandler h
    { w.handler h with pendingReply := none }

end World

namespace Lives

def step (s : Lives P ι) : Deed P ι → Option (Lives P ι)
  | .run e =>
      if e.usable s.status then
        (s.world.step e).map fun w =>
          { s with
            world := w
            calls :=
              match e, s.world.control.called with
              | .next, some h => (h, s.status h) :: s.calls
              | _, _ => s.calls }
      else none
  | .construct h =>
      if s.world.control.user = true ∧ s.status h = .unborn then
        some { s with status := Function.update s.status h .alive }
      else none
  | .destroy h =>
      if s.world.control.user = true ∧ s.status h = .alive then
        some { s with
          world := s.world.destroy h
          status := Function.update s.status h .destroyed }
      else none

/-- A server just constructed, before any handler. -/
structure Initial (s : Lives P ι) : Prop where
  world : s.world.Initial
  status : ∀ h, s.status h = .unborn
  calls : s.calls = []

/-- The list and the calls made are on living handlers. -/
structure OnLiving (s : Lives P ι) : Prop where
  entries : ∀ h ∈ s.world.server.waitingRestApis, s.status h = .alive
  calls : ∀ call ∈ s.calls, call.2 = .alive

/-- No handler on the list is destroyed. -/
def DestroysIdle (s : Lives P ι) : Deed P ι → Prop
  | .destroy h => h ∉ s.world.server.waitingRestApis
  | _ => True

instance (s : Lives P ι) : ∀ d, Decidable (DestroysIdle s d)
  | .destroy _ => inferInstanceAs (Decidable (_ ∉ _))
  | .run _ | .construct _ => isTrue trivial

/-- The invariant behind `OnLiving`: a reply on the wire belongs to a living handler too. -/
structure Inv (s : Lives P ι) : Prop where
  world : s.world.Inv
  living : s.OnLiving
  replies : ∀ h, ∀ r ∈ s.world.network.live, s.world.network.receiver r = some (.handler h) →
    s.status h = .alive

end Lives

namespace World

variable {w w' : World P ι} {h k : ι} {q r : ReplyId}

/-- Destroying a handler keeps the law of the others. -/
theorem Inv.destroy (inv : w.Inv) (h : ι) : (w.destroy h).Inv where
  mutex := inv.mutex
  waiting := inv.waiting
  notifying := inv.notifying
  rest := inv.rest
  asked r live slot := inv.asked r (Finset.mem_of_mem_filter r live) slot
  outstanding r awaited free := by
    obtain ⟨live, slot, kept⟩ := inv.outstanding r awaited free
    refine ⟨Finset.mem_filter.mpr ⟨live, ?_⟩, slot, kept⟩
    rw [slot]
    nofun
  held k r own := by
    rcases eq_or_ne k h with rfl | mine
    · simp [World.destroy, setHandler] at own
    · have own' : (w.handler k).pendingReply = some r := by
        simpa [World.destroy, setHandler, mine] using own
      obtain ⟨live, slot, kept⟩ := inv.held k r own'
      refine ⟨Finset.mem_filter.mpr ⟨live, ?_⟩, slot, kept⟩
      rw [slot]
      exact fun same => mine (Receiver.handler.inj (Option.some.inj same))
  owner k r live slot kept := by
    obtain ⟨live', other⟩ := Finset.mem_filter.mp live
    have own := inv.owner k r live' slot kept
    have mine : k ≠ h := fun same => other (same ▸ slot)
    simpa [World.destroy, setHandler, mine] using own

omit [DecidableEq ι] in
/-- A handler the running loop has still to call is on the list. -/
theorem Inv.waiting_of_called (inv : w.Inv) (called : w.control.called = some h) :
    h ∈ w.server.waitingRestApis := by
  apply inv.rest.subset
  unfold Control.called at called
  split at called
  · rename_i control
    cases called
    rw [control]
    exact List.mem_cons_self
  · rename_i control
    cases called
    rw [control]
    exact List.mem_cons_self
  · cases called

/-- A handler joins the list by a `post` or because one of its replies finished. -/
theorem Action.joins {e : Event P ι} (action : Action w e w')
    (member : k ∈ w'.server.waitingRestApis) :
    k ∈ w.server.waitingRestApis ∨ (∃ endpoint content, e = .call (.post k endpoint content)) ∨
      ∃ r ∈ w.network.live, w.network.receiver r = some (.handler k) := by
  cases action with
  | postNow =>
      rw [server_timestampUpdated] at member
      exact .inl member
  | @postDeferred h endpoint content r user free pending =>
      rcases List.mem_append.mp member with before | new
      · exact .inl before
      · rw [List.mem_singleton.mp new]
        exact .inr (.inl ⟨endpoint, content, rfl⟩)
  | @slotRetry h r q finishing pending rejected =>
      rw [waiting_enlist] at member
      rcases List.mem_append.mp member with before | new
      · exact .inl before
      · rw [List.mem_singleton.mp new]
        exact .inr (.inr ⟨r, finishing.live, finishing.receiver⟩)
  | configure plain =>
      change k ∈ _ at member
      rw [plain.waiting] at member
      exact .inl member
  | notifyUpdated =>
      simp only [server_timestampUpdated] at member
      exact .inl member
  | endUpdated | endFailed => exact absurd member List.not_mem_nil
  | postBlocked | setSecret | setDefaultSecret | returned | resumed | notifyFailed | arrived
  | destroyed | slotNull | slotOutcome | serverRetry | serverFailed | serverUpdated =>
      exact .inl member

theorem receiver_of_timestampUpdated
    (live : r ∈ (w.timestampUpdated h).network.live)
    (slot : (w.timestampUpdated h).network.receiver r = some (.handler k)) :
    (r ∈ w.network.live ∧ w.network.receiver r = some (.handler k)) ∨ k = h := by
  simp only [network_timestampUpdated, Network.live_post, live_discardPending,
    next_discardPending, Finset.mem_insert, Network.receiver_post, receiver_discardPending]
    at live slot
  split at slot
  · cases slot
    exact .inr rfl
  · rename_i old
    exact .inl ⟨live.resolve_left old, slot⟩

omit [DecidableEq ι] in
theorem receiver_of_enlist (live : r ∈ (w.enlist h).network.live)
    (slot : (w.enlist h).network.receiver r = some (.handler k)) :
    r ∈ w.network.live ∧ w.network.receiver r = some (.handler k) := by
  cases pending : w.server.pendingReply with
  | some t =>
      rw [enlist_of_pending pending] at live slot
      exact ⟨live, slot⟩
  | none =>
      rw [enlist_of_idle pending] at live slot
      simp only [network_append, network_ask, Network.live_post, Network.receiver_post,
        Finset.mem_insert] at live slot
      split at slot
      · cases slot
      · rename_i old
        exact ⟨live.resolve_left old, slot⟩

/-- A handler gets a reply on the wire by a `post` or because the success loop called it. -/
theorem Action.sends {e : Event P ι} (inv : w.Inv) (action : Action w e w')
    (live : r ∈ w'.network.live) (slot : w'.network.receiver r = some (.handler k)) :
    (∃ q ∈ w.network.live, w.network.receiver q = some (.handler k)) ∨
      (∃ endpoint content, e = .call (.post k endpoint content)) ∨
      k ∈ w.server.waitingRestApis := by
  cases action with
  | @postNow h endpoint content =>
      rcases receiver_of_timestampUpdated live slot with before | rfl
      · exact .inl ⟨r, before⟩
      · exact .inr (.inl ⟨endpoint, content, rfl⟩)
  | @notifyUpdated h rest inLoop =>
      rcases receiver_of_timestampUpdated (w := w.note (.notified h true)) live slot with
        before | rfl
      · exact .inl ⟨r, before⟩
      · exact .inr (.inr (inv.waiting_of_called (by rw [inLoop]; rfl)))
  | notifyFailed =>
      simp only [network_timestampUpdateFailed, live_discardPending,
        receiver_discardPending] at live slot
      exact .inl ⟨r, live, slot⟩
  | arrived =>
      rw [Network.receiver_arrive] at slot
      exact .inl ⟨r, live, slot⟩
  | destroyed | slotNull => exact .inl ⟨r, Finset.mem_of_mem_erase live, slot⟩
  | slotOutcome =>
      exact .inl ⟨r, Finset.mem_of_mem_erase live, Network.receiver_deleteLater.symm.trans slot⟩
  | slotRetry =>
      obtain ⟨live', slot'⟩ := receiver_of_enlist live slot
      exact .inl ⟨r, Finset.mem_of_mem_erase live', Network.receiver_deleteLater.symm.trans slot'⟩
  | serverRetry =>
      simp only [network_ask, network_discard, network_enterServer, Network.live_post,
        Network.receiver_post, Finset.mem_insert] at live slot
      split at slot
      · cases slot
      · rename_i old
        exact .inl ⟨r, Finset.mem_of_mem_erase (live.resolve_left old),
          Network.receiver_deleteLater.symm.trans slot⟩
  | serverFailed | serverUpdated =>
      exact .inl ⟨r, Finset.mem_of_mem_erase live, Network.receiver_deleteLater.symm.trans slot⟩
  | postDeferred | postBlocked | setSecret | setDefaultSecret | configure | returned | resumed
  | endUpdated | endFailed => exact .inl ⟨r, live, slot⟩

end World

namespace Lives

variable {s s' : Lives P ι}

omit [DecidableEq ι] in
theorem Initial.inv (init : s.Initial) : s.Inv where
  world := init.world.inv
  living := by
    refine ⟨fun h member => ?_, fun call member => ?_⟩
    · rw [init.world.waiting] at member
      cases member
    · rw [init.calls] at member
      cases member
  replies h r live := by
    rw [init.world.network] at live
    exact absurd live (Finset.notMem_empty r)

/-- A handler that is destroyed while it is on the list makes the list dangle at once. -/
theorem destroysIdle_of_onLiving {d : Deed P ι} (stepped : s.step d = some s')
    (living : s'.OnLiving) : DestroysIdle s d := by
  cases d with
  | run | construct => trivial
  | destroy h =>
      simp only [step] at stepped
      split at stepped
      · cases stepped
        intro member
        have alive : Function.update s.status h .destroyed h = .alive := living.entries h member
        rw [Function.update_self] at alive
        cases alive
      · cases stepped

/-- A step of the program on living handlers stays on living handlers. -/
theorem Inv.run {e : Event P ι} {w : World P ι} {calls : List (ι × Status)} (inv : s.Inv)
    (usable : e.usable s.status) (stepped : s.world.step e = some w)
    (called : ∀ call ∈ calls, call ∈ s.calls ∨ ∃ h, call = (h, s.status h) ∧
      s.world.control.called = some h) :
    Inv { s with world := w, calls := calls } := by
  have action := World.step_action inv.world stepped
  have posted : ∀ k endpoint content, e = .call (.post k endpoint content) →
      s.status k = .alive := by
    rintro k endpoint content rfl
    exact usable
  refine ⟨inv.world.step stepped, ⟨fun k member => ?_, fun call member => ?_⟩,
    fun k r live slot => ?_⟩
  · rcases action.joins member with before | ⟨endpoint, content, post⟩ | ⟨r, live, slot⟩
    · exact inv.living.entries k before
    · exact posted k endpoint content post
    · exact inv.replies k r live slot
  · rcases called call member with before | ⟨h, rfl, now⟩
    · exact inv.living.calls call before
    · exact inv.living.entries h (inv.world.waiting_of_called now)
  · rcases action.sends inv.world live slot with ⟨q, before, slot'⟩ | ⟨endpoint, content, post⟩ |
      waits
    · exact inv.replies k q before slot'
    · exact posted k endpoint content post
    · exact inv.living.entries k waits

/-- A step that destroys no handler on the list keeps everything on living handlers. -/
theorem Inv.step {d : Deed P ι} (inv : s.Inv) (idle : DestroysIdle s d)
    (stepped : s.step d = some s') : s'.Inv := by
  cases d with
  | run e =>
      simp only [Lives.step] at stepped
      split at stepped
      · rename_i usable
        obtain ⟨w, moved, rfl⟩ := Option.map_eq_some_iff.mp stepped
        apply inv.run usable moved
        intro call member
        split at member
        · rename_i h called
          rcases List.mem_cons.mp member with new | before
          · exact .inr ⟨h, new, called⟩
          · exact .inl before
        · exact .inl member
      · cases stepped
  | construct h =>
      simp only [Lives.step] at stepped
      split at stepped
      · cases stepped
        have kept : ∀ k, s.status k = .alive → Function.update s.status h .alive k = .alive := by
          intro k alive
          rcases eq_or_ne k h with rfl | mine
          · rw [Function.update_self]
          · rw [Function.update_of_ne mine]
            exact alive
        exact ⟨inv.world, ⟨fun k member => kept k (inv.living.entries k member),
          inv.living.calls⟩, fun k r live slot => kept k (inv.replies k r live slot)⟩
      · cases stepped
  | destroy h =>
      simp only [Lives.step] at stepped
      split at stepped
      · cases stepped
        have kept : ∀ k, k ≠ h → s.status k = .alive →
            Function.update s.status h .destroyed k = .alive := by
          intro k other alive
          rw [Function.update_of_ne other]
          exact alive
        refine ⟨inv.world.destroy h, ⟨fun k member => ?_, inv.living.calls⟩,
          fun k r live slot => ?_⟩
        · have other : k ≠ h := fun same => idle (same ▸ member)
          exact kept k other (inv.living.entries k member)
        · obtain ⟨live', mine⟩ := Finset.mem_filter.mp live
          have other : k ≠ h := fun same => mine (same ▸ slot)
          exact kept k other (inv.replies k r live' slot)
      · cases stepped

/-- **The server's list and its calls are on living handlers, in every state of a run, in exactly
the runs that destroy no handler on the list.** -/
theorem callbacks_on_live_iff {ds : List (Deed P ι)} (init : s.Initial)
    (run : FreeRun Lives.step s ds s') :
    (∀ fs t, fs <+: ds → FreeRun Lives.step s fs t → t.OnLiving) ↔
      Run Lives.step DestroysIdle s ds s' :=
  run.forall_prefix_iff destroysIdle_of_onLiving Inv.step (fun inv => inv.living) init.inv

/-- The sample server before its handlers are constructed. -/
def sample : Lives Platform.sample Bool := ⟨Sample.world, fun _ => .unborn, []⟩

theorem sample_initial : sample.Initial := ⟨Sample.world_initial, fun _ => rfl, rfl⟩

/-- A retry of `true` starts an update, a post of `false` waits for it, `false` is destroyed and
the update succeeds. -/
def destroyedWhileWaiting : List (Deed Platform.sample Bool) :=
  [.construct false, .construct true] ++
    ([Sample.secret, Sample.postObject 1] ++ Sample.completes 0 Sample.rejected ++
      [Sample.postByte 1]).map .run ++
    [.destroy false] ++ (Sample.completes 1 (Sample.answered 7) ++ [Event.next, .next]).map .run

/-- The server then calls the destroyed handler. -/
theorem destroyed_handler_called :
    ∃ s', FreeRun Lives.step sample destroyedWhileWaiting s' ∧
      (false, Status.destroyed) ∈ s'.calls ∧ ¬ s'.OnLiving :=
  ⟨_, run_of_isSome (by decide), by decide, fun living => absurd
    (living.calls (false, .destroyed) (by decide)) (by decide)⟩

/-- The same run with `false` destroyed from the `timeDeltaChanged` signal, off the list again. -/
def destroyedAfterUpdate : List (Deed Platform.sample Bool) :=
  [.construct false, .construct true] ++ ([Sample.secret, Sample.postObject 1] ++
    Sample.completes 0 Sample.rejected ++ [Sample.postByte 1] ++
    Sample.completes 1 (Sample.answered 7) ++ [Event.next, .next, .next]).map .run ++
    [.destroy false]

theorem callbacks_on_live_after_update :
    ∃ s', Run Lives.step DestroysIdle sample destroyedAfterUpdate s' ∧
      ∀ fs t, fs <+: destroyedAfterUpdate → FreeRun Lives.step sample fs t → t.OnLiving :=
  exists_run (by decide) fun _ idle => (callbacks_on_live_iff sample_initial idle.free).mpr idle

end Lives

end RestApiOut
