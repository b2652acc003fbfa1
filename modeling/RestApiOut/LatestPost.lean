import RestApiOut.Signing
import RestApiOut.FinishedReply

/-!
# Which post an outcome belongs to

A `post` that is sent at once discards the reply of the handler's earlier post.  A `post` that finds
an update running only overwrites the handler's fields; the earlier reply stays connected until
the update ends, and what it brings is reported, or retried, as if it answered the later post.

* `Settled` is the invariant: a handler the server owes no callback holds a reply to its latest
  post, one that waits holds, if any, a reply to an earlier one.
* `latest_post_iff`: the latest post wins in exactly the runs in which no reply finishes on a
  waiting handler.
-/

namespace RestApiOut

open Transition History

variable {P : Platform} {ι : Type} [DecidableEq ι]

/-- An outcome or a retry caused by a reply comes from a message of the handler's latest post. -/
def LatestPost : Observation P ι → Trace P ι → Prop
  | .outcome h (some cause) _, past => postOf cause past = posts h past
  | .retry h cause, past => postOf cause past = posts h past
  | _, _ => True

instance : ∀ (o : Observation P ι) (past : Trace P ι), Decidable (LatestPost o past)
  | .outcome _ (some _) _, _ | .retry _ _, _ => inferInstanceAs (Decidable (_ = _))
  | .outcome _ none _, _ | .posted _ _ _ _, _ | .sent _ _ _ _, _ | .slot _ _ _, _
  | .registered _, _ | .asked _ _, _ | .answered _ _, _ | .accepted _, _ | .notifying _, _
  | .notified _ _, _ | .released _, _ | .secretSet _ _, _ | .defaultSecretSet _, _ =>
      isTrue trivial

/-- No reply finishes on a handler that waits for the end of an update. -/
def FinishesSettled (w : World P ι) : Event P ι → Prop
  | .finish r =>
      match w.network.receiver r with
      | some (.handler h) => h ∉ w.server.waitingRestApis
      | _ => True
  | _ => True

instance (w : World P ι) : ∀ e, Decidable (FinishesSettled w e)
  | .finish r =>
      match slot : w.network.receiver r with
      | some (.handler h) =>
          decidable_of_iff (h ∉ w.server.waitingRestApis) (by simp only [FinishesSettled, slot])
      | some .server | none => isTrue (by simp only [FinishesSettled, slot])
  | .call _ | .ret | .next | .arrive _ _ | .destroyReply _ => isTrue trivial

namespace World

/-- Whose post the reply a handler holds belongs to. -/
structure Settled (w : World P ι) : Prop where
  sent : ∀ h q, (w.handler h).pendingReply = some q → postOf q w.trace ≤ posts h w.trace
  latest : w.control ≠ .deadlock → ∀ h q, (w.handler h).pendingReply = some q →
    h ∉ w.awaiting → postOf q w.trace = posts h w.trace
  earlier : w.control.locked = false → ∀ h q, (w.handler h).pendingReply = some q →
    h ∈ w.awaiting → postOf q w.trace < posts h w.trace

variable {w w' : World P ι} {h : ι} {q r : ReplyId}

theorem Initial.settled (init : w.Initial) : w.Settled where
  sent h q own := by rw [init.handlerPending h] at own; cases own
  latest _ h q own := by rw [init.handlerPending h] at own; cases own
  earlier _ h q own := by rw [init.handlerPending h] at own; cases own

/-- A step that neither posts nor sends, and after which no handler holds a reply it did not hold,
keeps `Settled` if the server owes the same callbacks. -/
theorem Settled.of_frame (settled : w.Settled)
    (pending : ∀ h q, (w'.handler h).pendingReply = some q → (w.handler h).pendingReply = some q)
    (posted : ∀ h, posts h w'.trace = posts h w.trace)
    (post : ∀ q, postOf q w'.trace = postOf q w.trace)
    (awaiting : ∀ h, (w'.handler h).pendingReply ≠ none → (h ∈ w'.awaiting ↔ h ∈ w.awaiting))
    (running : w'.control ≠ .deadlock → w.control ≠ .deadlock)
    (free : w'.control.locked = false → w.control.locked = false ∨ w'.awaiting = []) :
    w'.Settled where
  sent h q own := by
    rw [posted, post]
    exact settled.sent h q (pending h q own)
  latest alive h q own called := by
    rw [posted, post]
    apply settled.latest (running alive) h q (pending h q own)
    intro waiting
    exact called ((awaiting h (Option.ne_none_iff_exists'.mpr ⟨_, own⟩)).mpr waiting)
  earlier unlocked h q own waits := by
    rw [posted, post]
    rcases free unlocked with before | none
    · exact settled.earlier before h q (pending h q own)
        ((awaiting h (Option.ne_none_iff_exists'.mpr ⟨_, own⟩)).mp waits)
    · rw [none] at waits
      cases waits

/-- After `timestampUpdated` on `h`, the reply of `h` belongs to its latest post and no other
handler holds another reply than before. -/
theorem Inv.sent_cases (inv : w.Inv) {k : ι}
    (own : ((w.timestampUpdated h).handler k).pendingReply = some q) :
    (k = h ∧ postOf q (w.timestampUpdated h).trace = posts h w.trace) ∨
      (k ≠ h ∧ (w.handler k).pendingReply = some q ∧
        postOf q (w.timestampUpdated h).trace = postOf q w.trace) := by
  rw [pendingReply_timestampUpdated] at own
  split at own
  · rename_i same
    cases own
    exact .inl ⟨same, by simp [postOf]⟩
  · rename_i other
    have old : w.network.next ≠ q := (live_ne_next (inv.held k q own).1).symm
    exact .inr ⟨other, own, by simp [postOf, old]⟩

theorem Settled.postNow {endpoint : String} {content : Content P} (settled : w.Settled)
    (inv : w.Inv) (free : w.control.locked = false) (idle : w.server.pendingReply = none) :
    ((w.beginPost h endpoint content).timestampUpdated h).Settled := by
  have begun : (w.beginPost h endpoint content).Inv := inv.beginPost
  have nobody := inv.awaiting_postNow h endpoint content free idle
  have alive : w.control ≠ .deadlock := fun dead => by rw [dead] at free; cases free
  have settledNow : ∀ k q,
      (((w.beginPost h endpoint content).timestampUpdated h).handler k).pendingReply = some q →
      postOf q ((w.beginPost h endpoint content).timestampUpdated h).trace =
        posts k ((w.beginPost h endpoint content).timestampUpdated h).trace := by
    intro k q own
    rcases begun.sent_cases own with ⟨rfl, latest⟩ | ⟨other, own, same⟩
    · rw [latest]
      simp [Observation.isPosted]
    · rw [pendingReply_beginPost] at own
      have before := settled.latest alive k q own (by simp [inv.awaiting_of_idle free idle])
      rw [same]
      simp [postOf, Observation.isPosted, before, other.symm]
  refine ⟨fun k q own => (settledNow k q own).le, fun _ k q own _ => settledNow k q own, ?_⟩
  intro _ k q _ waits
  rw [nobody] at waits
  cases waits

theorem Settled.postDeferred {endpoint : String} {content : Content P} (settled : w.Settled)
    (free : w.control.locked = false) : ((w.beginPost h endpoint content).append h).Settled := by
  have alive : w.control ≠ .deadlock := fun dead => by rw [dead] at free; cases free
  have waits : ((w.beginPost h endpoint content).append h).awaiting = w.awaiting ++ [h] :=
    awaiting_append (w := w.beginPost h endpoint content) free
  refine ⟨?_, ?_, ?_⟩
  · intro k q own
    have before := settled.sent k q ((pendingReply_beginPost w h k endpoint content).symm.trans own)
    simp only [trace_append, trace_beginPost, postOf, posts_cons]
    omega
  · intro _ k q own called
    rw [waits, List.mem_append, not_or, List.mem_singleton] at called
    have before := settled.latest alive k q
      ((pendingReply_beginPost w h k endpoint content).symm.trans own) called.1
    simpa [postOf, Observation.isPosted, Ne.symm called.2] using before
  · intro _ k q own waiting
    have held := (pendingReply_beginPost w h k endpoint content).symm.trans own
    rw [waits, List.mem_append, List.mem_singleton] at waiting
    simp only [trace_append, trace_beginPost, postOf, posts_cons, Observation.isPosted]
    by_cases same : k = h
    · have before := settled.sent k q held
      simp only [same, decide_true, if_true, Bool.false_eq_true, if_false] at before ⊢
      omega
    · have before := settled.earlier free k q held (waiting.resolve_right same)
      omega

theorem Settled.notifyUpdated {rest : List ι} (settled : w.Settled) (inv : w.Inv)
    (inLoop : w.control = .updating (h :: rest)) :
    ({ (w.note (.notified h true)).timestampUpdated h with
      control := .updating rest } : World P ι).Settled := by
  have alive : w.control ≠ .deadlock := by simp [inLoop]
  have waited := awaiting_updating inLoop
  have trace : ((w.note (.notified h true)).timestampUpdated h).trace =
      .sent h (w.handler h).pendingReply w.network.next ((w.note (.notified h true)).message h) ::
        .notified h true :: w.trace := trace_timestampUpdated _ h
  refine ⟨?_, ?_, fun free => by cases free⟩
  · intro k q own
    rcases (inv.note (.notified h true)).sent_cases own with ⟨rfl, latest⟩ | ⟨other, held, same⟩
    · apply latest.le.trans_eq
      simp [Observation.isPosted]
    · have before := settled.sent k q held
      apply same.le.trans
      simpa [postOf, Observation.isPosted] using before
  · intro _ k q own called
    rcases (inv.note (.notified h true)).sent_cases own with ⟨rfl, latest⟩ | ⟨other, held, same⟩
    · apply latest.trans
      simp [Observation.isPosted]
    · have gone : k ∉ w.awaiting := by
        rw [waited, List.mem_cons, not_or]
        exact ⟨other, by rwa [awaiting_mk_updating] at called⟩
      have before := settled.latest alive k q held gone
      apply same.trans
      simpa [postOf, Observation.isPosted] using before

/-- A loop that has called its last handler ends with an empty list. -/
theorem Settled.release (settled : w.Settled) (called : w.awaiting = [])
    (alive : w.control ≠ .deadlock) (u : Bool) :
    ({ w.withCore (w.toCore.release u) with control := .signal } : World P ι).Settled := by
  have nobody : ({ w.withCore (w.toCore.release u) with control := .signal } : World P ι).awaiting =
      [] := rfl
  refine settled.of_frame (fun _ _ own => own) (fun _ => ?_) (fun _ => ?_) (fun _ _ => ?_)
    (fun _ => alive) (fun _ => .inr nobody)
  · simp [Observation.isPosted]
  · simp [postOf]
  · rw [nobody, called]

/-- Every action keeps `Settled`. -/
theorem Settled.action {e : Event P ι} (settled : w.Settled) (inv : w.Inv)
    (action : Action w e w') : w'.Settled := by
  cases action with
  | postNow user free idle => exact settled.postNow inv free idle
  | postDeferred user free pending => exact settled.postDeferred free
  | @postBlocked h k endpoint content rest inLoop =>
      refine ⟨fun k q own => ?_, fun alive => absurd rfl alive,
        fun free => by cases free⟩
      have before := settled.sent k q
        ((pendingReply_beginPost w h k endpoint content).symm.trans own)
      simp only [trace_block, trace_beginPost, postOf, posts_cons]
      omega
  | notifyUpdated inLoop => exact settled.notifyUpdated inv inLoop
  | endUpdated inLoop =>
      exact settled.release (awaiting_updating inLoop) (by simp [inLoop]) true
  | endFailed inLoop =>
      exact settled.release (awaiting_failing inLoop) (by simp [inLoop]) false
  | @notifyFailed h rest inLoop =>
      refine settled.of_frame ?_ ?_ ?_ ?_ (fun _ => by simp [inLoop])
        (fun free => by cases free)
      · intro k q own
        have own' := (pendingReply_timestampUpdateFailed _ h k).symm.trans own
        split at own'
        · cases own'
        · exact own'
      · intro k
        simp [Observation.isPosted]
      · intro q
        simp [postOf]
      · intro k own
        have other : k ≠ h := by
          intro same
          apply own
          exact (pendingReply_timestampUpdateFailed _ h k).trans (if_pos same)
        rw [awaiting_failing inLoop, awaiting_mk_failed, List.mem_cons,
          or_iff_right other]
  | returned callback =>
      have free := free_of_callback callback
      refine settled.of_frame (fun _ _ own => own) (fun _ => rfl) (fun _ => rfl) (fun k _ => ?_)
        (fun _ dead => ?_) (fun _ => .inl free)
      · rw [awaiting_of_free free, awaiting_of_free (by rfl)]
      · rw [dead] at free
        cases free
  | resumed inLoop =>
      refine settled.of_frame (fun _ _ own => own) (fun _ => rfl) (fun _ => rfl) (fun k _ => ?_)
        (fun _ => by simp [inLoop])
        (fun free => by cases free)
      rw [awaiting_failed inLoop, awaiting_failing (by rfl)]
  | setSecret | setDefaultSecret =>
      refine settled.of_frame (fun k q own => ?_) (fun _ => ?_) (fun _ => ?_) (fun _ _ => Iff.rfl)
        id .inl
      · first | exact own | simpa using own
      · simp [Observation.isPosted]
      · simp [postOf]
  | configure plain =>
      refine settled.of_frame (fun _ _ own => own) (fun _ => rfl) (fun _ => rfl) (fun k _ => ?_)
        id .inl
      simp [awaiting, plain.waiting]
  | arrived | destroyed =>
      exact settled.of_frame (fun _ _ own => own) (fun _ => rfl) (fun _ => rfl)
        (fun _ _ => Iff.rfl) id .inl
  | slotNull =>
      refine settled.of_frame (fun _ _ own => own) (fun _ => ?_) (fun _ => ?_)
        (fun _ _ => Iff.rfl) id .inl
      · simp [Observation.isPosted]
      · simp [postOf]
  | @slotOutcome h r q o finishing pending final =>
      refine settled.of_frame (fun k q' own => ?_) (fun _ => ?_) (fun _ => ?_) (fun k _ => ?_)
        (fun _ => finishing.running) (fun _ => .inl finishing.free)
      · have own' := (pendingReply_takePending _ h k q).symm.trans own
        split at own'
        · cases own'
        · exact own'
      · simp [Observation.isPosted]
      · simp [postOf]
      · rw [awaiting_of_free (by rfl), awaiting_of_free finishing.free]
        rfl
  | @slotRetry h r q finishing pending rejected =>
      have free : (((w.enterSlot h r).takePending h q).spendRetry h q).control.locked = false := by
        simp [finishing.loop, Control.locked]
      refine settled.of_frame (fun k q' own => ?_) (fun _ => ?_) (fun _ => ?_) (fun k own => ?_)
        (fun _ => finishing.running) (fun _ => .inl finishing.free)
      · simp only [handler_enlist, pendingReply_spendRetry, pendingReply_takePending] at own
        split at own
        · cases own
        · exact own
      · simp [Observation.isPosted]
      · simp [postOf]
      · have other : k ≠ h := by
          intro same
          simp [same] at own
        rw [awaiting_enlist free, List.mem_append, List.mem_singleton, or_iff_left other]
        rfl
  | serverRetry finishing =>
      refine settled.of_frame (fun _ _ own => own) (fun _ => ?_) (fun _ => ?_)
        (fun _ _ => Iff.rfl) id .inl
      · simp [Observation.isPosted]
      · simp [postOf]
  | serverFailed finishing | serverUpdated finishing =>
      refine settled.of_frame (fun _ _ own => own) (fun _ => ?_) (fun _ => ?_) (fun k _ => ?_)
        (fun _ => finishing.running) (fun _ => .inl finishing.free)
      · simp [Observation.isPosted]
      · simp [postOf]
      · rw [awaiting_startLoop (by simp [finishing.free])]
        rfl

/-- A reply read by its handler belongs to the latest post exactly when the handler does not
wait. -/
theorem Settled.latest_iff (settled : w.Settled) (loop : w.control = .loop)
    (own : (w.handler h).pendingReply = some q) :
    postOf q w.trace = posts h w.trace ↔ h ∉ w.server.waitingRestApis := by
  have free : w.control.locked = false := by rw [loop]; rfl
  rw [← awaiting_of_free free]
  constructor
  · intro latest waits
    exact Nat.lt_irrefl _ (latest ▸ settled.earlier free h q own waits)
  · intro called
    exact settled.latest (by simp [loop]) h q own called

/-- One step that delivers no superseded reply keeps the law exactly when it delivers none to a
waiting handler either. -/
theorem latest_post_step {e : Event P ι} (inv : w.Inv) (settled : w.Settled)
    (kept : FinishesKept w e) (stepped : w.step e = some w') :
    Always LatestPost w'.trace ↔
      Always LatestPost w.trace ∧ FinishesKept w e ∧ FinishesSettled w e := by
  cases step_action inv stepped with
  | @slotNull h r finishing null =>
      have own := (inv.pending_iff_kept finishing).mpr kept
      rw [null] at own
      cases own
  | @slotOutcome h r q o finishing pending final =>
      have latest := settled.latest_iff finishing.loop pending
      have post : postOf q (.slot h r (w.handler h).pendingReply :: w.trace) =
          postOf q w.trace := rfl
      have posted : posts h (.slot h r (w.handler h).pendingReply :: w.trace) =
          posts h w.trace := by simp [Observation.isPosted]
      simp only [trace_respond, trace_takePending, trace_enterSlot, always_cons, LatestPost,
        FinishesSettled, finishing.receiver, kept, post, posted, latest, true_and, and_comm]
  | @slotRetry h r q finishing pending rejected =>
      have latest := settled.latest_iff finishing.loop pending
      have post : postOf q (.slot h r (w.handler h).pendingReply :: w.trace) =
          postOf q w.trace := rfl
      have posted : posts h (.slot h r (w.handler h).pendingReply :: w.trace) =
          posts h w.trace := by simp [Observation.isPosted]
      rw [always_enlist (fun _ => trivial) (fun _ _ _ => trivial)]
      simp only [trace_spendRetry, trace_takePending, trace_enterSlot, always_cons, LatestPost,
        FinishesSettled, finishing.receiver, kept, post, posted, latest, true_and, and_comm]
  | serverRetry finishing | serverFailed finishing | serverUpdated finishing =>
      simp [LatestPost, kept, FinishesSettled, finishing.receiver]
  | postNow | postDeferred | postBlocked | setSecret | setDefaultSecret | configure | returned
  | resumed | notifyUpdated | endUpdated | notifyFailed | endFailed | arrived | destroyed =>
      simp [LatestPost, FinishesKept, FinishesSettled]

/-- **Outcomes and retries come from the latest post in exactly the runs in which no reply
finishes on a waiting handler**, among the runs that deliver no superseded reply; the message of a
post carries its URL and payload. -/
theorem latest_post_iff {es : List (Event P ι)} (init : w.Initial)
    (run : Run World.step FinishesKept w es w') :
    (Always LatestPost w'.trace ↔
        Run World.step (fun w e => FinishesKept w e ∧ FinishesSettled w e) w es w') ∧
      Always SentForLatest w'.trace := by
  refine ⟨?_, init.sentForLatest run.free⟩
  refine run.iff_of_step (I := fun w => w.Inv ∧ w.Settled)
    (Q := fun w => Always LatestPost w.trace)
    (fun both _ stepped => ⟨both.1.step stepped, both.2.action both.1 (step_action both.1 stepped)⟩)
    (fun both kept stepped => latest_post_step both.1 both.2 kept stepped)
    ⟨init.inv, init.settled⟩ ?_
  rw [init.trace]
  trivial

/-- A post is deferred while the reply to the handler's earlier post is out; that reply then
finishes and is reported, although a later post has been made. -/
theorem earlier_post_reported_while_waiting :
    ∃ w', Run World.step FinishesKept Sample.world
        ([Sample.secret, Sample.postByte 1, Sample.postObject 1] ++
          Sample.completes 1 Sample.rejected ++ [Sample.postByte 2] ++
          Sample.completes 0 Sample.succeeded) w' ∧
      ¬ Always LatestPost w'.trace :=
  ⟨_, run_of_isSome (by decide), by decide⟩

/-- The same posts, with the earlier reply still out when the update ends. -/
theorem latest_post_after_update :
    ∃ w', Run World.step (fun w e => FinishesKept w e ∧ FinishesSettled w e) Sample.world
        ([Sample.secret, Sample.postByte 1, Sample.postObject 1] ++
          Sample.completes 1 Sample.rejected ++ [Sample.postByte 2] ++
          Sample.completes 2 (Sample.answered 7) ++ [.next, .next, .next, .ret] ++
          Sample.completes 4 Sample.succeeded) w' ∧
      Always LatestPost w'.trace :=
  exists_run (by decide) fun _ settled =>
    (latest_post_iff Sample.world_initial (settled.mono fun _ _ both => both.1)).1.mpr settled

end World

end RestApiOut
