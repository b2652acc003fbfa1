import RestApiOut.Account
import RestApiOut.Reentrancy
import Mathlib.Algebra.BigOperators.Group.Finset.Basic
import Mathlib.Algebra.Order.BigOperators.Group.Finset

/-!
# The two retry loops end

An authentication failure spends a retry of its handler and may start an update, which has retries
of its own and puts every waiting handler back on the wire.  `World.rank` weighs what is still to
come: a reply of a handler is worth one completion, a callback the server owes one more (the
message it may send), a running update one for its request and one for each retry left, and a
handler's retry four, since spending it makes the handler wait and may start an update of three
requests.

* `rank_step`: without posts the rank never rises, and falls at every completion.
* `retries_terminate`: so it bounds the completions of every continuation; and over the whole run
  a handler sends at most two messages and reports at most one outcome a post.
-/

namespace RestApiOut

open Transition

variable {P : Platform} {ι : Type} [DecidableEq ι]

/-- A reply completes: its `finished` signal is delivered. -/
def Event.completes : Event P ι → Bool
  | .finish _ => true
  | _ => false

/-- The application makes no `post`. -/
def NoPost (_ : World P ι) : Event P ι → Prop
  | .call (.post _ _ _) => False
  | _ => True

instance (w : World P ι) : ∀ e, Decidable (NoPost w e)
  | .call (.post _ _ _) => isFalse nofun
  | .call (.setSecret _ _) | .call (.setDefaultSecret _) | .call (.setSchemeAndHost _)
  | .call (.setUserAgent _) | .call (.setTimeDeltaSlug _) | .call (.setTimeDelta _)
  | .ret | .next | .arrive _ _ | .finish _ | .destroyReply _ => isTrue trivial

/-! ## Replies of handlers that may still complete -/

namespace Network

def handlerReplies (n : Network ι) : Finset ReplyId :=
  n.live.filter fun r => n.receiver r ≠ some .server

variable {n : Network ι} {q r : ReplyId}

theorem handlerReplies_congr {n' : Network ι} (live : n'.live = n.live)
    (receiver : ∀ r, n'.receiver r = n.receiver r) : n'.handlerReplies = n.handlerReplies := by
  simp only [handlerReplies, live, receiver]

theorem handlerReplies_deleteLater : (n.deleteLater q).handlerReplies = n.handlerReplies :=
  handlerReplies_congr rfl fun _ => receiver_deleteLater

/-- What `post` adds is counted exactly when it answers to a handler. -/
theorem handlerReplies_post (slot : Receiver ι) : (n.post slot).handlerReplies =
    if slot = .server then n.handlerReplies else insert n.next n.handlerReplies := by
  ext r
  rcases eq_or_ne r n.next with rfl | new
  · by_cases server : slot = .server
    · simp [handlerReplies, server, next_notMem_live]
    · simp [handlerReplies, server]
  · by_cases server : slot = .server
    · simp [handlerReplies, server, new]
    · simp [handlerReplies, server, new]

theorem card_handlerReplies_post_handler (h : ι) :
    (n.post (.handler h)).handlerReplies.card = n.handlerReplies.card + 1 := by
  have fresh : n.next ∉ n.handlerReplies := fun member =>
    next_notMem_live (Finset.mem_of_mem_filter _ member)
  rw [handlerReplies_post, if_neg (by simp), Finset.card_insert_of_notMem fresh]

theorem handlerReplies_post_server : (n.post .server).handlerReplies = n.handlerReplies := by
  rw [handlerReplies_post, if_pos rfl]

theorem handlerReplies_retire : (n.retire q).handlerReplies = n.handlerReplies.erase q :=
  Finset.filter_erase _ q n.live

theorem card_handlerReplies_retire_le :
    (n.retire q).handlerReplies.card ≤ n.handlerReplies.card := by
  rw [handlerReplies_retire]
  exact Finset.card_erase_le

theorem card_handlerReplies_retire {h : ι} (live : q ∈ n.live)
    (slot : n.receiver q = some (.handler h)) :
    (n.retire q).handlerReplies.card + 1 = n.handlerReplies.card := by
  have member : q ∈ n.handlerReplies := by
    simp [handlerReplies, live, slot]
  rw [handlerReplies_retire, Finset.card_erase_add_one member]

end Network

namespace World

/-- The completions the update that runs may still take. -/
def updateRank (w : World P ι) : Nat :=
  if w.server.pendingReply = none ∨ w.control.locked = true then 0
  else w.server.retriesRemaining + 1

/-- A bound on the completions to come, if nothing more is posted.  A retry counts as long as it is
left, also that of a handler with nothing out. -/
def rank [Fintype ι] (w : World P ι) : Nat :=
  w.network.handlerReplies.card + w.awaiting.length + w.updateRank +
    4 * ∑ h, (w.handler h).retriesRemaining

variable {w w' : World P ι} {h : ι} {q r : ReplyId}

omit [DecidableEq ι] in
theorem updateRank_of_running (pending : w.server.pendingReply ≠ none)
    (free : w.control.locked = false) : w.updateRank = w.server.retriesRemaining + 1 := by
  rw [updateRank, if_neg]
  rw [free]
  rintro (idle | locked)
  · exact pending idle
  · cases locked

omit [DecidableEq ι] in
theorem updateRank_of_locked (locked : w.control.locked = true) : w.updateRank = 0 := by
  rw [updateRank, if_pos (.inr locked)]

omit [DecidableEq ι] in
theorem updateRank_of_idle (idle : w.server.pendingReply = none) : w.updateRank = 0 := by
  rw [updateRank, if_pos (.inl idle)]

theorem handlerReplies_discardPending (w : World P ι) (h : ι) :
    (w.discardPending h).handlerReplies = w.network.handlerReplies :=
  Network.handlerReplies_congr (live_discardPending w h) (receiver_discardPending w h)

variable [Fintype ι]

/-- A step that shows in no part of the rank but the replies and the list. -/
theorem rank_le_of_frame
    (replies : w'.network.handlerReplies.card + w'.awaiting.length ≤
      w.network.handlerReplies.card + w.awaiting.length)
    (update : w'.updateRank ≤ w.updateRank)
    (retries : ∀ h, (w'.handler h).retriesRemaining = (w.handler h).retriesRemaining) :
    w'.rank ≤ w.rank := by
  have same : ∑ h, (w'.handler h).retriesRemaining = ∑ h, (w.handler h).retriesRemaining :=
    Finset.sum_congr rfl fun h _ => retries h
  simp only [rank]
  omega

/-- Spending a retry lowers the sum of all retries by one. -/
theorem sum_retries_spend {f g : ι → Nat} (left : 0 < f h) (spent : g h = f h - 1)
    (others : ∀ k, k ≠ h → g k = f k) : ∑ k, g k + 1 = ∑ k, f k := by
  have rest : ∑ k ∈ Finset.univ.erase h, g k = ∑ k ∈ Finset.univ.erase h, f k :=
    Finset.sum_congr rfl fun k member => others k (Finset.ne_of_mem_erase member)
  have splitG := Finset.add_sum_erase Finset.univ g (Finset.mem_univ h)
  have splitF := Finset.add_sum_erase Finset.univ f (Finset.mem_univ h)
  omega

/-- A handler's slot that spends a retry: the reply is gone, the handler waits, and an update of
`numberRetries + 1` requests may have started. -/
theorem rank_slotRetry (finishing : w.Finishing r (.handler h))
    (rejected : w.Rejected h q) :
    ((((w.enterSlot h r).takePending h q).spendRetry h q).enlist h).rank + 1 ≤ w.rank := by
  have free : w.control.locked = false := finishing.free
  have free' : (((w.enterSlot h r).takePending h q).spendRetry h q).control.locked = false := by
    simp [finishing.loop, Control.locked]
  have replies : (((w.network.retire r).deleteLater q).handlerReplies).card + 1 =
      w.network.handlerReplies.card := by
    rw [Network.handlerReplies_deleteLater]
    exact Network.card_handlerReplies_retire finishing.live finishing.receiver
  have waits : ((((w.enterSlot h r).takePending h q).spendRetry h q).enlist h).awaiting.length =
      w.awaiting.length + 1 := by
    rw [awaiting_enlist free', List.length_append]
    rfl
  have spent : ∑ k, (((((w.enterSlot h r).takePending h q).spendRetry h q).enlist h).handler
      k).retriesRemaining + 1 = ∑ k, (w.handler k).retriesRemaining := by
    refine sum_retries_spend (h := h) rejected.2 ?_ fun k other => ?_
    · simp
    · simp [other]
  cases clock : w.server.pendingReply with
  | some t =>
      rw [enlist_of_pending (q := t) (by exact clock)] at waits spent ⊢
      have update : ((((w.enterSlot h r).takePending h q).spendRetry h q).append h).updateRank =
          w.updateRank := by
        simp [updateRank, clock, finishing.loop, Control.locked]
      have same : ((((w.enterSlot h r).takePending h q).spendRetry h q).append h).network =
          (w.network.retire r).deleteLater q := rfl
      simp only [rank, waits, update, same]
      omega
  | none =>
      rw [enlist_of_idle (by exact clock)] at waits spent ⊢
      have update : (((((w.enterSlot h r).takePending h q).spendRetry h q).ask
          numberRetries).append h).updateRank = numberRetries + 1 := by
        simp [updateRank, finishing.loop, Control.locked]
      have same : (((((w.enterSlot h r).takePending h q).spendRetry h q).ask
          numberRetries).append h).network.handlerReplies =
          ((w.network.retire r).deleteLater q).handlerReplies :=
        Network.handlerReplies_post_server
      have bound : numberRetries = 2 := rfl
      simp only [rank, waits, update, same]
      omega

/-- A slot that ends the request of its handler, or does nothing, takes one reply off the wire. -/
theorem rank_finish (finishing : w.Finishing r (.handler h))
    (replies : w'.network.handlerReplies = (w.network.retire r).handlerReplies)
    (awaiting : w'.awaiting = w.awaiting) (update : w'.updateRank = w.updateRank)
    (retries : ∀ k, (w'.handler k).retriesRemaining = (w.handler k).retriesRemaining) :
    w'.rank + 1 ≤ w.rank := by
  have fewer := Network.card_handlerReplies_retire finishing.live finishing.receiver
  have same : ∑ k, (w'.handler k).retriesRemaining = ∑ k, (w.handler k).retriesRemaining :=
    Finset.sum_congr rfl fun k _ => retries k
  simp only [rank, replies, awaiting, update, same]
  omega

/-- The server's slot takes one request off its update. -/
theorem rank_server (replies : w'.network.handlerReplies.card ≤ w.network.handlerReplies.card)
    (awaiting : w'.awaiting = w.awaiting) (update : w'.updateRank + 1 ≤ w.updateRank)
    (retries : ∀ k, (w'.handler k).retriesRemaining = (w.handler k).retriesRemaining) :
    w'.rank + 1 ≤ w.rank := by
  have same : ∑ k, (w'.handler k).retriesRemaining = ∑ k, (w.handler k).retriesRemaining :=
    Finset.sum_congr rfl fun k _ => retries k
  simp only [rank, awaiting, same]
  omega

/-- **Without posts the rank never rises, and falls at every completion.** -/
theorem rank_step {e : Event P ι} (inv : w.Inv) (quiet : NoPost w e)
    (stepped : w.step e = some w') : w'.rank + (if e.completes then 1 else 0) ≤ w.rank := by
  cases step_action inv stepped with
  | postNow | postDeferred | postBlocked => exact absurd quiet id
  | @setSecret h secret long user =>
      refine rank_le_of_frame (Nat.le_refl _) (Nat.le_refl _) fun k => ?_
      exact retriesRemaining_setSecret w h k secret
  | setDefaultSecret => exact rank_le_of_frame (Nat.le_refl _) (Nat.le_refl _) fun _ => rfl
  | destroyed =>
      refine rank_le_of_frame ?_ (Nat.le_refl _) fun _ => rfl
      exact Nat.add_le_add_right Network.card_handlerReplies_retire_le _
  | @configure c s plain noPost user =>
      refine rank_le_of_frame ?_ ?_ fun _ => rfl
      · simp [awaiting, plain.waiting]
      · simp [updateRank, plain.pending, plain.retries]
  | returned callback =>
      have free := free_of_callback callback
      refine rank_le_of_frame ?_ ?_ fun _ => rfl
      · rw [awaiting_of_free free]
        exact Nat.le_refl _
      · rw [updateRank, updateRank, free]
        exact Nat.le_refl _
  | resumed inLoop =>
      refine rank_le_of_frame ?_ ?_ fun _ => rfl
      · rw [awaiting_failed inLoop]
        exact Nat.le_refl _
      · rw [updateRank_of_locked rfl]
        exact Nat.zero_le _
  | @notifyUpdated h rest inLoop =>
      refine rank_le_of_frame ?_ ?_ fun k => ?_
      · have replies :
            ((w.note (.notified h true)).timestampUpdated h).network.handlerReplies.card =
            w.network.handlerReplies.card + 1 := by
          rw [network_timestampUpdated, Network.card_handlerReplies_post_handler,
            handlerReplies_discardPending]
          rfl
        rw [awaiting_updating inLoop, awaiting_mk_updating, List.length_cons]
        refine Nat.le_of_eq ((congrArg (· + rest.length) replies).trans ?_)
        omega
      · rw [updateRank_of_locked rfl]
        exact Nat.zero_le _
      · exact retriesRemaining_timestampUpdated _ h k
  | @notifyFailed h rest inLoop =>
      refine rank_le_of_frame ?_ ?_ fun k => ?_
      · have replies := handlerReplies_discardPending (w.note (.notified h false)) h
        rw [awaiting_failing inLoop, awaiting_mk_failed, List.length_cons]
        simp only [network_timestampUpdateFailed, replies]
        exact Nat.add_le_add_left (Nat.le_succ _) _
      · rw [updateRank_of_locked rfl]
        exact Nat.zero_le _
      · exact retriesRemaining_timestampUpdateFailed _ h k
  | endUpdated inLoop | endFailed inLoop =>
      refine rank_le_of_frame ?_ ?_ fun _ => rfl
      · exact Nat.add_le_add_left (Nat.zero_le _) _
      · rw [updateRank_of_idle rfl]
        exact Nat.zero_le _
  | @arrived r result live first =>
      refine rank_le_of_frame ?_ (Nat.le_refl _) fun _ => rfl
      have same : (w.network.arrive r result).handlerReplies = w.network.handlerReplies :=
        Network.handlerReplies_congr rfl fun _ => Network.receiver_arrive result
      exact Nat.add_le_add_right (Nat.le_of_eq (congrArg Finset.card same)) _
  | slotNull finishing => exact rank_finish finishing rfl rfl rfl fun _ => rfl
  | @slotOutcome h r q o finishing pending final =>
      refine rank_finish finishing Network.handlerReplies_deleteLater ?_ ?_ fun k => ?_
      · rw [awaiting_of_free (by rfl), awaiting_of_free finishing.free]
        rfl
      · simp [updateRank, finishing.loop, Control.locked]
      · exact retriesRemaining_takePending _ h k q
  | slotRetry finishing pending rejected => exact rank_slotRetry finishing rejected
  | @serverRetry r finishing refused left =>
      have free : w.control.locked = false := finishing.free
      have pending := (inv.asked r finishing.live finishing.receiver).1
      refine rank_server ?_ rfl ?_ fun _ => rfl
      · have replies : (((w.enterServer r).discard r).ask
            (w.server.retriesRemaining - 1)).network.handlerReplies =
            (w.network.retire r).handlerReplies :=
          Network.handlerReplies_post_server.trans Network.handlerReplies_deleteLater
        rw [replies]
        exact Network.card_handlerReplies_retire_le
      · have after := updateRank_of_running
          (w := ((w.enterServer r).discard r).ask (w.server.retriesRemaining - 1))
          (Option.some_ne_none _) free
        rw [updateRank_of_running (Option.ne_none_iff_exists'.mpr ⟨_, pending⟩) free, after,
          server_ask]
        dsimp only
        omega
  | serverFailed finishing | serverUpdated finishing =>
      have free : w.control.locked = false := finishing.free
      have pending := (inv.asked _ finishing.live finishing.receiver).1
      refine rank_server ?_ ?_ ?_ fun _ => rfl
      · rw [network_startLoop]
        exact (congrArg Finset.card Network.handlerReplies_deleteLater).trans_le
          Network.card_handlerReplies_retire_le
      · rw [awaiting_startLoop (by simp [finishing.free])]
        rfl
      · rw [updateRank_of_running (Option.ne_none_iff_exists'.mpr ⟨_, pending⟩) free,
          updateRank_of_locked (locked_startLoop _ _)]
        exact Nat.succ_le_succ (Nat.zero_le _)

/-! ## Messages and outcomes a post -/

omit [Fintype ι] in
/-- A blocked thread does nothing any more; only the network goes on. -/
theorem step_of_deadlock {e : Event P ι} (dead : w.control = .deadlock)
    (stepped : w.step e = some w') :
    ∃ r result, w' = { w with network := w.network.arrive r result } := by
  cases e with
  | call c => simp [step, dead, Control.user] at stepped
  | ret => simp [step, return_, dead] at stepped
  | next => simp [step, iterate, dead] at stepped
  | finish r => simp [step, dead] at stepped
  | destroyReply r => simp [step, dead] at stepped
  | arrive r result =>
      simp only [step] at stepped
      split at stepped
      · cases stepped
        exact ⟨r, result, rfl⟩
      · cases stepped

omit [Fintype ι] in
/-- A post that blocks the thread is still a post; the callbacks owed are never made. -/
theorem bounded_postBlocked {endpoint : String} {content : Content P} {k : ι}
    (bounded : (w.account k).Bounded) :
    ((w.beginPost h endpoint content).block.account k).Bounded := by
  have nobody : (w.beginPost h endpoint content).block.awaiting = [] := rfl
  rcases eq_or_ne h k with rfl | mine
  · have after : (w.beginPost h endpoint content).block.account h =
        { w.account h with
          posts := (w.account h).posts + 1, waiting := 0, retries := 1 } := by
      rw [account, nobody]
      simp [account, block, Observation.isPosted, Observation.isSent, Observation.isOutcome]
    rw [after]
    exact bounded.abandon_posted
  · have after : (w.beginPost h endpoint content).block.account k =
        { w.account k with waiting := 0 } := by
      rw [account, nobody]
      simp [account, block, mine, Ne.symm mine, Observation.isPosted, Observation.isSent,
        Observation.isOutcome]
    rw [after]
    exact bounded.abandon

omit [Fintype ι] in
theorem bounded_step {e : Event P ι} (inv : w.Inv) (bounded : ∀ k, (w.account k).Bounded)
    (stepped : w.step e = some w') (k : ι) : (w'.account k).Bounded := by
  have action := step_action inv stepped
  by_cases dead : w.control = .deadlock
  · obtain ⟨r, result, rfl⟩ := step_of_deadlock dead stepped
    exact bounded k
  · by_cases released : PostsReleased w e
    · have running := (relocked_step inv stepped).mpr ⟨dead, released⟩
      exact (bounded k).move (action.account inv running k)
    · cases action with
      | postBlocked => exact bounded_postBlocked (bounded k)
      | postNow user free | postDeferred user free =>
          refine absurd ?_ released
          cases control : w.control with
          | failed => rw [control] at free; cases free
          | loop | response | updating | failing | signal | deadlock =>
              simp [PostsReleased, control, Control.inFailure]
      | @configure c s plain noPost user =>
          refine absurd ?_ released
          cases c with
          | post h endpoint content => exact absurd rfl (noPost h endpoint content)
          | setSecret | setDefaultSecret | setSchemeAndHost | setUserAgent | setTimeDeltaSlug
          | setTimeDelta => trivial
      | setSecret | setDefaultSecret | returned | resumed | notifyUpdated | endUpdated
      | notifyFailed | endFailed | arrived | destroyed | slotNull | slotOutcome | slotRetry
      | serverRetry | serverFailed | serverUpdated => exact absurd trivial released

/-- **The two retry loops end.** From any state reached, without further posts, the rank falls at
every completion and so bounds them all; and so far every handler has sent at most two messages
and reported at most one outcome a post. -/
theorem retries_terminate {es : List (Event P ι)} (init : w.Initial)
    (run : FreeRun World.step w es w') :
    (∀ fs v, Run World.step NoPost w' fs v → fs.countP Event.completes + v.rank ≤ w'.rank) ∧
      (∀ fs u e v, Run World.step NoPost w' fs u → NoPost u e → e.completes = true →
        u.step e = some v → v.rank < u.rank) ∧
      ∀ h, messages h w'.trace ≤ 2 * posts h w'.trace ∧
        outcomes h w'.trace ≤ posts h w'.trace := by
  have kept : w'.Inv ∧ ∀ k, (w'.account k).Bounded :=
    run.invariant (I := fun w => w.Inv ∧ ∀ k, (w.account k).Bounded)
      (fun both _ stepped => ⟨both.1.step stepped, bounded_step both.1 both.2 stepped⟩)
      ⟨init.inv, init.bounded⟩
  obtain ⟨inv, bounded⟩ := kept
  refine ⟨fun fs v rest => ?_, fun fs u e v rest quiet completes stepped => ?_, fun h => ?_⟩
  · refine rest.count_add_rank_le (I := World.Inv) ?_ ?_ inv
    · intro u e v inv _ stepped
      exact inv.step stepped
    · intro u e v inv quiet stepped
      exact rank_step inv quiet stepped
  · have fall := rank_step (rest.invariant (fun inv _ stepped => Inv.step inv stepped) inv) quiet
      stepped
    rw [if_pos completes] at fall
    exact fall
  · have ⟨outcomes, messages⟩ := bounded h
    simp only [Account.due, account] at outcomes messages
    exact ⟨by omega, by omega⟩

/-- With one post rejected and another out, at most nine more replies complete. -/
theorem retries_terminate_rejected :
    ∃ w', FreeRun World.step Sample.world
        ([Sample.secret, Sample.postByte 1, Sample.postObject 1] ++
          Sample.completes 0 Sample.rejected) w' ∧
      w'.rank = 9 ∧
      ∀ fs v, Run World.step NoPost w' fs v → fs.countP Event.completes + v.rank ≤ w'.rank :=
  ⟨_, run_of_isSome (by decide), by decide, (retries_terminate Sample.world_initial
    (run_of_isSome (by decide))).1⟩

end World

end RestApiOut
