import RestApiOut.Signing

/-!
# How often a post is transmitted

A handler that posts twice while an update runs is registered twice and, when the update succeeds,
called twice: the second call sends the latest post a second time, with no authentication failure
in between.  `sent_once` shows that this is the only way: while no handler is called again by the
success loop that has just called it, a post is sent once, and once more for every reply to it
that failed authentication.

`OncePerPost` carries the argument.  Of the replies to one post at most one has not failed
authentication; a handler waiting for a callback has none to its latest post, so the callback may
send; a handler that holds a reply holds the one there is.
-/

namespace RestApiOut

open Transition History

variable {P : Platform} {ι : Type} [DecidableEq ι]

/-- The network has stored an authentication failure in `r`. -/
def Network.rejected (n : Network ι) (r : ReplyId) : Bool :=
  (n.reply r).result.any fun result => result.error = .authenticationRequired

/-- The success loop does not call a handler it will call again. -/
def NotifiesOnce (w : World P ι) : Event P ι → Prop
  | .next =>
      match w.control with
      | .updating (h :: rest) => h ∉ rest
      | _ => True
  | _ => True

instance (w : World P ι) : ∀ e, Decidable (NotifiesOnce w e)
  | .next =>
      match control : w.control with
      | .updating (h :: rest) =>
          decidable_of_iff (h ∉ rest) (by simp only [NotifiesOnce, control])
      | .loop | .response _ | .updating [] | .failing _ | .failed _ _ | .signal | .deadlock =>
          isTrue (by simp only [NotifiesOnce, control])
  | .call _ | .ret | .arrive _ _ | .finish _ | .destroyReply _ => isTrue trivial

namespace World

/-- The replies to the `p`-th post of `h` that have not failed authentication. -/
def unrejected (w : World P ι) (h : ι) (p : Nat) : List ReplyId :=
  (repliesFor h p w.trace).filter fun r => !w.network.rejected r

/-- What has been sent for each post, when the handlers in `waiting` are still to be called. -/
structure OncePerPost (w : World P ι) (waiting : List ι) : Prop where
  once : ∀ h p, (w.unrejected h p).length ≤ 1
  future : ∀ h p, posts h w.trace < p → repliesFor h p w.trace = []
  clear : ∀ h ∈ waiting, w.unrejected h (posts h w.trace) = []
  current : ∀ h q, (w.handler h).pendingReply = some q →
    ∀ r ∈ w.unrejected h (posts h w.trace), r = q

variable {w w' : World P ι} {waiting waiting' : List ι} {h : ι} {q r : ReplyId}

theorem Initial.oncePerPost (init : w.Initial) : w.OncePerPost [] where
  once h p := by simp [unrejected, init.trace, repliesFor]
  future h p _ := by rw [init.trace]; rfl
  clear h member := by cases member
  current h q own := by rw [init.handlerPending h] at own; cases own

/-- A step that neither posts nor sends. -/
theorem OncePerPost.of_frame (once : w.OncePerPost waiting)
    (replies : ∀ h p, repliesFor h p w'.trace = repliesFor h p w.trace)
    (posted : ∀ h, posts h w'.trace = posts h w.trace)
    (rejected : ∀ r, w.network.rejected r = true → w'.network.rejected r = true)
    (pending : ∀ h q, (w'.handler h).pendingReply = some q → (w.handler h).pendingReply = some q)
    (fewer : ∀ h ∈ waiting', h ∈ waiting) : w'.OncePerPost waiting' := by
  have sub : ∀ h p, (w'.unrejected h p).Sublist (w.unrejected h p) := by
    intro h p
    unfold unrejected
    rw [replies]
    apply List.monotone_filter_right
    intro r open_
    rw [Bool.not_eq_true'] at open_ ⊢
    exact Bool.eq_false_iff.mpr fun before => Bool.eq_false_iff.mp open_ (rejected r before)
  refine ⟨?_, ?_, ?_, ?_⟩
  · intro h p
    exact (sub h p).length_le.trans (once.once h p)
  · intro h p later
    rw [posted] at later
    rw [replies]
    exact once.future h p later
  · intro h member
    have none := once.clear h (fewer h member)
    rw [posted]
    exact List.sublist_nil.mp (none ▸ sub h (posts h w.trace))
  · intro h q own r member
    rw [posted] at member
    exact once.current h q (pending h q own) r ((sub h _).subset member)

/-- Nothing has been sent yet for a post just made, so its handler may be called. -/
theorem OncePerPost.beginPost (once : w.OncePerPost waiting) (h : ι) (endpoint : String)
    (content : Content P) : (w.beginPost h endpoint content).OncePerPost (waiting ++ [h]) := by
  have same : ∀ k p, (w.beginPost h endpoint content).unrejected k p = w.unrejected k p :=
    fun _ _ => rfl
  have posted : ∀ k, posts k (w.beginPost h endpoint content).trace =
      posts k w.trace + if h = k then 1 else 0 := by
    intro k
    simp [Observation.isPosted]
  have nothing : ∀ k p, posts k w.trace < p → w.unrejected k p = [] := by
    intro k p later
    rw [unrejected, once.future k p later, List.filter_nil]
  refine ⟨once.once, ?_, ?_, ?_⟩
  · intro k p later
    rw [posted] at later
    exact once.future k p (by omega)
  · intro k member
    rw [posted, same]
    rcases List.mem_append.mp member with before | new
    · by_cases mine : h = k
      · exact nothing k _ (by rw [if_pos mine]; omega)
      · rw [if_neg mine]
        exact once.clear k before
    · exact nothing k _ (by rw [if_pos (List.mem_singleton.mp new).symm]; omega)
  · intro k q own r member
    rw [posted, same] at member
    by_cases mine : h = k
    · rw [nothing k _ (by rw [if_pos mine]; omega)] at member
      cases member
    · rw [if_neg mine] at member
      exact once.current k q ((pendingReply_beginPost w h k endpoint content).symm.trans own) r
        member

theorem unrejected_timestampUpdated (w : World P ι) (h k : ι) (p : Nat) :
    (w.timestampUpdated h).unrejected k p =
      if h = k ∧ posts k w.trace = p then w.network.next :: w.unrejected k p
      else w.unrejected k p := by
  have rejected : ∀ r, (w.timestampUpdated h).network.rejected r = w.network.rejected r := by
    intro r
    simp [Network.rejected]
  have new : w.network.rejected w.network.next = false := by
    simp [Network.rejected, w.network.fresh _ (Nat.le_refl _), Reply.blank]
  unfold unrejected
  simp only [trace_timestampUpdated, repliesFor, rejected]
  split
  · rw [List.filter_cons, new]
    rfl
  · rfl

/-- A handler that is called sends its latest post for the only time. -/
theorem OncePerPost.timestampUpdated (once : w.OncePerPost (h :: waiting)) (last : h ∉ waiting) :
    (w.timestampUpdated h).OncePerPost waiting := by
  have empty := once.clear h List.mem_cons_self
  have posted : ∀ k, posts k (w.timestampUpdated h).trace = posts k w.trace := by
    intro k
    simp [Observation.isPosted]
  refine ⟨?_, ?_, ?_, ?_⟩
  · intro k p
    rw [unrejected_timestampUpdated]
    split
    · rename_i mine
      rw [← mine.2, ← mine.1, empty]
      exact Nat.le_refl 1
    · exact once.once k p
  · intro k p later
    rw [posted] at later
    rw [trace_timestampUpdated, repliesFor, if_neg (fun mine => by omega)]
    exact once.future k p later
  · intro k member
    have other : h ≠ k := fun same => last (same ▸ member)
    rw [posted, unrejected_timestampUpdated, if_neg (fun mine => other mine.1)]
    exact once.clear k (List.mem_cons_of_mem h member)
  · intro k q own r member
    rw [posted, unrejected_timestampUpdated] at member
    rw [pendingReply_timestampUpdated] at own
    by_cases mine : k = h
    · rw [if_pos ⟨mine.symm, rfl⟩, mine, empty, List.mem_singleton] at member
      rw [if_pos mine] at own
      cases own
      exact member
    · rw [if_neg (fun same => mine same.1.symm)] at member
      rw [if_neg mine] at own
      exact once.current k q own r member

omit [DecidableEq ι] in
/-- The reply a retry is spent on has failed authentication. -/
theorem Rejected.stored (rejected : w.Rejected h q) : w.network.rejected q = true := by
  unfold Rejected Network.result at rejected
  unfold Network.rejected
  cases stored : (w.network.reply q).result with
  | none =>
      rw [stored] at rejected
      cases rejected.1
  | some result =>
      rw [stored] at rejected
      exact decide_eq_true rejected.1

/-- Once the reply a handler holds has failed authentication, its post may be sent again. -/
theorem OncePerPost.clear_of_rejected (once : w.OncePerPost waiting)
    (own : (w.handler h).pendingReply = some q) (rejected : w.network.rejected q = true) :
    w.unrejected h (posts h w.trace) = [] := by
  rw [List.eq_nil_iff_forall_not_mem]
  intro r member
  have held := once.current h q own r member
  have open_ := (List.mem_filter.mp member).2
  rw [held, rejected] at open_
  cases open_

theorem OncePerPost.enqueue (once : w.OncePerPost waiting)
    (empty : w.unrejected h (posts h w.trace) = []) : w.OncePerPost (waiting ++ [h]) := by
  refine ⟨once.once, once.future, ?_, once.current⟩
  intro k member
  rcases List.mem_append.mp member with before | new
  · exact once.clear k before
  · rw [List.mem_singleton.mp new]
    exact empty

/-- Every action that calls no handler twice keeps the law. -/
theorem OncePerPost.action {e : Event P ι} (once : w.OncePerPost w.awaiting) (inv : w.Inv)
    (guarded : NotifiesOnce w e) (action : Action w e w') : w'.OncePerPost w'.awaiting := by
  cases action with
  | @postNow h endpoint content user free idle =>
      have begun := once.beginPost h endpoint content
      have nobody := inv.awaiting_postNow h endpoint content free idle
      rw [inv.awaiting_of_idle free idle] at begun
      rw [nobody]
      exact begun.timestampUpdated List.not_mem_nil
  | @postDeferred h endpoint content r user free pending =>
      rw [awaiting_append (w := w.beginPost h endpoint content) free]
      refine (once.beginPost h endpoint content).of_frame (fun _ _ => rfl) (fun _ => ?_)
        (fun _ => id) (fun _ _ own => own) (fun _ member => member)
      simp [Observation.isPosted]
  | @postBlocked h k endpoint content rest inLoop =>
      exact (once.beginPost h endpoint content).of_frame (fun _ _ => rfl) (fun _ => rfl)
        (fun _ => id) (fun _ _ own => own) fun _ member => absurd member List.not_mem_nil
  | @notifyUpdated h rest inLoop =>
      have last : h ∉ rest := by
        unfold NotifiesOnce at guarded
        rw [inLoop] at guarded
        exact guarded
      rw [awaiting_updating inLoop] at once
      have noted : (w.note (.notified h true)).OncePerPost (h :: rest) :=
        once.of_frame (fun _ _ => rfl) (fun _ => by simp [Observation.isPosted]) (fun _ => id)
          (fun _ _ own => own) (fun _ member => member)
      rw [awaiting_mk_updating]
      exact (noted.timestampUpdated last).of_frame (fun _ _ => rfl) (fun _ => rfl) (fun _ => id)
        (fun _ _ own => own) (fun _ member => member)
  | @notifyFailed h rest inLoop =>
      rw [awaiting_failing inLoop] at once
      rw [awaiting_mk_failed]
      refine once.of_frame (fun _ _ => rfl) (fun _ => ?_) (fun r stored => ?_) (fun k q own => ?_)
        (fun _ member => List.mem_cons_of_mem h member)
      · simp [Observation.isPosted]
      · simpa [Network.rejected, note] using stored
      · have own' := (pendingReply_timestampUpdateFailed _ h k).symm.trans own
        split at own'
        · cases own'
        · exact own'
  | endUpdated | endFailed =>
      exact once.of_frame (fun _ _ => rfl) (fun _ => by simp [Observation.isPosted]) (fun _ => id)
        (fun _ _ own => own) fun _ member => absurd member List.not_mem_nil
  | returned callback =>
      have free := free_of_callback callback
      rw [awaiting_of_free free] at once
      exact once.of_frame (fun _ _ => rfl) (fun _ => rfl) (fun _ => id) (fun _ _ own => own)
        (fun _ member => member)
  | resumed inLoop =>
      rw [awaiting_failed inLoop] at once
      exact once.of_frame (fun _ _ => rfl) (fun _ => rfl) (fun _ => id) (fun _ _ own => own)
        (fun _ member => member)
  | setSecret | setDefaultSecret =>
      refine once.of_frame (fun _ _ => rfl) (fun _ => ?_) (fun _ => id) (fun k q own => ?_)
        (fun _ member => member)
      · simp [Observation.isPosted]
      · first | exact own | simpa using own
  | configure plain =>
      refine once.of_frame (fun _ _ => rfl) (fun _ => rfl) (fun _ => id) (fun _ _ own => own)
        (fun k member => ?_)
      simpa [awaiting, plain.waiting] using member
  | @arrived r result live first =>
      refine once.of_frame (fun _ _ => rfl) (fun _ => rfl) (fun q stored => ?_)
        (fun _ _ own => own) (fun _ member => member)
      have other : q ≠ r := fun same => by
        rw [same, Network.rejected] at stored
        rw [Network.arrived, Option.isSome_eq_false_iff, Option.isNone_iff_eq_none] at first
        rw [first] at stored
        cases stored
      simpa [Network.rejected, Network.reply_result_arrive (w.network.live_lt r live), other]
        using stored
  | destroyed =>
      exact once.of_frame (fun _ _ => rfl) (fun _ => rfl) (fun _ => id) (fun _ _ own => own)
        (fun _ member => member)
  | slotNull =>
      exact once.of_frame (fun _ _ => rfl) (fun _ => by simp [Observation.isPosted]) (fun _ => id)
        (fun _ _ own => own) (fun _ member => member)
  | @slotOutcome h r q o finishing pending final =>
      rw [awaiting_of_free finishing.free] at once
      refine once.of_frame (fun _ _ => rfl) (fun _ => ?_) (fun r' stored => ?_) (fun k q' own => ?_)
        (fun _ member => member)
      · simp [Observation.isPosted]
      · simpa [Network.rejected] using stored
      · have own' := (pendingReply_takePending _ h k q).symm.trans own
        split at own'
        · cases own'
        · exact own'
  | @slotRetry h r q finishing pending rejected =>
      have free : (((w.enterSlot h r).takePending h q).spendRetry h q).control.locked = false := by
        simp [finishing.loop, Control.locked]
      have next := once.enqueue (once.clear_of_rejected pending (Rejected.stored rejected))
      rw [awaiting_enlist free]
      refine next.of_frame (fun _ _ => ?_) (fun _ => ?_) (fun r' stored => ?_) (fun k q' own => ?_)
        (fun _ member => member)
      · rw [repliesFor_enlist]
        rfl
      · simp [Observation.isPosted]
      · simpa [Network.rejected] using stored
      · simp only [handler_enlist, pendingReply_spendRetry, pendingReply_takePending] at own
        split at own
        · cases own
        · exact own
  | serverRetry finishing =>
      refine once.of_frame (fun _ _ => rfl) (fun _ => ?_) (fun r' stored => ?_)
        (fun _ _ own => own) (fun _ member => member)
      · simp [Observation.isPosted]
      · simpa [Network.rejected] using stored
  | serverFailed finishing | serverUpdated finishing =>
      rw [awaiting_startLoop (by simp [finishing.free])]
      refine once.of_frame (fun _ _ => rfl) (fun _ => ?_) (fun r' stored => ?_)
        (fun _ _ own => own) (fun _ member => member)
      · simp [Observation.isPosted]
      · simpa [Network.rejected] using stored

/-- **A post is sent once, and once more for each reply to it that failed authentication**, in every
run in which the success loop never calls a handler it will call again; and what is sent for a post
carries its URL and payload. -/
theorem sent_once {es : List (Event P ι)} (init : w.Initial)
    (run : Run World.step NotifiesOnce w es w') (h : ι) (p : Nat) :
    (repliesFor h p w'.trace).length ≤
        1 + (repliesFor h p w'.trace).countP w'.network.rejected ∧
      Always SentForLatest w'.trace := by
  refine ⟨?_, init.sentForLatest run.free⟩
  have kept : w'.Inv ∧ w'.OncePerPost w'.awaiting :=
    run.invariant (I := fun w => w.Inv ∧ w.OncePerPost w.awaiting)
      (fun both guarded stepped =>
        ⟨both.1.step stepped, both.2.action both.1 guarded (step_action both.1 stepped)⟩)
      ⟨init.inv, by rw [init.awaiting]; exact init.oncePerPost⟩
  have split := List.length_eq_countP_add_countP w'.network.rejected
    (l := repliesFor h p w'.trace)
  have once := kept.2.once h p
  simp only [unrejected, ← List.countP_eq_length_filter] at once
  simp only [Bool.not_eq_true] at split
  have same : ∀ l : List ReplyId, l.countP (fun r => !w'.network.rejected r) =
      l.countP fun r => decide (w'.network.rejected r = false) := by
    intro l
    apply List.countP_congr
    intro r _
    simp
  rw [same] at once
  omega

/-- Two posts on one handler are made while an update runs; it succeeds, and the second post is
transmitted twice although nothing failed authentication. -/
theorem deferred_post_sent_twice :
    ∃ w', FreeRun World.step Sample.world
        ([Sample.secret, Sample.postObject 1] ++ Sample.completes 0 Sample.rejected ++
          [Sample.postByte 1, Sample.postByte 2] ++ Sample.completes 1 (Sample.answered 7) ++
          [.next, .next, .next]) w' ∧
      repliesFor false 2 w'.trace = [4, 3] ∧
      ¬ (repliesFor false 2 w'.trace).length ≤
        1 + (repliesFor false 2 w'.trace).countP w'.network.rejected :=
  ⟨_, run_of_isSome (by decide), by decide, by decide⟩

/-- A post that fails authentication once is sent twice. -/
theorem rejected_post_sent_twice :
    ∃ w', Run World.step NotifiesOnce Sample.world
        ([Sample.secret, Sample.postByte 1] ++ Sample.completes 0 Sample.rejected ++
          Sample.completes 1 (Sample.answered 7) ++ [.next]) w' ∧
      (repliesFor false 1 w'.trace).length ≤
        1 + (repliesFor false 1 w'.trace).countP w'.network.rejected ∧
      Always SentForLatest w'.trace :=
  exists_run (by decide) fun _ run => sent_once Sample.world_initial run false 1

end World

end RestApiOut
