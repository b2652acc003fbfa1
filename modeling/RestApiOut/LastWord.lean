import RestApiOut.LatestPost
import RestApiOut.Settling

/-!
# The last word

When posts of one handler overlap, what is reported after a post may still be about an earlier one
(`earlier_post_reported_while_waiting`).  It is never the last thing reported: as long as no
superseded reply finishes, once the program has come to rest the latest outcome of every handler is
about its latest post.

`Attended` is the invariant.  A handler whose last word is still to come holds a reply or is owed a
callback, and `Settled` says whose post the reply belongs to.
-/

namespace RestApiOut

open Transition History

variable {P : Platform} {ι : Type} [DecidableEq ι]

/-- The latest outcome of `h` is later than its latest post and about it: it was read from a reply
to a message of that post, or says that the update failed. -/
def concluded (h : ι) : Trace P ι → Bool
  | [] => true
  | .posted k _ _ _ :: past => k ≠ h && concluded h past
  | .outcome k cause _ :: past =>
      if k = h then cause.all fun q => postOf q past = posts h past else concluded h past
  | _ :: past => concluded h past

namespace World

variable {w w' : World P ι} {h k : ι} {q r : ReplyId}

/-- The last word of `h` has been spoken, or `h` holds a reply or is owed a callback. -/
def AttendedAt (w : World P ι) (h : ι) : Prop :=
  concluded h w.trace = true ∨ (w.handler h).pendingReply ≠ none ∨ h ∈ w.awaiting

/-- Nobody is forgotten while the thread runs. -/
def Attended (w : World P ι) : Prop := w.control ≠ .deadlock → ∀ h, w.AttendedAt h

theorem Initial.attended (init : w.Initial) : w.Attended := by
  intro _ h
  refine .inl ?_
  rw [init.trace]
  rfl

theorem AttendedAt.of_frame (attended : w.AttendedAt h)
    (trace : concluded h w'.trace = concluded h w.trace)
    (pending : (w'.handler h).pendingReply = (w.handler h).pendingReply)
    (awaiting : h ∈ w.awaiting → h ∈ w'.awaiting) : w'.AttendedAt h := by
  rcases attended with spoken | held | waits
  · exact .inl (trace.trans spoken)
  · exact .inr (.inl (pending.trans_ne held))
  · exact .inr (.inr (awaiting waits))

theorem concluded_timestampUpdated (w : World P ι) (h k : ι) :
    concluded k (w.timestampUpdated h).trace = concluded k w.trace := by
  rw [trace_timestampUpdated]
  rfl

@[simp] theorem concluded_enlist : concluded k (w.enlist h).trace = concluded k w.trace :=
  trace_enlist_congr (concluded k) (fun _ => rfl) fun _ _ _ => rfl

theorem AttendedAt.postNow {endpoint : String} {content : Content P} (attended : w.AttendedAt k)
    (inv : w.Inv) (free : w.control.locked = false) (idle : w.server.pendingReply = none) :
    ((w.beginPost h endpoint content).timestampUpdated h).AttendedAt k := by
  rcases eq_or_ne h k with rfl | mine
  · refine .inr (.inl ?_)
    rw [pendingReply_timestampUpdated, if_pos rfl]
    exact Option.some_ne_none _
  · refine attended.of_frame ?_ ?_ fun waits => ?_
    · rw [concluded_timestampUpdated, trace_beginPost]
      simp [concluded, mine]
    · rw [pendingReply_timestampUpdated, if_neg (Ne.symm mine), pendingReply_beginPost]
    · rw [inv.awaiting_of_idle free idle] at waits
      cases waits

theorem AttendedAt.postDeferred {endpoint : String} {content : Content P}
    (attended : w.AttendedAt k) (free : w.control.locked = false) :
    ((w.beginPost h endpoint content).append h).AttendedAt k := by
  have queued : ((w.beginPost h endpoint content).append h).awaiting = w.awaiting ++ [h] :=
    awaiting_append (w := w.beginPost h endpoint content) free
  rcases eq_or_ne h k with rfl | mine
  · refine .inr (.inr ?_)
    rw [queued]
    exact List.mem_append_right _ List.mem_cons_self
  · refine attended.of_frame ?_ (pendingReply_beginPost w h k endpoint content) fun waits => ?_
    · simp [concluded, mine]
    · rw [queued]
      exact List.mem_append_left _ waits

theorem AttendedAt.notifyUpdated {rest : List ι} (attended : w.AttendedAt k)
    (inLoop : w.control = .updating (h :: rest)) :
    ({ (w.note (.notified h true)).timestampUpdated h with
      control := .updating rest } : World P ι).AttendedAt k := by
  have pending := pendingReply_timestampUpdated (w.note (.notified h true)) h k
  rcases eq_or_ne h k with rfl | mine
  · refine .inr (.inl ?_)
    rw [if_pos rfl] at pending
    exact pending.trans_ne (Option.some_ne_none _)
  · rw [if_neg (Ne.symm mine)] at pending
    refine attended.of_frame (concluded_timestampUpdated _ h k) pending fun waits => ?_
    rw [awaiting_updating inLoop, List.mem_cons] at waits
    rw [awaiting_mk_updating]
    exact waits.resolve_left (Ne.symm mine)

/-- The failure of an update is a last word. -/
theorem AttendedAt.notifyFailed {rest : List ι} (attended : w.AttendedAt k)
    (inLoop : w.control = .failing (h :: rest)) :
    ({ (w.note (.notified h false)).timestampUpdateFailed h with
      control := .failed h rest } : World P ι).AttendedAt k := by
  have pending := pendingReply_timestampUpdateFailed (w.note (.notified h false)) h k
  have trace := trace_timestampUpdateFailed (w.note (.notified h false)) h
  rcases eq_or_ne h k with rfl | mine
  · refine .inl ?_
    dsimp only
    rw [trace]
    simp [concluded]
  · rw [if_neg (Ne.symm mine)] at pending
    refine attended.of_frame ?_ pending fun waits => ?_
    · dsimp only
      rw [trace]
      simp [concluded, mine]
    · rw [awaiting_failing inLoop, List.mem_cons] at waits
      rw [awaiting_mk_failed]
      exact waits.resolve_left (Ne.symm mine)

/-- What a handler reports is its last word, unless a callback is still to come. -/
theorem AttendedAt.slotOutcome {o : Outcome P} (attended : w.AttendedAt k) (settled : w.Settled)
    (finishing : w.Finishing r (.handler h)) (pending : (w.handler h).pendingReply = some q) :
    (((w.enterSlot h r).takePending h q).respond h q o).AttendedAt k := by
  have awaiting : (((w.enterSlot h r).takePending h q).respond h q o).awaiting = w.awaiting := by
    rw [awaiting_of_free (by rfl), awaiting_of_free finishing.free]
    rfl
  rcases eq_or_ne h k with rfl | mine
  · by_cases waits : h ∈ w.awaiting
    · refine .inr (.inr ?_)
      rw [awaiting]
      exact waits
    · have latest := settled.latest finishing.running h q pending waits
      refine .inl ?_
      simpa [concluded, postOf, Observation.isPosted] using latest
  · refine attended.of_frame ?_ ?_ fun waits => ?_
    · simp [concluded, mine]
    · rw [handler_respond, pendingReply_takePending, if_neg (Ne.symm mine)]
      rfl
    · rw [awaiting]
      exact waits

theorem AttendedAt.slotRetry (attended : w.AttendedAt k) (finishing : w.Finishing r (.handler h)) :
    ((((w.enterSlot h r).takePending h q).spendRetry h q).enlist h).AttendedAt k := by
  have free : (((w.enterSlot h r).takePending h q).spendRetry h q).control.locked = false := by
    simp [finishing.loop, Control.locked]
  have queued := awaiting_enlist (h := h) free
  rcases eq_or_ne h k with rfl | mine
  · refine .inr (.inr ?_)
    rw [queued]
    exact List.mem_append_right _ List.mem_cons_self
  · refine attended.of_frame ?_ ?_ fun waits => ?_
    · rw [concluded_enlist]
      rfl
    · simp [Ne.symm mine]
    · rw [queued]
      exact List.mem_append_left _ waits

/-- **Nobody is forgotten by a step.** -/
theorem Attended.step {e : Event P ι} (attended : w.Attended) (inv : w.Inv) (settled : w.Settled)
    (stepped : w.step e = some w') : w'.Attended := by
  intro running k
  have before := attended ((relocked_step inv stepped).mp running).1 k
  cases step_action inv stepped with
  | postNow user free idle => exact before.postNow inv free idle
  | postDeferred user free => exact before.postDeferred free
  | postBlocked => exact absurd rfl running
  | notifyUpdated inLoop => exact before.notifyUpdated inLoop
  | notifyFailed inLoop => exact before.notifyFailed inLoop
  | slotOutcome finishing pending => exact before.slotOutcome settled finishing pending
  | slotRetry finishing => exact before.slotRetry finishing
  | setSecret => exact before.of_frame rfl (pendingReply_setSecret _ _ _ _) id
  | configure plain =>
      refine before.of_frame rfl rfl fun waits => ?_
      rw [awaiting, plain.waiting]
      exact waits
  | returned callback =>
      refine before.of_frame rfl rfl fun waits => ?_
      rwa [awaiting_of_free (by rfl), ← awaiting_of_free (free_of_callback callback)]
  | resumed inLoop =>
      refine before.of_frame rfl rfl fun waits => ?_
      rwa [awaiting_failing (by rfl), ← awaiting_failed inLoop]
  | endUpdated inLoop =>
      refine before.of_frame rfl rfl fun waits => ?_
      rw [awaiting_updating inLoop] at waits
      cases waits
  | endFailed inLoop =>
      refine before.of_frame rfl rfl fun waits => ?_
      rw [awaiting_failing inLoop] at waits
      cases waits
  | serverFailed finishing | serverUpdated finishing =>
      refine before.of_frame rfl rfl fun waits => ?_
      rw [awaiting_startLoop (by exact finishing.free)]
      exact waits
  | setDefaultSecret | arrived | destroyed | slotNull | serverRetry =>
      exact before.of_frame rfl rfl id

/-- Every slot reads the reply that finished, if no superseded reply finishes. -/
theorem reads_finished_of_kept {es : List (Event P ι)} (init : w.Initial)
    (run : Run World.step FinishesKept w es w') : Always ReadsFinished w'.trace := by
  have kept : w'.Inv ∧ Always ReadsFinished w'.trace :=
    run.invariant (I := fun w => w.Inv ∧ Always ReadsFinished w.trace)
      (fun both ok stepped =>
        ⟨both.1.step stepped, (reads_finished_step both.1 stepped).mpr ⟨both.2, ok⟩⟩)
      ⟨init.inv, by rw [init.trace]; trivial⟩
  exact kept.2

/-- **The latest post has the last word.** However posts overlapped, if no reply finishes on which
`deleteLater` was called: wherever a run that is left to itself stops the program is at rest, and
every handler that was ever posted on has reported since its latest post, from a reply to that post
that had finished, or that the update it waited for failed. -/
theorem latest_post_concluded {v : World P ι} {es fs : List (Event P ι)} (init : w.Initial)
    (run : Run World.step FinishesKept w es w') (running : w'.control ≠ .deadlock)
    (silent : Run World.step (fun w e => Silent w e ∧ FinishesKept w e) w' fs v)
    (stuck : Stuck World.step (fun w e => Silent w e ∧ FinishesKept w e) v) :
    v.AtRest ∧ Always ReadsFinished v.trace ∧ ∀ h, concluded h v.trace = true := by
  have sound := (init.sound run running).run And.left silent
  have rest := (stuck_iff sound.inv sound.routed sound.running And.left
    fun quiet kept _ => ⟨quiet, kept⟩).mp stuck
  have whole := run.append (silent.mono fun _ _ both => both.2)
  have kept : (v.Inv ∧ v.Settled) ∧ v.Attended :=
    whole.invariant (I := fun w => (w.Inv ∧ w.Settled) ∧ w.Attended)
      (fun kept _ stepped => by
        obtain ⟨⟨inv, settled⟩, attended⟩ := kept
        have action := step_action inv stepped
        exact ⟨⟨inv.step stepped, settled.action inv action⟩, attended.step inv settled stepped⟩)
      ⟨⟨init.inv, init.settled⟩, init.attended⟩
  refine ⟨rest, reads_finished_of_kept init whole, fun h => ?_⟩
  rcases kept.2 sound.running h with spoken | held | waits
  · exact spoken
  · exact absurd (rest.noReply h) held
  · rw [awaiting_of_free (by rw [rest.loop]; rfl), rest.nobody] at waits
    cases waits

/-- An earlier post is reported while the latest one waits for the clock: that is not the last
word. -/
theorem latest_post_concluded_after_overlap :
    ∃ w', Run World.step FinishesKept Sample.world
        ([Sample.secret, Sample.postByte 1, Sample.postObject 1] ++
          Sample.completes 1 Sample.rejected ++ [Sample.postByte 2] ++
          Sample.completes 0 Sample.succeeded) w' ∧
      concluded false w'.trace = false ∧
      ∀ fs v, Run World.step (fun w e => Silent w e ∧ FinishesKept w e) w' fs v →
        Stuck World.step (fun w e => Silent w e ∧ FinishesKept w e) v →
        v.AtRest ∧ Always ReadsFinished v.trace ∧ ∀ h, concluded h v.trace = true :=
  ⟨_, run_of_isSome (by decide), by decide, fun _ _ silent stuck =>
    latest_post_concluded Sample.world_initial (run_of_isSome (by decide)) (by decide) silent stuck⟩

end World

end RestApiOut
