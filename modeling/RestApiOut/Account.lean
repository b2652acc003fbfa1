import RestApiOut.Waiting

/-!
# The account of one handler

Seen from one handler, the whole program is a small automaton.  `Account` counts what has happened
to the handler (posts, messages, outcomes) and what is still to come (a reply it holds, callbacks
the server owes it, retries left); `Account.Move` is what can happen next, in no particular
order.  `Action.account` shows that every step of the program moves every handler's account, so
whatever the automaton bounds, the program bounds, whatever other handlers and the network do.

* `Account.Bounded`: at most one outcome and at most two messages a post, whatever the order.
* `Account.Balanced`: with at most one post open at a time, exactly one thing is still to come
  until the outcome, and nothing after it.
-/

namespace RestApiOut

structure Account where
  posts : Nat
  messages : Nat
  outcomes : Nat
  /-- One while the handler holds a reply. -/
  held : Nat
  /-- The callbacks the server owes the handler. -/
  waiting : Nat
  retries : Nat

namespace Account

/-- What can happen to a handler; the flag tells whether the application posts on it. -/
inductive Move : Bool → Account → Account → Prop
  | stay {a : Account} : Move false a a
  | postNow {a : Account} : a.waiting = 0 →
      Move true a
        { a with posts := a.posts + 1, messages := a.messages + 1, held := 1, retries := 1 }
  | postDeferred {a : Account} :
      Move true a { a with posts := a.posts + 1, waiting := a.waiting + 1, retries := 1 }
  | outcome {a : Account} : a.held = 1 →
      Move false a { a with outcomes := a.outcomes + 1, held := 0 }
  | retry {a : Account} : a.held = 1 → 0 < a.retries →
      Move false a { a with held := 0, waiting := a.waiting + 1, retries := a.retries - 1 }
  | resend {a : Account} : 0 < a.waiting →
      Move false a { a with messages := a.messages + 1, held := 1, waiting := a.waiting - 1 }
  | fail {a : Account} : 0 < a.waiting →
      Move false a { a with outcomes := a.outcomes + 1, held := 0, waiting := a.waiting - 1 }

theorem Move.of_eq {posted : Bool} {a b : Account} (none : posted = false) (same : b = a) :
    Move posted a b := by
  subst none same
  exact .stay

/-- Only the application's posts are counted as posts. -/
theorem Move.posts_eq {a b : Account} (move : Move false a b) : b.posts = a.posts := by
  cases move <;> rfl

/-- What is still to come for a handler. -/
def due (a : Account) : Nat := a.held + a.waiting

/-- Every outcome and everything that may still bring one is paid for by a post, and so is, twice,
every message and everything that may still send one. -/
structure Bounded (a : Account) : Prop where
  outcomes : a.outcomes + a.due ≤ a.posts
  messages : a.messages + a.waiting + (if a.posts = 0 then 0 else a.retries) ≤ 2 * a.posts

/-- Every post has had its outcome but for the one still to come. -/
structure Balanced (a : Account) : Prop where
  posts : a.posts = a.outcomes + a.due
  single : a.due ≤ 1

theorem Bounded.move {posted : Bool} {a b : Account} (bounded : a.Bounded)
    (move : Move posted a b) : b.Bounded := by
  obtain ⟨outcomes, messages⟩ := bounded
  unfold due at outcomes
  cases move with
  | stay => exact ⟨outcomes, messages⟩
  | postNow none =>
      refine ⟨by simp only [due]; omega, ?_⟩
      rw [if_neg (Nat.succ_ne_zero _)]
      dsimp only
      split at messages <;> omega
  | postDeferred =>
      refine ⟨by simp only [due]; omega, ?_⟩
      rw [if_neg (Nat.succ_ne_zero _)]
      dsimp only
      split at messages <;> omega
  | outcome held => exact ⟨by simp only [due]; omega, messages⟩
  | retry held left =>
      refine ⟨by simp only [due]; omega, ?_⟩
      dsimp only
      split at messages
      · omega
      · rename_i posted
        rw [if_neg posted]
        omega
  | resend waits =>
      refine ⟨by simp only [due]; omega, ?_⟩
      dsimp only
      split at messages
      · omega
      · rename_i posted
        rw [if_neg posted]
        omega
  | fail waits =>
      refine ⟨by simp only [due]; omega, ?_⟩
      dsimp only
      split at messages
      · omega
      · rename_i posted
        rw [if_neg posted]
        omega

/-- A handler whose callbacks are never made. -/
theorem Bounded.abandon {a : Account} (bounded : a.Bounded) :
    Bounded { a with waiting := 0 } := by
  obtain ⟨outcomes, messages⟩ := bounded
  unfold due at outcomes
  exact ⟨by simp only [due]; omega, by dsimp only; omega⟩

theorem Bounded.abandon_posted {a : Account} (bounded : a.Bounded) :
    Bounded { a with posts := a.posts + 1, waiting := 0, retries := 1 } := by
  obtain ⟨outcomes, messages⟩ := bounded
  unfold due at outcomes
  refine ⟨by simp only [due]; omega, ?_⟩
  rw [if_neg (Nat.succ_ne_zero _)]
  dsimp only
  omega

/-- Posting only when every post has had its outcome keeps the balance. -/
theorem Balanced.move {posted : Bool} {a b : Account} (balanced : a.Balanced)
    (move : Move posted a b) (serial : posted = true → a.posts = a.outcomes) : b.Balanced := by
  obtain ⟨posts, single⟩ := balanced
  unfold due at posts single
  cases move with
  | stay => exact ⟨posts, single⟩
  | postNow none =>
      have closed := serial rfl
      exact ⟨by simp only [due]; omega, by simp only [due]; omega⟩
  | postDeferred =>
      have closed := serial rfl
      exact ⟨by simp only [due]; omega, by simp only [due]; omega⟩
  | outcome held => exact ⟨by simp only [due]; omega, by simp only [due]; omega⟩
  | retry held left => exact ⟨by simp only [due]; omega, by simp only [due]; omega⟩
  | resend waits => exact ⟨by simp only [due]; omega, by simp only [due]; omega⟩
  | fail waits => exact ⟨by simp only [due]; omega, by simp only [due]; omega⟩

end Account

variable {P : Platform} {ι : Type} [DecidableEq ι]

/-- The application posts on `k`. -/
def Event.postsOn (k : ι) : Event P ι → Bool
  | .call (.post h _ _) => h = k
  | _ => false

namespace World

def account (w : World P ι) (k : ι) : Account where
  posts := posts k w.trace
  messages := messages k w.trace
  outcomes := outcomes k w.trace
  held := if (w.handler k).pendingReply = none then 0 else 1
  waiting := w.awaiting.count k
  retries := (w.handler k).retriesRemaining

variable {w w' : World P ι} {h k : ι} {q r : ReplyId}

/-- A step that shows in none of the counts of `k`. -/
theorem account_of_frame (trace : posts k w'.trace = posts k w.trace ∧
      messages k w'.trace = messages k w.trace ∧ outcomes k w'.trace = outcomes k w.trace)
    (pending : (w'.handler k).pendingReply = (w.handler k).pendingReply)
    (retries : (w'.handler k).retriesRemaining = (w.handler k).retriesRemaining)
    (awaiting : w'.awaiting.count k = w.awaiting.count k) : w'.account k = w.account k := by
  simp only [account, trace, pending, retries, awaiting]

theorem Initial.account (init : w.Initial) (k : ι) : (w.account k).Balanced := by
  constructor
  · simp [World.account, Account.due, init.trace, init.handlerPending k, init.awaiting]
  · simp [World.account, Account.due, init.handlerPending k, init.awaiting]

theorem Initial.bounded (init : w.Initial) (k : ι) : (w.account k).Bounded := by
  constructor
  · simp [World.account, Account.due, init.trace, init.handlerPending k, init.awaiting]
  · simp [World.account, init.trace, init.awaiting]

/-- **Every step that does not block the thread moves the account of every handler.** -/
theorem Action.account {e : Event P ι} (inv : w.Inv) (action : Action w e w')
    (running : w'.control ≠ .deadlock) (k : ι) :
    Account.Move (e.postsOn k) (w.account k) (w'.account k) := by
  cases action with
  | @postNow h endpoint content user free idle =>
      have nobody := inv.awaiting_of_idle free idle
      have nobody' := inv.awaiting_postNow h endpoint content free idle
      rcases eq_or_ne h k with rfl | mine
      · have after : ((w.beginPost h endpoint content).timestampUpdated h).account h =
            { w.account h with
              posts := (w.account h).posts + 1, messages := (w.account h).messages + 1
              held := 1, retries := 1 } := by
          simp [World.account, nobody, nobody', Observation.isPosted, Observation.isSent,
            Observation.isOutcome]
        have none : (w.account h).waiting = 0 := by simp [World.account, nobody]
        rw [after]
        simpa [Event.postsOn] using Account.Move.postNow none
      · have same : ((w.beginPost h endpoint content).timestampUpdated h).account k =
            w.account k := by
          refine account_of_frame ?_ ?_ ?_ ?_
          · simp [Observation.isPosted, Observation.isSent, Observation.isOutcome, mine]
          · simp [Ne.symm mine]
          · simp [Ne.symm mine]
          · rw [nobody, nobody']
        rw [same]
        simpa [Event.postsOn, mine] using Account.Move.stay
  | @postDeferred h endpoint content r user free pending =>
      have queued : ((w.beginPost h endpoint content).append h).awaiting = w.awaiting ++ [h] :=
        awaiting_append (w := w.beginPost h endpoint content) free
      rcases eq_or_ne h k with rfl | mine
      · have after : ((w.beginPost h endpoint content).append h).account h =
            { w.account h with
              posts := (w.account h).posts + 1, waiting := (w.account h).waiting + 1
              retries := 1 } := by
          simp [World.account, queued, Observation.isPosted, Observation.isSent,
            Observation.isOutcome]
        rw [after]
        simpa [Event.postsOn] using Account.Move.postDeferred
      · have same : ((w.beginPost h endpoint content).append h).account k = w.account k := by
          refine account_of_frame ?_ ?_ ?_ ?_
          · simp [Observation.isPosted, Observation.isSent, Observation.isOutcome, mine]
          · simp
          · simp [Ne.symm mine]
          · simp [queued, mine]
        rw [same]
        simpa [Event.postsOn, mine] using Account.Move.stay
  | postBlocked => exact absurd rfl running
  | @notifyUpdated h rest inLoop =>
      have waited := awaiting_updating inLoop
      rcases eq_or_ne h k with rfl | mine
      · have after : ({ (w.note (.notified h true)).timestampUpdated h with
              control := .updating rest } : World P ι).account h =
            { w.account h with
              messages := (w.account h).messages + 1, held := 1
              waiting := (w.account h).waiting - 1 } := by
          simp [World.account, waited, note, Observation.isPosted,
            Observation.isSent, Observation.isOutcome]
        have called : 0 < (w.account h).waiting := by simp [World.account, waited]
        rw [after]
        exact .resend called
      · have same : ({ (w.note (.notified h true)).timestampUpdated h with
              control := .updating rest } : World P ι).account k = w.account k := by
          refine account_of_frame ?_ ?_ ?_ ?_
          · simp [Observation.isPosted, Observation.isSent, Observation.isOutcome, mine]
          · simp [note, Ne.symm mine]
          · simp [note]
          · rw [waited, awaiting_mk_updating, List.count_cons_of_ne mine]
        rw [same]
        exact .stay
  | @notifyFailed h rest inLoop =>
      have waited := awaiting_failing inLoop
      rcases eq_or_ne h k with rfl | mine
      · have after : ({ (w.note (.notified h false)).timestampUpdateFailed h with
              control := .failed h rest } : World P ι).account h =
            { w.account h with
              outcomes := (w.account h).outcomes + 1, held := 0
              waiting := (w.account h).waiting - 1 } := by
          simp [World.account, waited, note,
            Observation.isPosted, Observation.isSent, Observation.isOutcome]
        have called : 0 < (w.account h).waiting := by simp [World.account, waited]
        rw [after]
        exact .fail called
      · have same : ({ (w.note (.notified h false)).timestampUpdateFailed h with
              control := .failed h rest } : World P ι).account k = w.account k := by
          refine account_of_frame ?_ ?_ ?_ ?_
          · simp [Observation.isPosted, Observation.isSent, Observation.isOutcome, mine]
          · simp [note, Ne.symm mine]
          · simp [note]
          · rw [waited, awaiting_mk_failed, List.count_cons_of_ne mine]
        rw [same]
        exact .stay
  | @slotOutcome h r q o finishing pending final =>
      have waits : (((w.enterSlot h r).takePending h q).respond h q o).awaiting = w.awaiting := by
        rw [awaiting_of_free (by rfl), awaiting_of_free finishing.free]
        rfl
      rcases eq_or_ne h k with rfl | mine
      · have after : (((w.enterSlot h r).takePending h q).respond h q o).account h =
            { w.account h with outcomes := (w.account h).outcomes + 1, held := 0 } := by
          simp [World.account, waits, Observation.isPosted, Observation.isSent,
            Observation.isOutcome]
        have held : (w.account h).held = 1 := by simp [World.account, pending]
        rw [after]
        exact .outcome held
      · have same : (((w.enterSlot h r).takePending h q).respond h q o).account k =
            w.account k := by
          refine account_of_frame ?_ ?_ ?_ ?_
          · simp [Observation.isPosted, Observation.isSent, Observation.isOutcome, mine]
          · simp [Ne.symm mine]
          · simp
          · rw [waits]
        rw [same]
        exact .stay
  | @slotRetry h r q finishing pending rejected =>
      have free : (((w.enterSlot h r).takePending h q).spendRetry h q).control.locked = false := by
        simp [finishing.loop, Control.locked]
      have queued : ((((w.enterSlot h r).takePending h q).spendRetry h q).enlist h).awaiting =
          w.awaiting ++ [h] := awaiting_enlist free
      rcases eq_or_ne h k with rfl | mine
      · have after : ((((w.enterSlot h r).takePending h q).spendRetry h q).enlist h).account h =
            { w.account h with
              held := 0, waiting := (w.account h).waiting + 1
              retries := (w.account h).retries - 1 } := by
          simp [World.account, queued, Observation.isPosted, Observation.isSent,
            Observation.isOutcome]
        have held : (w.account h).held = 1 := by simp [World.account, pending]
        rw [after]
        exact .retry held rejected.2
      · have same : ((((w.enterSlot h r).takePending h q).spendRetry h q).enlist h).account k =
            w.account k := by
          refine account_of_frame ?_ ?_ ?_ ?_
          · simp [Observation.isPosted, Observation.isSent, Observation.isOutcome]
          · simp [Ne.symm mine]
          · simp [Ne.symm mine]
          · simp [queued, mine]
        rw [same]
        exact .stay
  | endUpdated inLoop | endFailed inLoop =>
      refine .of_eq rfl (account_of_frame ⟨?_, ?_, ?_⟩ rfl rfl ?_)
      · simp [Observation.isPosted]
      · simp [Observation.isSent]
      · simp [Observation.isOutcome]
      · simp [awaiting, inLoop, Control.locked, Control.rest, Core.release, withCore]
  | returned callback =>
      have free := free_of_callback callback
      refine .of_eq rfl (account_of_frame ⟨rfl, rfl, rfl⟩ rfl rfl ?_)
      rw [awaiting_of_free free, awaiting_of_free (by rfl)]
  | resumed inLoop =>
      refine .of_eq rfl (account_of_frame ⟨rfl, rfl, rfl⟩ rfl rfl ?_)
      rw [awaiting_failed inLoop, awaiting_failing (by rfl)]
  | @setSecret h secret long =>
      refine .of_eq rfl (account_of_frame ⟨?_, ?_, ?_⟩ ?_ ?_ rfl)
      · simp [Observation.isPosted]
      · simp [Observation.isSent]
      · simp [Observation.isOutcome]
      · simp
      · simp
  | @configure c s plain noPost =>
      have silent : Event.postsOn k (.call c) = false := by
        cases c with
        | post h endpoint content => exact absurd rfl (noPost h endpoint content)
        | setSecret | setDefaultSecret | setSchemeAndHost | setUserAgent | setTimeDeltaSlug
        | setTimeDelta => rfl
      refine .of_eq silent (account_of_frame ⟨rfl, rfl, rfl⟩ rfl rfl ?_)
      simp [awaiting, plain.waiting]
  | arrived | destroyed => exact .stay
  | setDefaultSecret | slotNull | serverRetry =>
      refine .of_eq rfl (account_of_frame ⟨?_, ?_, ?_⟩ rfl rfl rfl)
      · simp [Observation.isPosted]
      · simp [Observation.isSent]
      · simp [Observation.isOutcome]
  | serverFailed finishing | serverUpdated finishing =>
      refine .of_eq rfl (account_of_frame ⟨?_, ?_, ?_⟩ rfl rfl ?_)
      · simp [Observation.isPosted]
      · simp [Observation.isSent]
      · simp [Observation.isOutcome]
      · rw [awaiting_startLoop (by simp [finishing.free])]
        rfl

end World

end RestApiOut
