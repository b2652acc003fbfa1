import RestApiOut.Invariant

/-!
# Handlers waiting for a callback of the server

`World.awaiting` is the list of callbacks the server still owes: `waitingRestApis`, or, while a
notification loop runs, the part of it the loop has not reached.  The lemmas give this list and the
per-handler counts of the trace after each effect, which is what every law about posts and outcomes
rests on.
-/

namespace RestApiOut

variable {P : Platform} {ι : Type}

namespace World

/-- The handlers the server still has to call back, one entry a registration. -/
def awaiting (w : World P ι) : List ι :=
  if w.control.locked then w.control.rest else w.server.waitingRestApis

variable {w w' : World P ι} {h k : ι} {q r : ReplyId}

theorem awaiting_of_free (free : w.control.locked = false) :
    w.awaiting = w.server.waitingRestApis := by
  simp [awaiting, free]

theorem awaiting_of_locked (locked : w.control.locked = true) : w.awaiting = w.control.rest := by
  simp [awaiting, locked]

theorem Initial.awaiting (init : w.Initial) : w.awaiting = [] := by
  rw [awaiting_of_free (by rw [init.control]; rfl), init.waiting]

/-- While no update runs the server owes nobody a callback. -/
theorem Inv.awaiting_of_idle (inv : w.Inv) (free : w.control.locked = false)
    (idle : w.server.pendingReply = none) : w.awaiting = [] := by
  rw [awaiting_of_free free, inv.waiting idle]

/-- A post that is sent at once leaves nobody waiting. -/
theorem Inv.awaiting_postNow [DecidableEq ι] (inv : w.Inv) (h : ι) (endpoint : String)
    (content : Content P) (free : w.control.locked = false)
    (idle : w.server.pendingReply = none) :
    ((w.beginPost h endpoint content).timestampUpdated h).awaiting = [] := by
  simpa [World.awaiting, free] using inv.awaiting_of_idle free idle

theorem awaiting_append (free : w.control.locked = false) :
    (w.append h).awaiting = w.awaiting ++ [h] := by
  simp [awaiting, free]

theorem awaiting_enlist (free : w.control.locked = false) :
    (w.enlist h).awaiting = w.awaiting ++ [h] := by
  simp [awaiting, free]

theorem awaiting_startLoop (free : w.control.locked = false) (u : Bool) :
    (w.startLoop u).awaiting = w.awaiting := by
  rw [awaiting_of_free free, awaiting_of_locked (locked_startLoop w u)]
  cases u <;> rfl

theorem awaiting_updating {rest : List ι} (inLoop : w.control = .updating rest) :
    w.awaiting = rest := by
  simp [awaiting, inLoop, Control.locked, Control.rest]

theorem awaiting_failing {rest : List ι} (inLoop : w.control = .failing rest) :
    w.awaiting = rest := by
  simp [awaiting, inLoop, Control.locked, Control.rest]

@[simp] theorem awaiting_mk_updating (c : Core P ι) (handler : ι → Handler P) (rest : List ι) :
    (World.mk c handler (.updating rest)).awaiting = rest := rfl

@[simp] theorem awaiting_mk_failed (c : Core P ι) (handler : ι → Handler P) (rest : List ι) :
    (World.mk c handler (.failed k rest)).awaiting = rest := rfl

theorem awaiting_failed {rest : List ι} (inLoop : w.control = .failed k rest) :
    w.awaiting = rest := by
  simp [awaiting, inLoop, Control.locked, Control.rest]

@[simp] theorem reply_result_enlist :
    ((w.enlist h).network.reply r).result = (w.network.reply r).result :=
  enlist_congr (fun w => (w.network.reply r).result) (fun _ => rfl) fun w _ =>
    w.network.reply_result_post .server

section Traces

variable [DecidableEq ι]

@[simp] theorem posts_enlist : posts k (w.enlist h).trace = posts k w.trace :=
  trace_enlist_congr (posts k) (fun _ => rfl) fun _ _ _ => rfl

@[simp] theorem outcomes_enlist : outcomes k (w.enlist h).trace = outcomes k w.trace :=
  trace_enlist_congr (outcomes k) (fun _ => rfl) fun _ _ _ => rfl

@[simp] theorem messages_enlist : messages k (w.enlist h).trace = messages k w.trace :=
  trace_enlist_congr (messages k) (fun _ => rfl) fun _ _ _ => rfl

@[simp] theorem postOf_enlist : postOf q (w.enlist h).trace = postOf q w.trace :=
  trace_enlist_congr (postOf q) (fun _ => rfl) fun _ _ _ => rfl

@[simp] theorem repliesFor_enlist (p : Nat) :
    repliesFor k p (w.enlist h).trace = repliesFor k p w.trace :=
  trace_enlist_congr (repliesFor k p) (fun _ => rfl) fun _ _ _ => rfl

end Traces

end World

end RestApiOut
