import RestApiOut.Session

/-!
# Handlers do not influence each other through their data

What a handler keeps to itself is its private secret, the endpoint, URL and payload of its posts,
and the bytes of its messages.  `Alike k` relates two worlds that differ in nothing but what the
handler `k` keeps to itself, and `isolation` runs the two side by side: under the same completions
and the same calls, but for what `k` is told to send and to sign with, they stay alike.  So nothing
another handler sends or reports, no decision of the server and no timing depends on a secret or a
payload of `k`.
-/

namespace RestApiOut

open Transition

variable {P : Platform} {ι : Type}

/-- Two states of the handler `j` that differ at most in what `k` keeps to itself. -/
structure Handler.Alike (k j : ι) (x x' : Handler P) : Prop where
  kind : x'.kind = x.kind
  retries : x'.retriesRemaining = x.retriesRemaining
  pending : x'.pendingReply = x.pendingReply
  other : j ≠ k → x' = x

/-- Two observations that differ at most in what `k` keeps to itself. -/
inductive Observation.Alike (k : ι) : Observation P ι → Observation P ι → Prop
  | same (o : Observation P ι) : Alike k o o
  | posted (base : P.Url) (endpoint endpoint' : String) (content content' : Content P) :
      Alike k (.posted k base endpoint content) (.posted k base endpoint' content')
  | sent (superseded : Option ReplyId) (r : ReplyId) (m m' : Message P) :
      Alike k (.sent k superseded r m) (.sent k superseded r m')
  | secretSet (secret secret' : Bytes) : Alike k (.secretSet k secret) (.secretSet k secret')

/-- The same event, but for what `k` is told to send or to sign with. -/
inductive Event.Alike (k : ι) : Event P ι → Event P ι → Prop
  | same (e : Event P ι) : Alike k e e
  | post {endpoint endpoint' : String} {content content' : Content P}
      (kind : content'.kind = content.kind) :
      Alike k (.call (.post k endpoint content)) (.call (.post k endpoint' content'))
  | setSecret {secret secret' : Bytes} (length : secret'.length = secret.length) :
      Alike k (.call (.setSecret k secret)) (.call (.setSecret k secret'))

namespace World

variable {w w' v v' : World P ι} {h k : ι} {q r : ReplyId}

structure Alike (k : ι) (w w' : World P ι) : Prop where
  server : w'.server = w.server
  network : w'.network = w.network
  ticks : w'.ticks = w.ticks
  control : w'.control = w.control
  handler : ∀ j, (w.handler j).Alike k j (w'.handler j)
  trace : List.Forall₂ (Observation.Alike k) w.trace w'.trace

theorem Alike.refl (k : ι) (w : World P ι) : w.Alike k w where
  server := rfl
  network := rfl
  ticks := rfl
  control := rfl
  handler _ := ⟨rfl, rfl, rfl, fun _ => rfl⟩
  trace := List.forall₂_same.mpr fun o _ => .same o

theorem Alike.note {o o' : Observation P ι} (alike : w.Alike k w') (shown : o.Alike k o') :
    (w.note o).Alike k (w'.note o') :=
  { alike with trace := .cons shown alike.trace }

theorem Alike.discardPending (alike : w.Alike k w') (h : ι) :
    w'.discardPending h = w.discardPending h := by
  rw [World.discardPending, World.discardPending, (alike.handler h).pending, alike.network]

theorem Alike.append (alike : w.Alike k w') (h : ι) : (w.append h).Alike k (w'.append h) where
  server := by rw [server_append, server_append, alike.server]
  network := alike.network
  ticks := alike.ticks
  control := alike.control
  handler := alike.handler
  trace := .cons (.same _) alike.trace

theorem Alike.ask (alike : w.Alike k w') (n : Nat) : (w.ask n).Alike k (w'.ask n) where
  server := by rw [server_ask, server_ask, alike.server, alike.network]
  network := by rw [network_ask, network_ask, alike.network]
  ticks := congrArg (· + 1) alike.ticks
  control := alike.control
  handler := alike.handler
  trace := by
    have request : w'.toCore.timeDeltaRequest = w.toCore.timeDeltaRequest := by
      rw [Core.timeDeltaRequest, Core.timeDeltaRequest, alike.server, alike.ticks]
    rw [trace_ask, trace_ask, request, alike.network]
    exact .cons (.same _) alike.trace

theorem Alike.enlist (alike : w.Alike k w') (h : ι) : (w.enlist h).Alike k (w'.enlist h) := by
  cases pending : w.server.pendingReply with
  | some t =>
      rw [enlist_of_pending pending, enlist_of_pending (q := t) (by rw [alike.server, pending])]
      exact alike.append h
  | none =>
      rw [enlist_of_idle pending, enlist_of_idle (by rw [alike.server, pending])]
      exact (alike.ask numberRetries).append h

theorem Alike.enterSlot (alike : w.Alike k w') (h : ι) (r : ReplyId) :
    (w.enterSlot h r).Alike k (w'.enterSlot h r) where
  server := alike.server
  network := by rw [network_enterSlot, network_enterSlot, alike.network]
  ticks := alike.ticks
  control := alike.control
  handler := alike.handler
  trace := by
    rw [trace_enterSlot, trace_enterSlot, (alike.handler h).pending]
    exact .cons (.same _) alike.trace

theorem Alike.enterServer (alike : w.Alike k w') (r : ReplyId) :
    (w.enterServer r).Alike k (w'.enterServer r) where
  server := alike.server
  network := by rw [network_enterServer, network_enterServer, alike.network]
  ticks := alike.ticks
  control := alike.control
  handler := alike.handler
  trace := by
    rw [trace_enterServer, trace_enterServer, alike.server]
    exact .cons (.same _) alike.trace

theorem Alike.discard (alike : w.Alike k w') (r : ReplyId) :
    (w.discard r).Alike k (w'.discard r) :=
  { alike with network := by rw [network_discard, network_discard, alike.network] }

theorem Alike.accept (alike : w.Alike k w') (r : ReplyId) (delta : Int64) :
    (w.accept r delta).Alike k (w'.accept r delta) where
  server := by rw [server_accept, server_accept, alike.server]
  network := by rw [network_accept, network_accept, alike.network]
  ticks := alike.ticks
  control := alike.control
  handler := alike.handler
  trace := .cons (.same _) alike.trace

theorem Alike.startLoop (alike : w.Alike k w') (updated : Bool) :
    (w.startLoop updated).Alike k (w'.startLoop updated) where
  server := by rw [server_startLoop, server_startLoop, alike.server]
  network := alike.network
  ticks := alike.ticks
  control := by
    unfold World.startLoop
    rw [alike.server]
  handler := alike.handler
  trace := .cons (.same _) alike.trace

theorem Alike.respond (alike : w.Alike k w') (h : ι) (q : ReplyId) (o : Outcome P) :
    (w.respond h q o).Alike k (w'.respond h q o) :=
  { alike with control := rfl, trace := .cons (.same _) alike.trace }

theorem Alike.release (alike : w.Alike k w') (updated : Bool) :
    Alike k { w.withCore (w.toCore.release updated) with control := .signal }
      { w'.withCore (w'.toCore.release updated) with control := .signal } where
  server := by
    change Server.mk _ _ _ _ _ _ _ _ _ = Server.mk _ _ _ _ _ _ _ _ _
    rw [alike.server]
  network := alike.network
  ticks := alike.ticks
  control := rfl
  handler := alike.handler
  trace := .cons (.same _) alike.trace

/-! ## Effects on one handler -/

variable [DecidableEq ι]

/-- Both worlds overwrite the handler `h`. -/
theorem Handler.Alike.update {f f' : ι → Handler P} {x x' : Handler P}
    (all : ∀ j, (f j).Alike k j (f' j)) (here : x.Alike k h x') (j : ι) :
    (Function.update f h x j).Alike k j (Function.update f' h x' j) := by
  rcases eq_or_ne j h with rfl | other
  · rw [Function.update_self, Function.update_self]
    exact here
  · rw [Function.update_of_ne other, Function.update_of_ne other]
    exact all j

theorem Alike.beginPost {endpoint endpoint' : String} {content content' : Content P}
    (alike : w.Alike k w') (h : ι) (own : h = k ∨ endpoint' = endpoint ∧ content' = content) :
    (w.beginPost h endpoint content).Alike k (w'.beginPost h endpoint' content') where
  server := alike.server
  network := alike.network
  ticks := alike.ticks
  control := alike.control
  handler := by
    have here := alike.handler h
    refine Handler.Alike.update alike.handler ⟨here.kind, rfl, here.pending, fun other => ?_⟩
    obtain ⟨rfl, rfl⟩ := own.resolve_left other
    rw [here.other other, alike.server]
  trace := by
    rw [trace_beginPost, trace_beginPost, alike.server]
    rcases own with rfl | ⟨rfl, rfl⟩
    · exact .cons (.posted _ _ _ _ _) alike.trace
    · exact .cons (.same _) alike.trace

omit [DecidableEq ι] in
theorem Alike.message (alike : w.Alike k w') (other : h ≠ k) : w'.message h = w.message h := by
  rw [World.message, World.message, (alike.handler h).other other, alike.server, alike.ticks]

theorem Alike.timestampUpdated (alike : w.Alike k w') (h : ι) :
    (w.timestampUpdated h).Alike k (w'.timestampUpdated h) where
  server := by rw [server_timestampUpdated, server_timestampUpdated, alike.server]
  network := by rw [network_timestampUpdated, network_timestampUpdated, alike.discardPending]
  ticks := by
    rw [timestampUpdated_eq, timestampUpdated_eq]
    exact congrArg (· + 1) alike.ticks
  control := by rw [control_timestampUpdated, control_timestampUpdated, alike.control]
  handler := by
    have here := alike.handler h
    rw [timestampUpdated_eq, timestampUpdated_eq, alike.discardPending]
    refine Handler.Alike.update alike.handler ⟨here.kind, here.retries, rfl, fun other => ?_⟩
    have secret : w'.hashedSecret h = w.hashedSecret h := by
      rw [hashedSecret, hashedSecret, here.other other, alike.server, alike.ticks]
    rw [here.other other, secret]
  trace := by
    rw [trace_timestampUpdated, trace_timestampUpdated, (alike.handler h).pending, alike.network]
    rcases eq_or_ne h k with rfl | other
    · exact .cons (.sent _ _ _ _) alike.trace
    · rw [alike.message other]
      exact .cons (.same _) alike.trace

theorem Alike.timestampUpdateFailed (alike : w.Alike k w') (h : ι) :
    (w.timestampUpdateFailed h).Alike k (w'.timestampUpdateFailed h) where
  server := alike.server
  network := by
    rw [network_timestampUpdateFailed, network_timestampUpdateFailed, alike.discardPending]
  ticks := alike.ticks
  control := alike.control
  handler := by
    have here := alike.handler h
    refine Handler.Alike.update alike.handler ⟨here.kind, here.retries, rfl, fun other => ?_⟩
    change Handler.mk _ _ _ _ _ _ = Handler.mk _ _ _ _ _ _
    rw [here.other other]
  trace := .cons (.same _) alike.trace

theorem Alike.takePending (alike : w.Alike k w') (h : ι) (q : ReplyId) :
    (w.takePending h q).Alike k (w'.takePending h q) where
  server := alike.server
  network := by rw [network_takePending, network_takePending, alike.network]
  ticks := alike.ticks
  control := alike.control
  handler := by
    have here := alike.handler h
    refine Handler.Alike.update alike.handler ⟨here.kind, here.retries, rfl, fun other => ?_⟩
    change Handler.mk _ _ _ _ _ _ = Handler.mk _ _ _ _ _ _
    rw [here.other other]
  trace := alike.trace

theorem Alike.spendRetry (alike : w.Alike k w') (h : ι) (q : ReplyId) :
    (w.spendRetry h q).Alike k (w'.spendRetry h q) where
  server := alike.server
  network := alike.network
  ticks := alike.ticks
  control := alike.control
  handler := by
    have here := alike.handler h
    refine Handler.Alike.update alike.handler
      ⟨here.kind, congrArg (· - 1) here.retries, here.pending, fun other => ?_⟩
    rw [here.other other]
  trace := .cons (.same _) alike.trace

theorem Alike.setSecret {secret secret' : Bytes} (alike : w.Alike k w') (h : ι)
    (own : h = k ∨ secret' = secret) :
    (w.setSecret h secret).Alike k (w'.setSecret h secret') where
  server := alike.server
  network := alike.network
  ticks := alike.ticks
  control := alike.control
  handler := by
    have here := alike.handler h
    refine Handler.Alike.update alike.handler
      ⟨here.kind, here.retries, here.pending, fun other => ?_⟩
    rw [here.other other, own.resolve_left other]
  trace := by
    rw [trace_setSecret, trace_setSecret]
    rcases own with rfl | rfl
    · exact .cons (.secretSet _ _) alike.trace
    · exact .cons (.same _) alike.trace

omit [DecidableEq ι] in
theorem Alike.setDefaultSecret (alike : w.Alike k w') (secret : Bytes) :
    (w.setDefaultSecret secret).Alike k (w'.setDefaultSecret secret) where
  server := by
    change Server.mk _ _ _ _ _ _ _ _ _ = Server.mk _ _ _ _ _ _ _ _ _
    rw [alike.server]
  network := alike.network
  ticks := alike.ticks
  control := alike.control
  handler := alike.handler
  trace := .cons (.same _) alike.trace

/-! ## Calls -/

/-- A post from a callback that holds the mutex blocks, one that finds an update running waits, any
other is sent. -/
theorem step_post {endpoint : String} {content : Content P} (inv : w.Inv)
    (user : w.control.user = true) (kind : (w.handler h).kind = content.kind) :
    w.step (.call (.post h endpoint content)) = some (
      if w.control.locked then (w.beginPost h endpoint content).block
      else if w.server.pendingReply = none then
        (w.beginPost h endpoint content).timestampUpdated h
      else (w.beginPost h endpoint content).append h) := by
  have mutex : (w.beginPost h endpoint content).server.requestMutex = w.control.locked := by
    rw [server_beginPost, inv.mutex]
  rw [step, if_pos user, call, post_eq, if_pos kind, postWith_eq]
  cases locked : w.control.locked with
  | true =>
      rw [Core.checkTimestamp_of_held (mutex.trans locked)]
      rfl
  | false =>
      cases pending : w.server.pendingReply with
      | none =>
          rw [Core.checkTimestamp_of_idle (mutex.trans locked) pending]
          rfl
      | some r =>
          rw [Core.checkTimestamp_of_pending (mutex.trans locked) pending]
          rfl

/-- A post is made in both worlds or in neither, and does the same in both. -/
theorem Alike.post {endpoint endpoint' : String} {content content' : Content P}
    (alike : w.Alike k w') (inv : w.Inv) (inv' : w'.Inv)
    (own : h = k ∨ endpoint' = endpoint ∧ content' = content)
    (same : content'.kind = content.kind)
    (stepped : w.step (.call (.post h endpoint content)) = some v) :
    ∃ v', w'.step (.call (.post h endpoint' content')) = some v' ∧ v.Alike k v' := by
  have began := alike.beginPost h own
  have enabled : w.control.user = true ∧ (w.handler h).kind = content.kind := by
    cases step_action inv stepped with
    | postNow user free idle kind | postDeferred user free idle kind => exact ⟨user, kind⟩
    | postBlocked inLoop kind => exact ⟨by rw [inLoop]; rfl, kind⟩
    | configure plain noPost => exact absurd rfl (noPost _ _ _)
  obtain ⟨user, kind⟩ := enabled
  have user' : w'.control.user = true := by rw [alike.control, user]
  have kind' : (w'.handler h).kind = content'.kind := by
    rw [(alike.handler h).kind, kind, same]
  rw [step_post inv user kind] at stepped
  refine ⟨_, step_post inv' user' kind', ?_⟩
  cases stepped
  rw [alike.control, alike.server]
  split
  · exact { began with control := rfl }
  · split
    · exact began.timestampUpdated h
    · exact began.append h

theorem Alike.secret {secret secret' : Bytes} (alike : w.Alike k w')
    (own : h = k ∨ secret' = secret) (length : secret'.length = secret.length)
    (stepped : w.step (.call (.setSecret h secret)) = some v) :
    ∃ v', w'.step (.call (.setSecret h secret')) = some v' ∧ v.Alike k v' := by
  obtain ⟨user, called⟩ := Option.ite_none_right_eq_some.mp stepped
  obtain ⟨long, changed⟩ := Option.ite_none_right_eq_some.mp called
  cases changed
  refine ⟨w'.setSecret h secret', ?_, alike.setSecret h own⟩
  rw [step, alike.control, if_pos user, call, if_pos (length.trans long)]

/-- A call that is not about a handler does the same in both worlds. -/
theorem Alike.configure {c : Call P ι} (alike : w.Alike k w')
    (noPost : ∀ h endpoint content, c ≠ .post h endpoint content)
    (noSecret : ∀ h secret, c ≠ .setSecret h secret) (stepped : w.step (.call c) = some v) :
    ∃ v', w'.step (.call c) = some v' ∧ v.Alike k v' := by
  obtain ⟨user, called⟩ := Option.ite_none_right_eq_some.mp stepped
  rw [step, alike.control, if_pos user]
  cases c with
  | post h endpoint content => exact absurd rfl (noPost h endpoint content)
  | setSecret h secret => exact absurd rfl (noSecret h secret)
  | setDefaultSecret secret =>
      obtain ⟨long, changed⟩ := Option.ite_none_right_eq_some.mp called
      cases changed
      exact ⟨_, if_pos long, alike.setDefaultSecret secret⟩
  | setSchemeAndHost | setUserAgent | setTimeDeltaSlug | setTimeDelta =>
      cases called
      refine ⟨_, rfl, { alike with server := ?_ }⟩
      dsimp only
      rw [alike.server]

/-! ## Completions -/

omit [DecidableEq ι] in
theorem Alike.finishing {slot : Receiver ι} (alike : w.Alike k w')
    (finishing : w.Finishing r slot) : w'.Finishing r slot where
  loop := alike.control.trans finishing.loop
  live := by rw [alike.network]; exact finishing.live
  arrived := by rw [alike.network]; exact finishing.arrived
  receiver := by rw [alike.network]; exact finishing.receiver

omit [DecidableEq ι] in
theorem Alike.rejected_iff (alike : w.Alike k w') : w'.Rejected h q ↔ w.Rejected h q := by
  rw [Rejected, Rejected, alike.network, (alike.handler h).retries]

/-- The world after the `finished` signal of `r` has reached its slot. -/
def finished (w : World P ι) (r : ReplyId) : Receiver ι → World P ι
  | .handler h =>
      match (w.handler h).pendingReply with
      | none => w.enterSlot h r
      | some q =>
          if w.Rejected h q then (((w.enterSlot h r).takePending h q).spendRetry h q).enlist h
          else ((w.enterSlot h r).takePending h q).respond h q
            ((w.handler h).kind.report P (w.network.result q))
  | .server =>
      match replyDelta P (w.network.result r) with
      | some delta => ((w.enterServer r).accept r delta).startLoop true
      | none =>
          if 0 < w.server.retriesRemaining then
            ((w.enterServer r).discard r).ask (w.server.retriesRemaining - 1)
          else ((w.enterServer r).discard r).startLoop false

theorem step_finish {slot : Receiver ι} (inv : w.Inv) (finishing : w.Finishing r slot) :
    w.step (.finish r) = some (w.finished r slot) := by
  have delivered : w.step (.finish r) ≠ none := by
    rw [step, if_pos finishing.enabled, deliver, finishing.receiver]
    cases slot <;> exact Option.some_ne_none _
  obtain ⟨v, stepped⟩ := Option.ne_none_iff_exists'.mp delivered
  rw [stepped]
  have receiver := finishing.receiver
  cases step_action inv stepped with
  | slotNull finishing null =>
      cases receiver.symm.trans finishing.receiver
      rw [finished, null]
  | slotOutcome finishing pending final =>
      cases receiver.symm.trans finishing.receiver
      cases stepped.symm.trans (step_slotOutcome finishing pending final)
      rw [finished, pending]
      dsimp only
      rw [if_neg final]
  | slotRetry finishing pending rejected =>
      cases receiver.symm.trans finishing.receiver
      rw [finished, pending]
      dsimp only
      rw [if_pos rejected]
  | serverRetry finishing refused left =>
      cases receiver.symm.trans finishing.receiver
      rw [finished, refused]
      dsimp only
      rw [if_pos left]
  | serverFailed finishing refused left =>
      cases receiver.symm.trans finishing.receiver
      rw [finished, refused]
      dsimp only
      rw [if_neg (by omega)]
  | serverUpdated finishing accepted =>
      cases receiver.symm.trans finishing.receiver
      rw [finished, accepted]

theorem Alike.finished (alike : w.Alike k w') (r : ReplyId) (slot : Receiver ι) :
    (w.finished r slot).Alike k (w'.finished r slot) := by
  cases slot with
  | server =>
      have entered := alike.enterServer r
      rw [World.finished, World.finished, alike.network, alike.server]
      split
      · exact (entered.accept r _).startLoop true
      · split
        · exact (entered.discard r).ask _
        · exact (entered.discard r).startLoop false
  | handler h =>
      have here := alike.handler h
      have entered := alike.enterSlot h r
      rw [World.finished, World.finished, here.pending, here.kind, alike.network]
      split
      · exact entered
      · rename_i q pending
        have taken := entered.takePending h q
        by_cases rejected : w.Rejected h q
        · rw [if_pos rejected, if_pos (alike.rejected_iff.mpr rejected)]
          exact (taken.spendRetry h q).enlist h
        · rw [if_neg rejected, if_neg fun rejected' => rejected (alike.rejected_iff.mp rejected')]
          exact taken.respond h q _

/-! ## Two runs -/

/-- **Worlds that differ in what one handler keeps to itself take the same step.** -/
theorem Alike.step {e e' : Event P ι} (alike : w.Alike k w') (inv : w.Inv) (inv' : w'.Inv)
    (same : e.Alike k e') (stepped : w.step e = some v) :
    ∃ v', w'.step e' = some v' ∧ v.Alike k v' := by
  cases same with
  | post kind => exact alike.post inv inv' (.inl rfl) kind stepped
  | setSecret length => exact alike.secret (.inl rfl) length stepped
  | same =>
      cases e with
      | call c =>
          cases c with
          | post h endpoint content => exact alike.post inv inv' (.inr ⟨rfl, rfl⟩) rfl stepped
          | setSecret h secret => exact alike.secret (.inr rfl) rfl stepped
          | setDefaultSecret | setSchemeAndHost | setUserAgent | setTimeDeltaSlug
          | setTimeDelta =>
              exact alike.configure (fun _ _ _ => nofun) (fun _ _ => nofun) stepped
      | ret =>
          cases step_action inv stepped with
          | returned callback =>
              refine ⟨{ w' with control := .loop }, ?_, { alike with control := rfl }⟩
              rcases callback with ⟨h, control⟩ | control
              · rw [World.step, return_, alike.control, control]
              · rw [World.step, return_, alike.control, control]
          | @resumed h rest control =>
              refine ⟨{ w' with control := .failing rest }, ?_, { alike with control := rfl }⟩
              rw [World.step, return_, alike.control, control]
      | next =>
          cases step_action inv stepped with
          | @notifyUpdated h rest inLoop =>
              have called := (alike.note (.same (.notified h true))).timestampUpdated h
              refine ⟨{ (w'.note (.notified h true)).timestampUpdated h with
                control := .updating rest }, ?_, { called with control := rfl }⟩
              rw [World.step, iterate, alike.control, inLoop]
          | @notifyFailed h rest inLoop =>
              have called := (alike.note (.same (.notified h false))).timestampUpdateFailed h
              refine ⟨{ (w'.note (.notified h false)).timestampUpdateFailed h with
                control := .failed h rest }, ?_, { called with control := rfl }⟩
              rw [World.step, iterate, alike.control, inLoop]
          | endUpdated inLoop =>
              refine ⟨_, ?_, alike.release true⟩
              rw [World.step, iterate, alike.control, inLoop]
          | endFailed inLoop =>
              refine ⟨_, ?_, alike.release false⟩
              rw [World.step, iterate, alike.control, inLoop]
      | arrive r result =>
          obtain ⟨ready, arrived⟩ := Option.ite_none_right_eq_some.mp stepped
          cases arrived
          refine ⟨{ w' with network := w'.network.arrive r result }, ?_,
            { alike with network := by rw [alike.network] }⟩
          rw [World.step, alike.network, if_pos ready]
      | finish r =>
          have finishing : ∃ slot, w.Finishing r slot := by
            cases step_action inv stepped with
            | slotNull finishing | slotOutcome finishing | slotRetry finishing
            | serverRetry finishing | serverFailed finishing | serverUpdated finishing =>
                exact ⟨_, finishing⟩
          obtain ⟨slot, finishing⟩ := finishing
          cases stepped.symm.trans (step_finish inv finishing)
          exact ⟨_, step_finish inv' (alike.finishing finishing), alike.finished r slot⟩
      | destroyReply r =>
          obtain ⟨ready, destroyed⟩ := Option.ite_none_right_eq_some.mp stepped
          cases destroyed
          refine ⟨{ w' with network := w'.network.retire r }, ?_,
            { alike with network := by rw [alike.network] }⟩
          rw [World.step, alike.network, alike.control, if_pos ready]

/-- Two reachable worlds side by side. -/
structure Paired (k : ι) (w w' : World P ι) : Prop where
  left : w.Inv
  right : w'.Inv
  alike : w.Alike k w'

theorem Paired.step {e e' : Event P ι} (paired : Paired k w w') (same : e.Alike k e')
    (stepped : w.step e = some v) : ∃ v', w'.step e' = some v' ∧ Paired k v v' := by
  obtain ⟨v', stepped', there⟩ := paired.alike.step paired.left paired.right same stepped
  exact ⟨v', stepped', paired.left.step stepped, paired.right.step stepped', there⟩

/-- **Handlers are isolated.** Take two runs of the program that differ in nothing but the private
data of one handler: its secret, and what its posts send and where.  Whatever that handler is told
in the one run can be told in the other, and after either the worlds agree on everything else: the
server, the network, where control is, all other handlers, and all they have sent and reported. -/
theorem isolation {es es' : List (Event P ι)} (init : w.Initial) (init' : w'.Initial)
    (alike : w.Alike k w') (events : List.Forall₂ (Event.Alike k) es es')
    (run : FreeRun World.step w es v) :
    ∃ v', FreeRun World.step w' es' v' ∧ v.Alike k v' := by
  obtain ⟨v', run', paired⟩ :=
    run.lockstep Paired.step ⟨init.inv, init'.inv, alike⟩ events
  exact ⟨v', run', paired.alike⟩

/-- Two secrets and two payloads of the binary handler, its rejection, and a post of the other
handler that waits for the time with it. -/
theorem isolation_of_secret :
    ∃ v v' : World Platform.sample Bool,
      FreeRun World.step Sample.world
        ([Sample.secret, .call (.setSecret false (List.replicate secretLength 7)),
          Sample.postByte 1] ++ Sample.completes 0 Sample.rejected ++ [Sample.postObject 3]) v ∧
      FreeRun World.step Sample.world
        ([Sample.secret, .call (.setSecret false (List.replicate secretLength 9)),
          Sample.postByte 2] ++ Sample.completes 0 Sample.rejected ++ [Sample.postObject 3]) v' ∧
      v.Alike false v' := by
  have first : ∃ v, FreeRun World.step Sample.world
      ([Sample.secret, .call (.setSecret false (List.replicate secretLength 7)),
        Sample.postByte 1] ++ Sample.completes 0 Sample.rejected ++ [Sample.postObject 3]) v :=
    ⟨_, run_of_isSome (by decide)⟩
  obtain ⟨v, run⟩ := first
  have events : List.Forall₂ (Event.Alike false)
      ([Sample.secret, .call (.setSecret false (List.replicate secretLength 7)),
        Sample.postByte 1] ++ Sample.completes 0 Sample.rejected ++ [Sample.postObject 3])
      ([Sample.secret, .call (.setSecret false (List.replicate secretLength 9)),
        Sample.postByte 2] ++ Sample.completes 0 Sample.rejected ++ [Sample.postObject 3]) :=
    .cons (.same _)
      (.cons (.setSecret rfl) (.cons (.post rfl) (List.forall₂_same.mpr fun e _ => .same e)))
  obtain ⟨v', run', alike⟩ := isolation Sample.world_initial Sample.world_initial
    (.refl false Sample.world) events run
  exact ⟨v, v', run, run', alike⟩

end World

end RestApiOut
