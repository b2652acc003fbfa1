import RestApiOut.EventLoop

/-!
# Effects of a step

The two kinds of handler differ only in data (`Kind.frame`, `Kind.process`, `Content.url`, ...), so
each virtual call is one function of the kind.  What a step does is written with a handful of
effects on the world (`beginPost`, `timestampUpdated`, `append`, `enlist`, `takePending`, ...), and
the simp lemmas below give the fields after each of them.
-/

namespace RestApiOut

open History

variable {P : Platform} {ι : Type}

/-! ## The two kinds of handler -/

def Content.kind : Content P → Kind
  | .json _ => .json
  | .binary _ => .binary

/-- The URL `post` builds for this content. -/
def Content.url (schemeAndHost : P.Url) (endpoint : String) : Content P → P.Url
  | .json _ => InesonicRestHandler.url schemeAndHost endpoint
  | .binary _ => InesonicBinaryRestHandler.url schemeAndHost endpoint

/-- The payload `post` keeps for this content. -/
def Content.payload : Content P → Bytes
  | .json jsonData => P.toJson jsonData
  | .binary binaryPayload => binaryPayload

def Kind.frame (P : Platform) : Kind → Bytes → Bytes → Bytes
  | .json => InesonicRestHandler.frame P
  | .binary => InesonicBinaryRestHandler.frame

def Kind.contentType : Kind → String
  | .json => "application/json"
  | .binary => "application/octet-stream"

def Kind.process (P : Platform) : Kind → ReplyResult → Outcome P
  | .json => InesonicRestHandler.process P
  | .binary => InesonicBinaryRestHandler.process P

/-- `requestMutex` is held: the thread is in the locked part of `Server::responseReceived`. -/
def Control.locked : Control ι → Bool
  | .updating _ | .failing _ | .failed _ _ | .deadlock => true
  | .loop | .response _ | .signal => false

namespace World

/-! ## Effects -/

def append (w : World P ι) (h : ι) : World P ι := w.withCore (w.toCore.append h)

def enlist (w : World P ι) (h : ι) : World P ι := w.withCore (w.toCore.enlist h)

/-- `issueTimeDeltaRequest`, with `retriesRemaining` set first. -/
def ask (w : World P ι) (retriesRemaining : Nat) : World P ι :=
  w.withCore (Core.issueTimeDeltaRequest
    { w.toCore with server.retriesRemaining := retriesRemaining })

def discard (w : World P ι) (r : ReplyId) : World P ι := w.withCore (w.toCore.discard r)

def accept (w : World P ι) (r : ReplyId) (delta : Int64) : World P ι :=
  w.withCore (w.toCore.accept r delta)

/-- The slot of `h` is entered for `r`. -/
def enterSlot (w : World P ι) (h : ι) (r : ReplyId) : World P ι :=
  { w with network := w.network.retire r }.note (.slot h r (w.handler h).pendingReply)

/-- The slot of the server is entered for `r`. -/
def enterServer (w : World P ι) (r : ReplyId) : World P ι :=
  { w with network := w.network.retire r }.note (.answered r w.server.pendingReply)

/-- The mutex is taken and the loop over the waiting handlers entered. -/
def startLoop (w : World P ι) (updated : Bool) : World P ι :=
  let server := { w.server with requestMutex := true }
  let rest := w.server.waitingRestApis
  { w with
    server := server
    trace := .notifying updated :: w.trace
    control := if updated then .updating rest else .failing rest }

section PlainFields

variable (w : World P ι) (h : ι) (q r : ReplyId)

@[simp] theorem server_append : (w.append h).server =
    { w.server with waitingRestApis := w.server.waitingRestApis ++ [h] } := rfl

@[simp] theorem network_append : (w.append h).network = w.network := rfl

@[simp] theorem trace_append : (w.append h).trace = .registered h :: w.trace := rfl

@[simp] theorem control_append : (w.append h).control = w.control := rfl

@[simp] theorem handler_append : (w.append h).handler = w.handler := rfl

@[simp] theorem server_ask (n : Nat) : (w.ask n).server =
    { w.server with retriesRemaining := n, pendingReply := some w.network.next } := rfl

@[simp] theorem network_ask (n : Nat) : (w.ask n).network = w.network.post .server := rfl

@[simp] theorem trace_ask (n : Nat) :
    (w.ask n).trace = .asked w.network.next w.toCore.timeDeltaRequest :: w.trace := rfl

@[simp] theorem control_ask (n : Nat) : (w.ask n).control = w.control := rfl

@[simp] theorem handler_ask (n : Nat) : (w.ask n).handler = w.handler := rfl

@[simp] theorem server_discard : (w.discard r).server = w.server := rfl

@[simp] theorem network_discard : (w.discard r).network = w.network.deleteLater r := rfl

@[simp] theorem trace_discard : (w.discard r).trace = w.trace := rfl

@[simp] theorem control_discard : (w.discard r).control = w.control := rfl

@[simp] theorem handler_discard : (w.discard r).handler = w.handler := rfl

@[simp] theorem server_accept (d : Int64) :
    (w.accept r d).server = { w.server with currentTimeDelta := d } := rfl

@[simp] theorem network_accept (d : Int64) :
    (w.accept r d).network = w.network.deleteLater r := rfl

@[simp] theorem trace_accept (d : Int64) :
    (w.accept r d).trace = .accepted d :: w.trace := rfl

@[simp] theorem control_accept (d : Int64) : (w.accept r d).control = w.control := rfl

@[simp] theorem handler_accept (d : Int64) : (w.accept r d).handler = w.handler := rfl

@[simp] theorem server_enterSlot : (w.enterSlot h r).server = w.server := rfl

@[simp] theorem network_enterSlot : (w.enterSlot h r).network = w.network.retire r := rfl

@[simp] theorem trace_enterSlot :
    (w.enterSlot h r).trace = .slot h r (w.handler h).pendingReply :: w.trace := rfl

@[simp] theorem control_enterSlot : (w.enterSlot h r).control = w.control := rfl

@[simp] theorem handler_enterSlot : (w.enterSlot h r).handler = w.handler := rfl

@[simp] theorem server_enterServer : (w.enterServer r).server = w.server := rfl

@[simp] theorem network_enterServer : (w.enterServer r).network = w.network.retire r := rfl

@[simp] theorem trace_enterServer :
    (w.enterServer r).trace = .answered r w.server.pendingReply :: w.trace := rfl

@[simp] theorem control_enterServer : (w.enterServer r).control = w.control := rfl

@[simp] theorem handler_enterServer : (w.enterServer r).handler = w.handler := rfl

@[simp] theorem server_respond (o : Outcome P) : (w.respond h q o).server = w.server := rfl

@[simp] theorem network_respond (o : Outcome P) : (w.respond h q o).network = w.network := rfl

@[simp] theorem trace_respond (o : Outcome P) :
    (w.respond h q o).trace = .outcome h (some q) o :: w.trace := rfl

@[simp] theorem control_respond (o : Outcome P) :
    (w.respond h q o).control = .response h := rfl

@[simp] theorem handler_respond (o : Outcome P) : (w.respond h q o).handler = w.handler := rfl

@[simp] theorem server_startLoop (u : Bool) :
    (w.startLoop u).server = { w.server with requestMutex := true } := rfl

@[simp] theorem network_startLoop (u : Bool) : (w.startLoop u).network = w.network := rfl

@[simp] theorem trace_startLoop (u : Bool) :
    (w.startLoop u).trace = .notifying u :: w.trace := rfl

@[simp] theorem locked_startLoop (u : Bool) : (w.startLoop u).control.locked = true := by
  cases u <;> rfl

@[simp] theorem handler_startLoop (u : Bool) : (w.startLoop u).handler = w.handler := rfl

theorem enlist_of_pending {w : World P ι} {q : ReplyId} (pending : w.server.pendingReply = some q)
    (h : ι) : w.enlist h = w.append h := by
  unfold enlist Core.enlist
  rw [if_neg (Option.ne_none_iff_exists'.mpr ⟨_, pending⟩)]
  rfl

theorem enlist_of_idle {w : World P ι} (idle : w.server.pendingReply = none) (h : ι) :
    w.enlist h = (w.ask numberRetries).append h := by
  unfold enlist Core.enlist
  rw [if_pos idle]
  rfl

/-- What neither waiting for the time nor asking for it changes, enlisting does not change. -/
theorem enlist_congr {β : Type} (f : World P ι → β) {w : World P ι} {h : ι}
    (appended : ∀ w : World P ι, f (w.append h) = f w)
    (asked : ∀ (w : World P ι) (n : Nat), f (w.ask n) = f w) : f (w.enlist h) = f w := by
  cases pending : w.server.pendingReply with
  | some q => rw [enlist_of_pending pending, appended]
  | none => rw [enlist_of_idle pending, appended, asked]

@[simp] theorem control_enlist : (w.enlist h).control = w.control :=
  enlist_congr World.control (fun _ => rfl) fun _ _ => rfl

@[simp] theorem handler_enlist : (w.enlist h).handler = w.handler :=
  enlist_congr World.handler (fun _ => rfl) fun _ _ => rfl

@[simp] theorem waiting_enlist :
    (w.enlist h).server.waitingRestApis = w.server.waitingRestApis ++ [h] := by
  cases pending : w.server.pendingReply with
  | some q => rw [enlist_of_pending pending, server_append]
  | none => rw [enlist_of_idle pending, server_append, server_ask]

/-- Enlisting shows a registration and perhaps a request for the time, nothing else. -/
theorem trace_enlist (w : World P ι) (h : ι) :
    ∃ shown : Trace P ι, (w.enlist h).trace = shown ++ w.trace ∧
      ∀ o ∈ shown, o = .registered h ∨ ∃ r request, o = .asked r request := by
  cases pending : w.server.pendingReply with
  | some q =>
      refine ⟨[.registered h], ?_, fun o member => .inl (List.mem_singleton.mp member)⟩
      rw [enlist_of_pending pending]
      rfl
  | none =>
      refine ⟨[.registered h, .asked w.network.next w.toCore.timeDeltaRequest], ?_, ?_⟩
      · rw [enlist_of_idle pending]
        rfl
      · intro o member
        rcases List.mem_pair.mp member with rfl | rfl
        · exact .inl rfl
        · exact .inr ⟨_, _, rfl⟩

/-- Asking for the time and waiting for it does not change what ignores both observations. -/
theorem trace_enlist_congr {β : Type} (f : Trace P ι → β) {w : World P ι} {h : ι}
    (registered : ∀ past, f (.registered h :: past) = f past)
    (asked : ∀ r request past, f (.asked r request :: past) = f past) :
    f (w.enlist h).trace = f w.trace :=
  enlist_congr (fun w => f w.trace) (fun _ => registered _) fun _ _ => asked _ _ _

theorem always_enlist {law : Observation P ι → Trace P ι → Prop} {w : World P ι} {h : ι}
    (registered : ∀ past, law (.registered h) past)
    (asked : ∀ r request past, law (.asked r request) past) :
    Always law (w.enlist h).trace ↔ Always law w.trace :=
  iff_of_eq (trace_enlist_congr (Always law) (fun past => propext (and_iff_right (registered past)))
    fun r request past => propext (and_iff_right (asked r request past)))

@[simp] theorem trace_block : w.block.trace = w.trace := rfl

@[simp] theorem trace_note (o : Observation P ι) : (w.note o).trace = o :: w.trace := rfl

@[simp] theorem trace_release (u : Bool) :
    (w.withCore (w.toCore.release u)).trace = .released u :: w.trace := rfl

@[simp] theorem trace_setDefaultSecret [DecidableEq ι] (secret : Bytes) :
    (w.setDefaultSecret secret).trace = .defaultSecretSet secret :: w.trace := rfl

@[simp] theorem trace_setSecret [DecidableEq ι] (secret : Bytes) :
    (w.setSecret h secret).trace = .secretSet h secret :: w.trace := rfl

end PlainFields

variable [DecidableEq ι]

/-- `post` has overwritten the handler's fields. -/
def beginPost (w : World P ι) (h : ι) (endpoint : String) (content : Content P) : World P ι :=
  (w.note (.posted h w.server.currentSchemeAndHost endpoint content)).setHandler h
    { w.handler h with
      retriesRemaining := 1
      currentUrl := content.url w.server.currentSchemeAndHost endpoint
      currentPayload := content.payload }

/-- `deleteLater` on the reply read, and `pendingReply = nullptr`. -/
def takePending (w : World P ι) (h : ι) (q : ReplyId) : World P ι :=
  { w with network := w.network.deleteLater q }.setHandler h
    { w.handler h with pendingReply := none }

def spendRetry (w : World P ι) (h : ι) (q : ReplyId) : World P ι :=
  (w.setHandler h { w.handler h with
    retriesRemaining := (w.handler h).retriesRemaining - 1 }).note (.retry h q)

/-- The message `timestampUpdated` builds from the fields as they are. -/
def message (w : World P ι) (h : ι) : Message P :=
  let x := w.handler h
  let hash := (calculateHash P x.currentSecret w.server.currentDefaultSecret (P.clock w.ticks)
    w.server.currentTimeDelta x.currentPayload).1
  let body := x.kind.frame P x.currentPayload hash
  { payload := x.currentPayload
    hash := hash
    request :=
      { url := x.currentUrl
        userAgent := w.server.currentUserAgent
        contentType := x.kind.contentType
        contentLength := body.length
        accept := none
        body := body } }

/-- What hashing leaves in the secret of `h`. -/
def hashedSecret (w : World P ι) (h : ι) : Bytes :=
  (calculateHash P (w.handler h).currentSecret w.server.currentDefaultSecret (P.clock w.ticks)
    w.server.currentTimeDelta (w.handler h).currentPayload).2

theorem timestampUpdated_kind (w : World P ι) (h : ι) :
    w.timestampUpdated h =
      w.timestampUpdatedWith ((w.handler h).kind.frame P) (w.handler h).kind.contentType h := by
  unfold timestampUpdated
  cases (w.handler h).kind <;> rfl

theorem timestampUpdated_eq (w : World P ι) (h : ι) :
    w.timestampUpdated h =
      { w with
        network := (w.discardPending h).post (.handler h)
        ticks := w.ticks + 1
        trace := .sent h (w.handler h).pendingReply (w.discardPending h).next (w.message h) ::
          w.trace
        handler := Function.update w.handler h
          { w.handler h with
            currentSecret := w.hashedSecret h
            pendingReply := some (w.discardPending h).next } } := by
  rw [timestampUpdated_kind]
  rfl

theorem post_eq (w : World P ι) (h : ι) (endpoint : String) (content : Content P) :
    w.post h endpoint content =
      if (w.handler h).kind = content.kind then
        some ((w.note (.posted h w.server.currentSchemeAndHost endpoint content)).postWith h
          (content.url w.server.currentSchemeAndHost endpoint) content.payload)
      else none := by
  cases content <;> rfl

theorem handlerResponseReceived_eq (w : World P ι) (h : ι) :
    w.handlerResponseReceived h =
      w.responseReceivedWith ((w.handler h).kind.process P) h := by
  unfold handlerResponseReceived
  cases (w.handler h).kind <;> rfl

/-! ## Fields after an effect -/

section Update

variable {β : Type} {handler : ι → Handler P} {h k : ι} {x : Handler P}

theorem field_update (f : Handler P → β) :
    f (Function.update handler h x k) = if k = h then f x else f (handler k) := by
  rw [Function.update_apply, apply_ite f]

/-- A field that an assignment to one handler leaves alone. -/
theorem field_update_of_eq (f : Handler P → β) (kept : f x = f (handler h)) :
    f (Function.update handler h x k) = f (handler k) := by
  rw [field_update f, kept]
  exact ite_eq_right_iff.mpr fun same => same ▸ rfl

end Update

section Fields

variable (w : World P ι) (h k : ι) (q r : ReplyId)

@[simp] theorem server_timestampUpdated : (w.timestampUpdated h).server = w.server := by
  rw [timestampUpdated_eq]

@[simp] theorem network_timestampUpdated :
    (w.timestampUpdated h).network = (w.discardPending h).post (.handler h) := by
  rw [timestampUpdated_eq]

@[simp] theorem trace_timestampUpdated :
    (w.timestampUpdated h).trace =
      .sent h (w.handler h).pendingReply w.network.next (w.message h) :: w.trace := by
  rw [timestampUpdated_eq, next_discardPending]

@[simp] theorem control_timestampUpdated : (w.timestampUpdated h).control = w.control := by
  rw [timestampUpdated_eq]

@[simp] theorem pendingReply_timestampUpdated :
    ((w.timestampUpdated h).handler k).pendingReply =
      if k = h then some w.network.next else (w.handler k).pendingReply := by
  rw [timestampUpdated_eq, next_discardPending]
  exact field_update Handler.pendingReply

@[simp] theorem retriesRemaining_timestampUpdated :
    ((w.timestampUpdated h).handler k).retriesRemaining = (w.handler k).retriesRemaining := by
  rw [timestampUpdated_eq]
  exact field_update_of_eq Handler.retriesRemaining rfl

@[simp] theorem server_beginPost (endpoint : String) (content : Content P) :
    (w.beginPost h endpoint content).server = w.server := rfl

@[simp] theorem network_beginPost (endpoint : String) (content : Content P) :
    (w.beginPost h endpoint content).network = w.network := rfl

@[simp] theorem trace_beginPost (endpoint : String) (content : Content P) :
    (w.beginPost h endpoint content).trace =
      .posted h w.server.currentSchemeAndHost endpoint content :: w.trace := rfl

@[simp] theorem control_beginPost (endpoint : String) (content : Content P) :
    (w.beginPost h endpoint content).control = w.control := rfl

@[simp] theorem pendingReply_beginPost (endpoint : String) (content : Content P) :
    ((w.beginPost h endpoint content).handler k).pendingReply = (w.handler k).pendingReply :=
  field_update_of_eq Handler.pendingReply rfl

@[simp] theorem retriesRemaining_beginPost (endpoint : String) (content : Content P) :
    ((w.beginPost h endpoint content).handler k).retriesRemaining =
      if k = h then 1 else (w.handler k).retriesRemaining :=
  field_update Handler.retriesRemaining

@[simp] theorem server_takePending : (w.takePending h q).server = w.server := rfl

@[simp] theorem network_takePending :
    (w.takePending h q).network = w.network.deleteLater q := rfl

@[simp] theorem trace_takePending : (w.takePending h q).trace = w.trace := rfl

@[simp] theorem control_takePending : (w.takePending h q).control = w.control := rfl

@[simp] theorem server_spendRetry : (w.spendRetry h q).server = w.server := rfl

@[simp] theorem network_spendRetry : (w.spendRetry h q).network = w.network := rfl

@[simp] theorem trace_spendRetry : (w.spendRetry h q).trace = .retry h q :: w.trace := rfl

@[simp] theorem control_spendRetry : (w.spendRetry h q).control = w.control := rfl

@[simp] theorem pendingReply_takePending :
    ((w.takePending h q).handler k).pendingReply =
      if k = h then none else (w.handler k).pendingReply :=
  field_update Handler.pendingReply

@[simp] theorem retriesRemaining_takePending :
    ((w.takePending h q).handler k).retriesRemaining = (w.handler k).retriesRemaining :=
  field_update_of_eq Handler.retriesRemaining rfl

@[simp] theorem pendingReply_spendRetry :
    ((w.spendRetry h q).handler k).pendingReply = (w.handler k).pendingReply :=
  field_update_of_eq Handler.pendingReply rfl

@[simp] theorem retriesRemaining_spendRetry :
    ((w.spendRetry h q).handler k).retriesRemaining =
      if k = h then (w.handler h).retriesRemaining - 1 else (w.handler k).retriesRemaining :=
  field_update Handler.retriesRemaining

@[simp] theorem server_timestampUpdateFailed : (w.timestampUpdateFailed h).server = w.server := rfl

@[simp] theorem network_timestampUpdateFailed :
    (w.timestampUpdateFailed h).network = w.discardPending h := rfl

@[simp] theorem trace_timestampUpdateFailed :
    (w.timestampUpdateFailed h).trace =
      .outcome h none (.requestFailed "Failed to sync with server.") :: w.trace := rfl

@[simp] theorem pendingReply_timestampUpdateFailed :
    ((w.timestampUpdateFailed h).handler k).pendingReply =
      if k = h then none else (w.handler k).pendingReply :=
  field_update Handler.pendingReply

@[simp] theorem retriesRemaining_timestampUpdateFailed :
    ((w.timestampUpdateFailed h).handler k).retriesRemaining = (w.handler k).retriesRemaining :=
  field_update_of_eq Handler.retriesRemaining rfl

@[simp] theorem pendingReply_setSecret (secret : Bytes) :
    ((w.setSecret h secret).handler k).pendingReply = (w.handler k).pendingReply :=
  field_update_of_eq Handler.pendingReply rfl

@[simp] theorem retriesRemaining_setSecret (secret : Bytes) :
    ((w.setSecret h secret).handler k).retriesRemaining = (w.handler k).retriesRemaining :=
  field_update_of_eq Handler.retriesRemaining rfl

end Fields

end World

end RestApiOut
