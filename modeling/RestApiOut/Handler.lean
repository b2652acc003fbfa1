import RestApiOut.Server
import RestApiOut.Secret
import RestApiOut.Library.Base64

/-!
# The handlers

`World` is the whole program on its event-loop thread: the server side, every handler, and where
control is.  `InesonicRestHandler` and `InesonicBinaryRestHandler` are line-by-line twins except
for how they build their URL and payload, how they frame a message and how they read a successful
reply; each member function is one shared definition applied to its class's own values.

A function that calls application code stops there and leaves the call in `Control`: the rest of
the function runs when the callback returns.
-/

namespace RestApiOut

variable {P : Platform} {ι : Type}

inductive Kind
  | json
  | binary
deriving DecidableEq

structure Handler (P : Platform) where
  kind : Kind
  currentSecret : Bytes
  retriesRemaining : Nat
  currentPayload : Bytes
  currentUrl : P.Url
  pendingReply : Option ReplyId

/-- Where the event-loop thread is.

`loop` is the event loop itself, `response h` the application's code called from `h`'s
`responseReceived`, and `signal` a slot connected to `timeDeltaChanged` or `timeDeltaUpdateFailed`.
`updating rest` and `failing rest` are the two notification loops of `Server::responseReceived`
with `rest` still to be notified; `failed h rest` is the application's code called from `h`'s
`timestampUpdateFailed` inside the second.  `deadlock` is a thread waiting for a mutex it holds. -/
inductive Control (ι : Type)
  | loop
  | response (h : ι)
  | updating (rest : List ι)
  | failing (rest : List ι)
  | failed (h : ι) (rest : List ι)
  | signal
  | deadlock
deriving DecidableEq

/-- Application code is running and may call the library. -/
def Control.user : Control ι → Bool
  | .loop | .response _ | .failed _ _ | .signal => true
  | .updating _ | .failing _ | .deadlock => false

structure World (P : Platform) (ι : Type) extends Core P ι where
  handler : ι → Handler P
  control : Control ι

/-- The object the JSON handler sends. -/
def jsonMessage (payload hash : Bytes) : JsonObject where
  members :=
    [("data", .string (String.ofList (Base64.encode payload))),
      ("hash", .string (String.ofList (Base64.encode hash)))]
  nodup := by simp

namespace World

def note (w : World P ι) (o : Observation P ι) : World P ι := { w with trace := o :: w.trace }

def withCore (w : World P ι) (c : Core P ι) : World P ι := { w with toCore := c }

def block (w : World P ι) : World P ι := { w with control := .deadlock }

/-- `pendingReply->deleteLater()`, guarded against null. -/
def discardPending (w : World P ι) (h : ι) : Network ι :=
  match (w.handler h).pendingReply with
  | some r => w.network.deleteLater r
  | none => w.network

@[simp] theorem next_discardPending (w : World P ι) (h : ι) :
    (w.discardPending h).next = w.network.next := by
  unfold discardPending
  cases (w.handler h).pendingReply <;> rfl

@[simp] theorem live_discardPending (w : World P ι) (h : ι) :
    (w.discardPending h).live = w.network.live := by
  unfold discardPending
  cases (w.handler h).pendingReply <;> rfl

@[simp] theorem receiver_discardPending (w : World P ι) (h : ι) (r : ReplyId) :
    (w.discardPending h).receiver r = w.network.receiver r := by
  unfold discardPending
  cases (w.handler h).pendingReply <;> simp

@[simp] theorem result_discardPending (w : World P ι) (h : ι) (r : ReplyId) :
    ((w.discardPending h).reply r).result = (w.network.reply r).result := by
  unfold discardPending
  cases (w.handler h).pendingReply <;> simp

theorem discarded_discardPending (w : World P ι) (h : ι) (r : ReplyId) :
    (w.discardPending h).discarded r =
      (w.network.discarded r ||
        decide ((w.handler h).pendingReply = some r ∧ r < w.network.next)) := by
  unfold discardPending
  cases pending : (w.handler h).pendingReply with
  | none => simp
  | some q =>
      dsimp only
      rw [Network.discarded_deleteLater]
      rcases eq_or_ne r q with rfl | same
      · simp
      · simp [same, Ne.symm same]

variable [DecidableEq ι]

def setHandler (w : World P ι) (h : ι) (x : Handler P) : World P ι :=
  { w with handler := Function.update w.handler h x }

/-- `timestampUpdated` of either handler. -/
def timestampUpdatedWith (frame : Bytes → Bytes → Bytes) (contentType : String)
    (w : World P ι) (h : ι) : World P ι :=
  let x := w.handler h
  let network := w.discardPending h
  let (hash, secret) := calculateHash P x.currentSecret w.server.currentDefaultSecret
    (P.clock w.ticks) w.server.currentTimeDelta x.currentPayload
  let message := frame x.currentPayload hash
  let request : Request P :=
    { url := x.currentUrl
      userAgent := w.server.currentUserAgent
      contentType := contentType
      contentLength := message.length
      accept := none
      body := message }
  { w with
    network := network.post (.handler h)
    ticks := w.ticks + 1
    trace := .sent h x.pendingReply network.next ⟨x.currentPayload, hash, request⟩ :: w.trace
    handler := Function.update w.handler h
      { x with currentSecret := secret, pendingReply := some network.next } }

end World

namespace InesonicRestHandler

def url (schemeAndHost : P.Url) (endpoint : String) : P.Url :=
  P.parseUrl (P.urlString schemeAndHost ++ endpoint)

def frame (P : Platform) (payload hash : Bytes) : Bytes :=
  P.toJson (P.ofObject (jsonMessage payload hash))

/-- The success branch of `responseReceived`. -/
def process (P : Platform) (result : ReplyResult) : Outcome P :=
  match P.fromJson result.body with
  | some jsonDocument => .jsonResponse jsonDocument
  | none => .requestFailed "Response not JSON format"

def timestampUpdated [DecidableEq ι] (w : World P ι) (h : ι) : World P ι :=
  w.timestampUpdatedWith (frame P) "application/json" h

end InesonicRestHandler

namespace InesonicBinaryRestHandler

def url (schemeAndHost : P.Url) (endpoint : String) : P.Url :=
  P.setPath schemeAndHost endpoint

def frame (payload hash : Bytes) : Bytes := payload ++ hash

/-- The success branch of `responseReceived`. -/
def process (P : Platform) (result : ReplyResult) : Outcome P :=
  .response result.body (result.contentType.getD "")

def timestampUpdated [DecidableEq ι] (w : World P ι) (h : ι) : World P ι :=
  w.timestampUpdatedWith frame "application/octet-stream" h

end InesonicBinaryRestHandler

namespace World

variable [DecidableEq ι]

/-- The virtual call `timestampUpdated()`. -/
def timestampUpdated (w : World P ι) (h : ι) : World P ι :=
  match (w.handler h).kind with
  | .json => InesonicRestHandler.timestampUpdated w h
  | .binary => InesonicBinaryRestHandler.timestampUpdated w h

/-- `post` of either handler, from the URL and payload it has built: the fields are overwritten,
then the message is sent now or left to the end of the running update. -/
def postWith (w : World P ι) (h : ι) (url : P.Url) (payload : Bytes) : World P ι :=
  let w := w.setHandler h
    { w.handler h with retriesRemaining := 1, currentUrl := url, currentPayload := payload }
  match w.toCore.checkTimestamp h with
  | none => w.block
  | some (true, c) => (w.withCore c).timestampUpdated h
  | some (false, c) => w.withCore c

/-- `processJsonResponse`, `processResponse` or `processRequestFailed` is called with the outcome;
the slot it is called from has nothing left to do. -/
def respond (w : World P ι) (h : ι) (cause : ReplyId) (o : Outcome P) : World P ι :=
  { w.note (.outcome h (some cause) o) with control := .response h }

/-- `responseReceived` of either handler.  A null `pendingReply` would be dereferenced: nothing
defined follows, and in the model the slot does nothing. -/
def responseReceivedWith (process : ReplyResult → Outcome P) (w : World P ι) (h : ι) : World P ι :=
  match (w.handler h).pendingReply with
  | none => w
  | some reply =>
      let result := w.network.result reply
      let retriesRemaining := (w.handler h).retriesRemaining
      let w := { w with network := w.network.deleteLater reply }
      let w := w.setHandler h { w.handler h with pendingReply := none }
      if result.error = .noError then w.respond h reply (process result)
      else if result.error = .authenticationRequired ∧ 0 < retriesRemaining then
        let w := w.setHandler h
          { w.handler h with retriesRemaining := (w.handler h).retriesRemaining - 1 }
        let w := w.note (.retry h reply)
        match w.toCore.updateTimeDelta h with
        | none => w.block
        | some c => w.withCore c
      else w.respond h reply (.requestFailed result.errorString)

/-- `timestampUpdateFailed` of either handler, up to the application's code. -/
def timestampUpdateFailed (w : World P ι) (h : ι) : World P ι :=
  let w := { w with network := w.discardPending h }
  let w := w.setHandler h { w.handler h with pendingReply := none }
  w.note (.outcome h none (.requestFailed "Failed to sync with server."))

end World

namespace InesonicRestHandler

variable [DecidableEq ι]

def post (w : World P ι) (h : ι) (endpoint : String) (jsonData : P.Document) : World P ι :=
  w.postWith h (url w.server.currentSchemeAndHost endpoint) (P.toJson jsonData)

def responseReceived (w : World P ι) (h : ι) : World P ι :=
  w.responseReceivedWith (process P) h

def timestampUpdateFailed (w : World P ι) (h : ι) : World P ι := w.timestampUpdateFailed h

end InesonicRestHandler

namespace InesonicBinaryRestHandler

variable [DecidableEq ι]

def post (w : World P ι) (h : ι) (endpoint : String) (binaryPayload : Bytes) : World P ι :=
  w.postWith h (url w.server.currentSchemeAndHost endpoint) binaryPayload

def responseReceived (w : World P ι) (h : ι) : World P ι :=
  w.responseReceivedWith (process P) h

def timestampUpdateFailed (w : World P ι) (h : ι) : World P ι := w.timestampUpdateFailed h

end InesonicBinaryRestHandler

end RestApiOut
