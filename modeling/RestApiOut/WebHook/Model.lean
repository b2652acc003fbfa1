import RestApiOut.Handler
import RestApiOut.Library.Run
import RestApiOut.WebHook.SigningKey

/-!
# Web hooks

`source/rest_api_out_v1.cpp` implements `Wh::WebHook`, the predecessor of the handlers.  A hook
sends a document, adjusts the time delta when the other side denies access, and retries after a
timer until `maximumNumberRetries` is used up.  The secret and the URL for the time and the time
delta itself are shared by all hooks.

`Hooks` is any number of hooks on one event-loop thread.  The class is not among the sources the
library is built from, and its header is not in the repository: `maximumNumberRetries` is a
parameter.  No function reads a member before the hook's first `send` has set it, except
`currentSecret`.
-/

namespace RestApiOut

namespace Wh

/-- What the hooks take from outside besides what the handlers take. -/
structure WebHookPlatform extends Platform where
  /-- `QUrl::isEmpty`. -/
  isEmpty : Url → Bool
  isEmpty_emptyUrl : isEmpty emptyUrl = true
  /-- `QString::fromUtf8` and `QString::toLongLong`. -/
  parseLongLong : Bytes → Option Int64
  /-- The text of the `k`-th reading of `QDateTime::currentMSecsSinceEpoch`. -/
  currentMSecs : Nat → Bytes
  /-- The `k`-th reading of `QDateTime::currentDateTimeUtc`, so many milliseconds later, as
  `yyyyMMddhhmm`. -/
  dateTime : Nat → Int64 → Bytes
  /-- `WebHook::maximumNumberRetries`. -/
  maximumNumberRetries : Nat

/-- The slot the `finished` signal of a reply is connected to. -/
inductive Slot
  | messageResponseReceived
  | timestampReplyReceived
deriving DecidableEq

structure WebHook (P : WebHookPlatform) where
  currentSecret : Bytes
  currentUrl : P.Url
  currentPayload : Bytes
  remainingRetries : Nat
  pendingReply : Option ReplyId
  resendTimer : Bool
  timeDeltaTimer : Bool

structure HookRequest (P : WebHookPlatform) where
  url : P.Url
  userAgent : String
  contentType : String
  body : Bytes

/-- Where the event-loop thread is: in the event loop, in the application's code called by a hook,
or in a key that is never filled. -/
inductive HookControl (κ : Type)
  | loop
  /-- Called by `jsonResponseWasReceived`; `responseWasReceived` follows. -/
  | jsonResponse (k : κ) (receivedData : Bytes)
  /-- Called by `responseWasReceived`; `currentUrl` is still to be cleared. -/
  | response (k : κ)
  /-- Called by `failed`; `currentUrl` is still to be cleared. -/
  | failed (k : κ)
  /-- Called by `failed` because a time correction was unreadable. -/
  | unreadable (k : κ)
  /-- Called by `timeDeltaUpdated`; a message may have to be sent again. -/
  | timeDeltaUpdated (k : κ)
  | spinning
deriving DecidableEq

inductive HookObservation (P : WebHookPlatform) (κ : Type)
  /-- `send` was called. -/
  | sent (k : κ) (destinationUrl : P.Url) (payload : Bytes)
  /-- `forceTimeDeltaAdjustment` was called. -/
  | forced (k : κ)
  /-- `doSend` posted a message, and the reply is `r`. -/
  | message (k : κ) (r : ReplyId) (request : HookRequest P)
  /-- `doTimestampAdjustment` asked for the time, and the reply is `r`. -/
  | timestamp (k : κ) (r : ReplyId) (request : HookRequest P)
  /-- The reply `r` reported an error, and a retry was spent on it. -/
  | retry (k : κ) (r : ReplyId)
  | jsonResponseReceived (k : κ) (jsonDocument : P.Document)
  | responseReceived (k : κ) (rawData : Bytes)
  | failedToSend (k : κ) (networkError : Nat)
  /-- A correction was accepted; `again` says whether a message waits for it. -/
  | timeDeltaUpdated (k : κ) (correction : Int64) (again : Bool)

structure Hooks (P : WebHookPlatform) (κ : Type) where
  globalTimestampSecret : Bytes
  globalTimestampUrl : P.Url
  globalTimeDelta : Int64
  /-- Every reply is connected to one slot of one hook. -/
  network : Network (κ × Slot)
  ticks : Nat
  hook : κ → WebHook P
  control : HookControl κ
  trace : List (HookObservation P κ)

/-- `send` and `forceTimeDeltaAdjustment` and the setters are the application's; a timer fires from
the event loop. -/
inductive HookEvent (P : WebHookPlatform) (κ : Type)
  | send (k : κ) (destinationUrl : P.Url) (jsonDocument : P.Document)
  | forceTimeDeltaAdjustment (k : κ)
  | setTimestampSecret (newTimestampSecret : Bytes)
  | setTimestampUrl (timestampWebhookUrl : P.Url)
  | setTimeDelta (newTimeDelta : Int64)
  | ret
  | resendTimeout (k : κ)
  | timeDeltaTimeout (k : κ)
  | arrive (r : ReplyId) (result : ReplyResult)
  | finish (r : ReplyId)
  | destroyReply (r : ReplyId)

/-- `QNetworkReply::ContentAccessDenied`. -/
def contentAccessDenied : NetworkError := .other 201

/-- `QNetworkReply::ProtocolFailure`. -/
def protocolFailure : NetworkError := .other 399

/-- `static_cast<int>` of an error. -/
def errorCode : NetworkError → Nat
  | .noError => 0
  | .authenticationRequired => 204
  | .other code => code

variable {P : WebHookPlatform} {κ : Type}

def frame (P : WebHookPlatform) (data hash : Bytes) : Bytes :=
  P.toJson (P.ofObject (jsonMessage data hash))

/-- The request `doSend` makes from the key it has computed. -/
def messageRequest (currentUrl : P.Url) (currentPayload key : Bytes) : HookRequest P where
  url := currentUrl
  userAgent := "Inesonic, LLC"
  contentType := "application/json"
  body := frame P currentPayload (P.hmac key currentPayload)

/-- The request `doTimestampAdjustment` makes with the time it has read. -/
def timeRequest (P : WebHookPlatform) (globalTimestampUrl : P.Url)
    (globalTimestampSecret data : Bytes) : HookRequest P where
  url := globalTimestampUrl
  userAgent := "Inesonic, LLC"
  contentType := "application/json"
  body := frame P data (P.hmac globalTimestampSecret data)

namespace Hooks

def note (s : Hooks P κ) (o : HookObservation P κ) : Hooks P κ := { s with trace := o :: s.trace }

def timestampRequest (s : Hooks P κ) : HookRequest P :=
  timeRequest P s.globalTimestampUrl s.globalTimestampSecret (P.currentMSecs s.ticks)

variable [DecidableEq κ]

def setHook (s : Hooks P κ) (k : κ) (x : WebHook P) : Hooks P κ :=
  { s with hook := Function.update s.hook k x }

def doTimestampAdjustment (s : Hooks P κ) (k : κ) : Hooks P κ :=
  { s with
    network := s.network.post (.handler (k, .timestampReplyReceived))
    ticks := s.ticks + 1
    hook := Function.update s.hook k { s.hook k with pendingReply := some s.network.next }
    trace := .timestamp k s.network.next s.timestampRequest :: s.trace }

/-- `doSend`.  If the loop has not filled the key after `hmacBlockLength` iterations it never does.
Once the hash is made the key is overwritten (`clear`) and not read again. -/
def doSend (s : Hooks P κ) (k : κ) : Hooks P κ :=
  let dateTime := P.dateTime s.ticks s.globalTimeDelta
  match signingKey (s.hook k).currentSecret dateTime hmacBlockLength with
  | none => { s with control := .spinning }
  | some key =>
      { s with
        network := s.network.post (.handler (k, .messageResponseReceived))
        ticks := s.ticks + 1
        hook := Function.update s.hook k { s.hook k with pendingReply := some s.network.next }
        trace := .message k s.network.next
          (messageRequest (s.hook k).currentUrl (s.hook k).currentPayload key) :: s.trace }

def send (s : Hooks P κ) (k : κ) (destinationUrl : P.Url) (jsonDocument : P.Document) :
    Hooks P κ :=
  let currentPayload := P.toJson jsonDocument
  ((s.note (.sent k destinationUrl currentPayload)).setHook k
    { s.hook k with
      currentUrl := destinationUrl
      currentPayload := currentPayload
      remainingRetries := P.maximumNumberRetries }).doSend k

def forceTimeDeltaAdjustment (s : Hooks P κ) (k : κ) : Hooks P κ :=
  ((s.note (.forced k)).setHook k
    { s.hook k with
      currentUrl := P.emptyUrl
      remainingRetries := P.maximumNumberRetries }).doTimestampAdjustment k

/-- The reply is discarded and `pendingReply` reset. -/
def takePending (s : Hooks P κ) (k : κ) (reply : ReplyId) : Hooks P κ :=
  { s with network := s.network.deleteLater reply }.setHook k
    { s.hook k with pendingReply := none }

/-- A retry is spent, and the timer started that sends again or asks for the time. -/
def retryLater (s : Hooks P κ) (k : κ) (reply : ReplyId) (resend : Bool) : Hooks P κ :=
  let x := s.hook k
  (s.setHook k
    { x with
      remainingRetries := x.remainingRetries - 1
      resendTimer := x.resendTimer || resend
      timeDeltaTimer := x.timeDeltaTimer || !resend }).note (.retry k reply)

/-- Out of retries: `failed`, and then `currentUrl` is cleared. -/
def giveUp (s : Hooks P κ) (k : κ) (networkError : NetworkError) : Hooks P κ :=
  { s.note (.failedToSend k (errorCode networkError)) with control := .failed k }

/-- `timestampReplyReceived`.  A null `pendingReply` would be dereferenced: nothing defined follows,
and in the model the slot does nothing. -/
def timestampReplyReceived (s : Hooks P κ) (k : κ) : Hooks P κ :=
  match (s.hook k).pendingReply with
  | none => s
  | some reply =>
      let result := s.network.result reply
      let s := s.takePending k reply
      if result.error = .noError then
        match P.parseLongLong result.body with
        | some correction =>
            let again := !P.isEmpty (s.hook k).currentUrl
            { s.note (.timeDeltaUpdated k correction again) with
              globalTimeDelta := correction
              control := .timeDeltaUpdated k }
        | none =>
            { s.note (.failedToSend k (errorCode protocolFailure)) with control := .unreadable k }
      else if 0 < (s.hook k).remainingRetries then s.retryLater k reply false
      else s.giveUp k result.error

def messageResponseReceived (s : Hooks P κ) (k : κ) : Hooks P κ :=
  match (s.hook k).pendingReply with
  | none => s
  | some reply =>
      let result := s.network.result reply
      let s := s.takePending k reply
      if result.error = .noError then
        match P.fromJson result.body with
        | some jsonDocument =>
            { s.note (.jsonResponseReceived k jsonDocument) with
              control := .jsonResponse k result.body }
        | none => { s.note (.responseReceived k result.body) with control := .response k }
      else if 0 < (s.hook k).remainingRetries then
        -- access is denied to a message whose hash does not match
        if result.error = contentAccessDenied ∧ 0 < (s.hook k).remainingRetries - 1 then
          s.retryLater k reply false
        else s.retryLater k reply true
      else s.giveUp k result.error

/-- A callback of the application returns to the slot that called it. -/
def return_ (s : Hooks P κ) : Option (Hooks P κ) :=
  match s.control with
  | .jsonResponse k receivedData =>
      some { s.note (.responseReceived k receivedData) with control := .response k }
  | .response k | .failed k =>
      some { s.setHook k { s.hook k with currentUrl := P.emptyUrl } with control := .loop }
  | .unreadable _ => some { s with control := .loop }
  | .timeDeltaUpdated k =>
      if P.isEmpty (s.hook k).currentUrl then some { s with control := .loop }
      else some { s.setHook k { s.hook k with resendTimer := true } with control := .loop }
  | .loop | .spinning => none

/-- The `finished` signal of `r` reaches its slot. -/
def deliver (s : Hooks P κ) (r : ReplyId) : Option (Hooks P κ) :=
  let s' := { s with network := s.network.retire r }
  match s.network.receiver r with
  | some (.handler (k, .messageResponseReceived)) => some (s'.messageResponseReceived k)
  | some (.handler (k, .timestampReplyReceived)) => some (s'.timestampReplyReceived k)
  | some .server | none => none

def step (s : Hooks P κ) : HookEvent P κ → Option (Hooks P κ)
  | .send k destinationUrl jsonDocument =>
      if s.control ≠ .spinning then some (s.send k destinationUrl jsonDocument) else none
  | .forceTimeDeltaAdjustment k =>
      if s.control ≠ .spinning then some (s.forceTimeDeltaAdjustment k) else none
  | .setTimestampSecret newTimestampSecret =>
      if s.control ≠ .spinning then some { s with globalTimestampSecret := newTimestampSecret }
      else none
  | .setTimestampUrl timestampWebhookUrl =>
      if s.control ≠ .spinning then some { s with globalTimestampUrl := timestampWebhookUrl }
      else none
  | .setTimeDelta newTimeDelta =>
      if s.control ≠ .spinning then some { s with globalTimeDelta := newTimeDelta } else none
  | .ret => s.return_
  | .resendTimeout k =>
      if s.control = .loop ∧ (s.hook k).resendTimer = true then
        some ((s.setHook k { s.hook k with resendTimer := false }).doSend k)
      else none
  | .timeDeltaTimeout k =>
      if s.control = .loop ∧ (s.hook k).timeDeltaTimer = true then
        some ((s.setHook k { s.hook k with timeDeltaTimer := false }).doTimestampAdjustment k)
      else none
  | .arrive r result =>
      if r ∈ s.network.live ∧ s.network.arrived r = false then
        some { s with network := s.network.arrive r result }
      else none
  | .finish r =>
      if s.control = .loop ∧ r ∈ s.network.live ∧ s.network.arrived r = true then s.deliver r
      else none
  | .destroyReply r =>
      if s.control = .loop ∧ r ∈ s.network.live ∧ s.network.discarded r = true then
        some { s with network := s.network.retire r }
      else none

/-- What the constructors leave. -/
structure Initial (s : Hooks P κ) : Prop where
  network : s.network = Network.empty
  pending : ∀ k, (s.hook k).pendingReply = none
  timers : ∀ k, (s.hook k).resendTimer = false ∧ (s.hook k).timeDeltaTimer = false
  control : s.control = .loop
  trace : s.trace = []

end Hooks

end Wh

end RestApiOut
