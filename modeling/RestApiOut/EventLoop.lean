import RestApiOut.Handler
import RestApiOut.Library.Run

/-!
# The event loop

`World.step` is one step of the single event-loop thread.  Application code may call the library
whenever it has control (in the event loop, in a response callback, in a callback of the failure
loop, in a slot of one of the server's two signals); only the event loop delivers `finished`
signals and carries out deferred deletions.  The network may store the result of a posted reply at
any time.

`World.Action` is what a step can do, one constructor for each way through the source; every
invariant is derived from `World.step_action`.
-/

namespace RestApiOut

open Transition

variable {P : Platform} {ι : Type}

/-- A call of the library by the application. -/
inductive Call (P : Platform) (ι : Type)
  | post (h : ι) (endpoint : String) (content : Content P)
  | setSecret (h : ι) (newSecret : Bytes)
  | setDefaultSecret (newDefaultSecret : Bytes)
  | setSchemeAndHost (newSchemeAndHost : P.Url)
  | setUserAgent (newUserAgent : String)
  | setTimeDeltaSlug (newTimeDeltaSlug : String)
  | setTimeDelta (newTimeDelta : Int64)

/-- `call c` is the application's, `ret` the return of a callback, `next` the next iteration of a
notification loop, `arrive r result` the network's; `finish r` delivers the `finished` signal of
`r`, and `destroyReply r` is the deferred deletion of `r`. -/
inductive Event (P : Platform) (ι : Type)
  | call (c : Call P ι)
  | ret
  | next
  | arrive (r : ReplyId) (result : ReplyResult)
  | finish (r : ReplyId)
  | destroyReply (r : ReplyId)

namespace World

variable [DecidableEq ι]

/-- `post` of the class of `h`; there is no overload for the other kind of content. -/
def post (w : World P ι) (h : ι) (endpoint : String) : Content P → Option (World P ι)
  | .json jsonData =>
      if (w.handler h).kind = .json then
        some (InesonicRestHandler.post (w.note (.posted h w.server.currentSchemeAndHost endpoint
          (.json jsonData))) h endpoint jsonData)
      else none
  | .binary binaryPayload =>
      if (w.handler h).kind = .binary then
        some (InesonicBinaryRestHandler.post (w.note (.posted h w.server.currentSchemeAndHost
          endpoint (.binary binaryPayload))) h endpoint binaryPayload)
      else none

/-- `InesonicRestHandlerBase::setSecret`. -/
def setSecret (w : World P ι) (h : ι) (newSecret : Bytes) : World P ι :=
  let currentSecret := storeSecret P (w.handler h).currentSecret newSecret
  (w.setHandler h { w.handler h with currentSecret := currentSecret }).note (.secretSet h newSecret)

/-- `Server::setDefaultSecret`. -/
def setDefaultSecret (w : World P ι) (newDefaultSecret : Bytes) : World P ι :=
  let currentDefaultSecret := storeSecret P w.server.currentDefaultSecret newDefaultSecret
  let server := { w.server with currentDefaultSecret := currentDefaultSecret }
  { w with server := server, trace := .defaultSecretSet newDefaultSecret :: w.trace }

/-- One call of the application.  The two setters of a secret assert its length. -/
def call (w : World P ι) : Call P ι → Option (World P ι)
  | .post h endpoint content => w.post h endpoint content
  | .setSecret h newSecret =>
      if newSecret.length = secretLength then some (w.setSecret h newSecret) else none
  | .setDefaultSecret newDefaultSecret =>
      if newDefaultSecret.length = secretLength then some (w.setDefaultSecret newDefaultSecret)
      else none
  | .setSchemeAndHost newSchemeAndHost =>
      some { w with server.currentSchemeAndHost := newSchemeAndHost }
  | .setUserAgent newUserAgent => some { w with server.currentUserAgent := newUserAgent }
  | .setTimeDeltaSlug newTimeDeltaSlug =>
      some { w with server.currentTimeDeltaSlug := newTimeDeltaSlug }
  | .setTimeDelta newTimeDelta => some { w with server.currentTimeDelta := newTimeDelta }

/-- `Server::responseReceived` up to the first callback of its loop. -/
def serverResponseReceived (w : World P ι) : World P ι :=
  match w.toCore.responseReceivedUnlocked with
  | none => w
  | some (c, .retrying) => w.withCore c
  | some (c, .failed) =>
      match c.beginNotify false with
      | none => (w.withCore c).block
      | some c => { w.withCore c with control := .failing c.server.waitingRestApis }
  | some (c, .updated) =>
      match c.beginNotify true with
      | none => (w.withCore c).block
      | some c => { w.withCore c with control := .updating c.server.waitingRestApis }

/-- The handler's private slot `responseReceived`. -/
def handlerResponseReceived (w : World P ι) (h : ι) : World P ι :=
  match (w.handler h).kind with
  | .json => InesonicRestHandler.responseReceived w h
  | .binary => InesonicBinaryRestHandler.responseReceived w h

/-- The `finished` signal of `r` reaches the slot it is connected to. -/
def deliver (w : World P ι) (r : ReplyId) : Option (World P ι) :=
  let w' := { w with network := w.network.retire r }
  match w.network.receiver r with
  | none => none
  | some .server => some (w'.note (.answered r w.server.pendingReply)).serverResponseReceived
  | some (.handler h) =>
      some ((w'.note (.slot h r (w.handler h).pendingReply)).handlerResponseReceived h)

/-- The next iteration of a notification loop, or its end. -/
def iterate (w : World P ι) : Option (World P ι) :=
  match w.control with
  | .updating (h :: rest) =>
      some { (w.note (.notified h true)).timestampUpdated h with control := .updating rest }
  | .updating [] => some { w.withCore (w.toCore.release true) with control := .signal }
  | .failing (h :: rest) =>
      some { (w.note (.notified h false)).timestampUpdateFailed h with control := .failed h rest }
  | .failing [] => some { w.withCore (w.toCore.release false) with control := .signal }
  | _ => none

/-- A callback of the application returns. -/
def return_ (w : World P ι) : Option (World P ι) :=
  match w.control with
  | .response _ | .signal => some { w with control := .loop }
  | .failed _ rest => some { w with control := .failing rest }
  | _ => none

def step (w : World P ι) : Event P ι → Option (World P ι)
  | .call c => if w.control.user then w.call c else none
  | .ret => w.return_
  | .next => w.iterate
  | .arrive r result =>
      if r ∈ w.network.live ∧ w.network.arrived r = false then
        some { w with network := w.network.arrive r result }
      else none
  | .finish r =>
      if w.control = .loop ∧ r ∈ w.network.live ∧ w.network.arrived r = true then w.deliver r
      else none
  | .destroyReply r =>
      if w.control = .loop ∧ r ∈ w.network.live ∧ w.network.discarded r = true then
        some { w with network := w.network.retire r }
      else none

/-- A server and its handlers as the constructors without a secret leave them; a constructor given
a secret continues with its setter.  No constructor initialises a retry counter. -/
def constructed (serverSchemeAndHost : P.Url) (timeDeltaSlug : String) (kind : ι → Kind)
    (uninitialised : Nat) : World P ι where
  server :=
    { currentSchemeAndHost := serverSchemeAndHost
      currentTimeDeltaSlug := timeDeltaSlug
      currentDefaultSecret := []
      currentUserAgent := Server.defaultUserAgent
      currentTimeDelta := 0
      requestMutex := false
      pendingReply := none
      retriesRemaining := uninitialised
      waitingRestApis := [] }
  network := Network.empty
  ticks := 0
  trace := []
  handler h :=
    { kind := kind h
      currentSecret := []
      retriesRemaining := uninitialised
      currentPayload := []
      currentUrl := P.emptyUrl
      pendingReply := none }
  control := .loop

/-- What every constructor establishes. -/
structure Initial (w : World P ι) : Prop where
  secret : w.server.currentDefaultSecret = []
  delta : w.server.currentTimeDelta = 0
  mutex : w.server.requestMutex = false
  pending : w.server.pendingReply = none
  waiting : w.server.waitingRestApis = []
  network : w.network = Network.empty
  trace : w.trace = []
  handlerSecret : ∀ h, (w.handler h).currentSecret = []
  handlerPending : ∀ h, (w.handler h).pendingReply = none
  control : w.control = .loop

omit [DecidableEq ι] in
theorem constructed_initial (serverSchemeAndHost : P.Url) (timeDeltaSlug : String)
    (kind : ι → Kind) (uninitialised : Nat) :
    (constructed serverSchemeAndHost timeDeltaSlug kind uninitialised).Initial :=
  ⟨rfl, rfl, rfl, rfl, rfl, rfl, rfl, fun _ => rfl, fun _ => rfl, rfl⟩

end World

end RestApiOut
