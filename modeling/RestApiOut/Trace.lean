import RestApiOut.Network
import RestApiOut.Library.History

/-!
# Observations

What a run does that a specification can talk about, newest first.  The program never reads its
trace.  The functions below it recover, from the trace alone, what the specification needs: how
many posts and outcomes a handler had, what its latest post was, which secret was last configured,
and which update cycle a registration or a callback belongs to.
-/

namespace RestApiOut

variable {P : Platform} {ι : Type}

/-- The argument of `post`: a document for the JSON handler, bytes for the binary one. -/
inductive Content (P : Platform)
  | json (document : P.Document)
  | binary (bytes : Bytes)

/-- A `QNetworkRequest` together with the bytes handed over with it. -/
structure Request (P : Platform) where
  url : P.Url
  userAgent : String
  contentType : String
  contentLength : Nat
  accept : Option String
  body : Bytes

/-- A message a handler hands to `Server::post`, with the payload and the hash it was framed
from. -/
structure Message (P : Platform) where
  payload : Bytes
  hash : Bytes
  request : Request P

/-- What a handler reports to the application. -/
inductive Outcome (P : Platform)
  | jsonResponse (document : P.Document)
  | response (body : Bytes) (contentType : String)
  | requestFailed (errorString : String)

inductive Observation (P : Platform) (ι : Type)
  /-- `post` was called, with this scheme and host configured. -/
  | posted (h : ι) (schemeAndHost : P.Url) (endpoint : String) (content : Content P)
  /-- `timestampUpdated` handed `m` to `Server::post`, which returned `r`. -/
  | sent (h : ι) (superseded : Option ReplyId) (r : ReplyId) (m : Message P)
  /-- The handler's `responseReceived` slot ran for `trigger` with this `pendingReply`. -/
  | slot (h : ι) (trigger : ReplyId) (pending : Option ReplyId)
  /-- An outcome, and the reply it was read from. -/
  | outcome (h : ι) (cause : Option ReplyId) (o : Outcome P)
  /-- The reply `cause` made the handler ask for a new time delta. -/
  | retry (h : ι) (cause : ReplyId)
  /-- The handler was appended to `waitingRestApis`. -/
  | registered (h : ι)
  /-- A time-delta request was handed to the network, which returned `r`. -/
  | asked (r : ReplyId) (request : Request P)
  /-- `Server::responseReceived` ran for `trigger` with this `pendingReply`. -/
  | answered (trigger : ReplyId) (pending : Option ReplyId)
  /-- `parseResponse` accepted a time delta. -/
  | accepted (delta : Int64)
  /-- `Server::responseReceived` locked `requestMutex` to notify the waiting handlers. -/
  | notifying (updated : Bool)
  /-- The server called `timestampUpdated` or `timestampUpdateFailed`. -/
  | notified (h : ι) (updated : Bool)
  /-- The waiting list was cleared, the mutex released and the signal emitted. -/
  | released (updated : Bool)
  | secretSet (h : ι) (secret : Bytes)
  | defaultSecretSet (secret : Bytes)

abbrev Trace (P : Platform) (ι : Type) := List (Observation P ι)

/-! ## Counting per handler -/

section Counting

variable [DecidableEq ι]

def Observation.isPosted (h : ι) : Observation P ι → Bool
  | .posted h' _ _ _ => h' = h
  | _ => false

def Observation.isSent (h : ι) : Observation P ι → Bool
  | .sent h' _ _ _ => h' = h
  | _ => false

def Observation.isOutcome (h : ι) : Observation P ι → Bool
  | .outcome h' _ _ => h' = h
  | _ => false

/-- The number of `post` calls made on `h`. -/
def posts (h : ι) (t : Trace P ι) : Nat := t.countP (Observation.isPosted h)

/-- The number of messages `h` handed to `Server::post`. -/
def messages (h : ι) (t : Trace P ι) : Nat := t.countP (Observation.isSent h)

/-- The number of outcomes `h` reported. -/
def outcomes (h : ι) (t : Trace P ι) : Nat := t.countP (Observation.isOutcome h)

@[simp] theorem posts_nil (h : ι) : posts h ([] : Trace P ι) = 0 := rfl

@[simp] theorem posts_cons (h : ι) (o : Observation P ι) (t : Trace P ι) :
    posts h (o :: t) = posts h t + if o.isPosted h then 1 else 0 :=
  List.countP_cons

@[simp] theorem messages_nil (h : ι) : messages h ([] : Trace P ι) = 0 := rfl

@[simp] theorem messages_cons (h : ι) (o : Observation P ι) (t : Trace P ι) :
    messages h (o :: t) = messages h t + if o.isSent h then 1 else 0 :=
  List.countP_cons

@[simp] theorem outcomes_nil (h : ι) : outcomes h ([] : Trace P ι) = 0 := rfl

@[simp] theorem outcomes_cons (h : ι) (o : Observation P ι) (t : Trace P ι) :
    outcomes h (o :: t) = outcomes h t + if o.isOutcome h then 1 else 0 :=
  List.countP_cons

/-! ## Attributing replies to posts -/

/-- The replies to the messages sent for the `p`-th post of `h`: those sent while `p` was the
number of posts made so far. -/
def repliesFor (h : ι) (p : Nat) : Trace P ι → List ReplyId
  | [] => []
  | .sent h' _ r _ :: past =>
      if h' = h ∧ posts h past = p then r :: repliesFor h p past else repliesFor h p past
  | _ :: past => repliesFor h p past

/-- The number of the post whose message the reply `r` answers. -/
def postOf (r : ReplyId) : Trace P ι → Nat
  | [] => 0
  | .sent h _ r' _ :: past => if r' = r then posts h past else postOf r past
  | _ :: past => postOf r past

/-- The arguments of the latest `post` on `h`, with the scheme and host it found. -/
def lastPost (h : ι) : Trace P ι → Option (P.Url × String × Content P)
  | [] => none
  | .posted h' base endpoint content :: past =>
      if h' = h then some (base, endpoint, content) else lastPost h past
  | _ :: past => lastPost h past

/-! ## Configured secrets -/

/-- The argument of the latest `setSecret` on `h`. -/
def lastSecret (h : ι) : Trace P ι → Option Bytes
  | [] => none
  | .secretSet h' secret :: past => if h' = h then some secret else lastSecret h past
  | _ :: past => lastSecret h past

end Counting

/-- The argument of the latest `setDefaultSecret`. -/
def lastDefaultSecret : Trace P ι → Option Bytes
  | [] => none
  | .defaultSecretSet secret :: _ => some secret
  | _ :: past => lastDefaultSecret past

/-- The secret `h` is meant to sign with: its own if it was ever given one. -/
def effectiveSecret [DecidableEq ι] (h : ι) (t : Trace P ι) : Option Bytes :=
  (lastSecret h t).or (lastDefaultSecret t)

/-! ## Update cycles -/

def Observation.isReleased : Observation P ι → Bool
  | .released _ => true
  | _ => false

/-- The number of update cycles that have ended. -/
def endedCycles (t : Trace P ι) : Nat := t.countP Observation.isReleased

/-- Every append to `waitingRestApis`, oldest first, with the number of the cycle it was made in. -/
def registrations : Trace P ι → List (ι × Nat)
  | [] => []
  | .registered h :: past => registrations past ++ [(h, endedCycles past)]
  | _ :: past => registrations past

/-- Every callback of the server, oldest first, with the number of the cycle it was made in. -/
def callbacks : Trace P ι → List (ι × Nat)
  | [] => []
  | .notified h _ :: past => callbacks past ++ [(h, endedCycles past)]
  | _ :: past => callbacks past

/-- The time delta accepted since anything but a notification was last observed. -/
def justAccepted : Trace P ι → Option Int64
  | .accepted delta :: _ => some delta
  | .notifying _ :: past => justAccepted past
  | .notified _ _ :: past => justAccepted past
  | .sent _ _ _ _ :: past => justAccepted past
  | _ => none

@[simp] theorem endedCycles_nil : endedCycles ([] : Trace P ι) = 0 := rfl

@[simp] theorem endedCycles_cons (o : Observation P ι) (t : Trace P ι) :
    endedCycles (o :: t) = endedCycles t + if o.isReleased then 1 else 0 :=
  List.countP_cons

end RestApiOut
