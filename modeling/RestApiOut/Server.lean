import RestApiOut.Trace

/-!
# The server

`Server` holds the members of the source's class of that name that decide what it does; `Core` is
the server together with the network, the number of clock readings made so far and the trace.  The
functions follow `rest_api_out_v1_server.cpp`, one definition a function.  A lock of `requestMutex`
while it is held gives `none`: on one thread that is a deadlock.

`Server::responseReceived` is cut where it takes the mutex.  `responseReceivedUnlocked` is
everything before (reading the reply, parsing, the retry); `beginNotify` and `release` are the two
ends of the locked part, between which the waiting handlers are called one by one.
-/

namespace RestApiOut

variable {P : Platform} {ι : Type}

structure Server (P : Platform) (ι : Type) where
  currentSchemeAndHost : P.Url
  currentTimeDeltaSlug : String
  currentDefaultSecret : Bytes
  currentUserAgent : String
  currentTimeDelta : Int64
  requestMutex : Bool
  pendingReply : Option ReplyId
  retriesRemaining : Nat
  waitingRestApis : List ι

structure Core (P : Platform) (ι : Type) where
  server : Server P ι
  network : Network ι
  ticks : Nat
  trace : Trace P ι

/-- `Server::numberRetries`. -/
def numberRetries : Nat := 2

namespace Server

def defaultUserAgent : String := "Inesonic, LLC"

def defaultTimeDeltaSlug : String := "/td"

def timeDeltaUrl (s : Server P ι) : P.Url :=
  P.setPath s.currentSchemeAndHost s.currentTimeDeltaSlug

/-- `static_cast<double>` of a 64-bit integer: the nearest double, ties to even. -/
def toDouble (x : Int64) : ℚ :=
  let magnitude := x.toInt.natAbs
  let unit := 2 ^ (magnitude.log2 - 52)
  let quotient := magnitude / unit
  let remainder := magnitude % unit
  let up := unit < 2 * remainder ∨ unit = 2 * remainder ∧ quotient % 2 = 1
  ((x.toInt.sign * ((if up then quotient + 1 else quotient) * unit : ℕ) : ℤ) : ℚ)

/-- The object a time-delta request carries. -/
def timestampObject (currentTimestamp : Int64) : JsonObject where
  members := [("timestamp", .double (toDouble currentTimestamp))]
  nodup := List.nodup_singleton _

/-- `std::numeric_limits<long long>::lowest()`, as a double. -/
def timeDeltaMin : ℚ := ((-2 ^ 63 : ℤ) : ℚ)

/-- `(1ULL << std::numeric_limits<double>::digits) - 1`. -/
def timeDeltaMax : ℚ := ((2 ^ 53 - 1 : ℤ) : ℚ)

/-- `static_cast<long long>` of a double: truncation toward zero. -/
def toLongLong (v : ℚ) : Int64 := Int64.ofInt (v.num.tdiv v.den)

/-- `Server::parseResponse`: whether the document is accepted, and the server afterwards. -/
def parseResponse (s : Server P ι) (document : P.Document) : Bool × Server P ι :=
  match P.rootObject document with
  | none => (false, s)
  | some jsonObject =>
      if jsonObject.size = 2 then
        match jsonObject.value "status", jsonObject.value "time_delta" with
        | some (.string status), some (.double timeDelta) =>
            if status = "OK" then
              if timeDeltaMin ≤ timeDelta ∧ timeDelta ≤ timeDeltaMax then
                (true, { s with currentTimeDelta := toLongLong timeDelta })
              else (false, s)
            else (false, s)
        | _, _ => (false, s)
      else (false, s)

end Server

/-- How the unlocked part of `Server::responseReceived` ends. -/
inductive Verdict
  | retrying
  | failed
  | updated
deriving DecidableEq

namespace Core

def note (c : Core P ι) (o : Observation P ι) : Core P ι := { c with trace := o :: c.trace }

def lock (c : Core P ι) : Option (Core P ι) :=
  if c.server.requestMutex then none else some { c with server.requestMutex := true }

def unlock (c : Core P ι) : Core P ι := { c with server.requestMutex := false }

/-- `waitingRestApis.append(restApi)`. -/
def append (c : Core P ι) (restApi : ι) : Core P ι :=
  { c with
    server.waitingRestApis := c.server.waitingRestApis ++ [restApi]
    trace := .registered restApi :: c.trace }

/-- The request `issueTimeDeltaRequest` builds. -/
def timeDeltaRequest (c : Core P ι) : Request P :=
  let message := P.toJson (P.ofObject (Server.timestampObject (P.clock c.ticks)))
  { url := c.server.timeDeltaUrl
    userAgent := c.server.currentUserAgent
    contentType := "application/json"
    contentLength := message.length
    accept := some "*/*"
    body := message }

def issueTimeDeltaRequest (c : Core P ι) : Core P ι :=
  { server := { c.server with pendingReply := some c.network.next }
    network := c.network.post .server
    ticks := c.ticks + 1
    trace := .asked c.network.next c.timeDeltaRequest :: c.trace }

def updateTimeDelta (c : Core P ι) (restApi : ι) : Option (Core P ι) := do
  let c ← c.lock
  let c :=
    if c.server.pendingReply = none then
      issueTimeDeltaRequest { c with server.retriesRemaining := numberRetries }
    else c
  return (c.append restApi).unlock

def checkTimestamp (c : Core P ι) (restApi : ι) : Option (Bool × Core P ι) := do
  let c ← c.lock
  match c.server.pendingReply with
  | none => return (true, c.unlock)
  | some _ => return (false, (c.append restApi).unlock)

/-- `Server::responseReceived` up to the mutex.  `none` is the null `pendingReply` it would
dereference. -/
def responseReceivedUnlocked (c : Core P ι) : Option (Core P ι × Verdict) := do
  let reply ← c.server.pendingReply
  let result := c.network.result reply
  let (success, server) :=
    if result.error = .noError then
      match P.fromJson result.body with
      | some jsonDocument => c.server.parseResponse jsonDocument
      | none => (false, c.server)
    else (false, c.server)
  let c := { c with server := server, network := c.network.deleteLater reply }
  if success then
    return (c.note (.accepted server.currentTimeDelta), .updated)
  else if 0 < c.server.retriesRemaining then
    return (issueTimeDeltaRequest
      { c with server.retriesRemaining := c.server.retriesRemaining - 1 }, .retrying)
  else
    return (c, .failed)

/-- The mutex is taken and the loop over `waitingRestApis` starts. -/
def beginNotify (c : Core P ι) (updated : Bool) : Option (Core P ι) := do
  let c ← c.lock
  return c.note (.notifying updated)

/-- The list is cleared, `pendingReply` reset, the mutex released and the signal emitted. -/
def release (c : Core P ι) (updated : Bool) : Core P ι :=
  { c with
    server :=
      { c.server with waitingRestApis := [], pendingReply := none, requestMutex := false }
    trace := .released updated :: c.trace }

end Core

/-! ## One specification a function -/

/-- The time delta `parseResponse` takes from a document, if it accepts it. -/
def parsedDelta (document : P.Document) : Option Int64 :=
  match P.rootObject document with
  | none => none
  | some jsonObject =>
      if jsonObject.size = 2 then
        match jsonObject.value "status", jsonObject.value "time_delta" with
        | some (.string status), some (.double timeDelta) =>
            if status = "OK" ∧ Server.timeDeltaMin ≤ timeDelta ∧
                timeDelta ≤ Server.timeDeltaMax then
              some (Server.toLongLong timeDelta)
            else none
        | _, _ => none
      else none

/-- The time delta a reply carries, if the server accepts it. -/
def replyDelta (P : Platform) (result : ReplyResult) : Option Int64 :=
  if result.error = .noError then (P.fromJson result.body).bind parsedDelta else none

theorem Server.parseResponse_eq (s : Server P ι) (document : P.Document) :
    s.parseResponse document =
      match parsedDelta document with
      | some delta => (true, { s with currentTimeDelta := delta })
      | none => (false, s) := by
  unfold Server.parseResponse parsedDelta
  cases P.rootObject document with
  | none => rfl
  | some jsonObject =>
      dsimp only
      by_cases two : jsonObject.size = 2
      · rw [if_pos two, if_pos two]
        split
        · rename_i status timeDelta _ _
          by_cases ok : status = "OK"
          · by_cases inRange : Server.timeDeltaMin ≤ timeDelta ∧ timeDelta ≤ Server.timeDeltaMax
            · simp [ok, inRange]
            · simp [ok, inRange]
          · simp [ok]
        · rfl
      · rw [if_neg two, if_neg two]

namespace Core

/-- The server after appending `h` to the list, with a new update started if none was running. -/
def enlist (c : Core P ι) (h : ι) : Core P ι :=
  ((if c.server.pendingReply = none then
      issueTimeDeltaRequest { c with server.retriesRemaining := numberRetries }
    else c).append h)

theorem updateTimeDelta_of_free {c : Core P ι} (free : c.server.requestMutex = false) (h : ι) :
    c.updateTimeDelta h = some (c.enlist h) := by
  rcases c with ⟨⟨url, slug, secret, agent, delta, mutex, pending, retries, waiting⟩, net, k, t⟩
  dsimp only at free
  subst free
  cases pending <;> rfl

theorem checkTimestamp_of_idle {c : Core P ι} (free : c.server.requestMutex = false)
    (idle : c.server.pendingReply = none) (h : ι) :
    c.checkTimestamp h = some (true, c) := by
  rcases c with ⟨⟨url, slug, secret, agent, delta, mutex, pending, retries, waiting⟩, net, k, t⟩
  dsimp only at free idle
  subst free idle
  rfl

theorem checkTimestamp_of_pending {c : Core P ι} (free : c.server.requestMutex = false)
    {r : ReplyId} (pending : c.server.pendingReply = some r) (h : ι) :
    c.checkTimestamp h = some (false, c.append h) := by
  rcases c with ⟨⟨url, slug, secret, agent, delta, mutex, reply, retries, waiting⟩, net, k, t⟩
  dsimp only at free pending
  subst free pending
  rfl

theorem checkTimestamp_of_held {c : Core P ι} (held : c.server.requestMutex = true) (h : ι) :
    c.checkTimestamp h = none := by
  rw [checkTimestamp, lock, if_pos held]
  rfl

/-- The reply `r` has been read and `deleteLater` called on it. -/
def discard (c : Core P ι) (r : ReplyId) : Core P ι :=
  { c with network := c.network.deleteLater r }

/-- The server after accepting the time delta the reply `r` carried. -/
def accept (c : Core P ι) (r : ReplyId) (delta : Int64) : Core P ι :=
  ({ c.discard r with
    server := { c.server with currentTimeDelta := delta } }).note (.accepted delta)

/-- The server after an unacceptable reply `r`, with a retry spent on asking again. -/
def askAgain (c : Core P ι) (r : ReplyId) : Core P ι :=
  issueTimeDeltaRequest
    { c.discard r with
      server := { c.server with retriesRemaining := c.server.retriesRemaining - 1 } }

theorem responseReceivedUnlocked_eq {c : Core P ι} {r : ReplyId}
    (pending : c.server.pendingReply = some r) :
    c.responseReceivedUnlocked =
      match replyDelta P (c.network.result r) with
      | some delta => some (c.accept r delta, .updated)
      | none =>
          if 0 < c.server.retriesRemaining then some (c.askAgain r, .retrying)
          else some (c.discard r, .failed) := by
  rw [responseReceivedUnlocked, pending]
  simp only [Option.bind_eq_bind, Option.bind_some, Option.pure_def, replyDelta]
  by_cases clean : (c.network.result r).error = .noError
  · rw [if_pos clean, if_pos clean]
    cases P.fromJson (c.network.result r).body with
    | none => rfl
    | some document =>
        simp only [Server.parseResponse_eq, Option.bind_some]
        cases parsedDelta document with
        | none => rfl
        | some delta => rfl
  · rw [if_neg clean, if_neg clean]
    rfl

theorem beginNotify_of_free {c : Core P ι} (free : c.server.requestMutex = false)
    (updated : Bool) :
    c.beginNotify updated =
      some (({ c with server.requestMutex := true }).note (.notifying updated)) := by
  rw [beginNotify, lock, free]
  rfl

end Core

end RestApiOut
