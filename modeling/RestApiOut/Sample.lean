import RestApiOut.Invariant
import RestApiOut.Library.HmacSha256

/-!
# A platform to run the program on

`Platform.sample` interprets what the library takes from outside by executable functions: compact
JSON for flat objects, HMAC-SHA256, a clock that ticks.  A URL is its own text, which is what
`QUrl` gives for a scheme and host followed by a plain path.  A text parses as JSON when it is the
compact form of a time-delta answer.
-/

namespace RestApiOut

namespace Sample

def text (s : String) : Bytes := s.toUTF8.data.toList

/-- Compact JSON.  Strings are taken to need no escapes and numbers to be integers. -/
def compactValue : JsonValue → Bytes
  | .null => text "null"
  | .bool b => text (if b then "true" else "false")
  | .double v => (if v.num < 0 then text "-" else []) ++
      (Nat.toDigits 10 v.num.natAbs).map fun c => UInt8.ofNat c.toNat
  | .string s => text "\"" ++ text s ++ text "\""
  | .array => text "[]"
  | .object => text "\x7b\x7d"

def compact (o : JsonObject) : Bytes :=
  let member (m : String × JsonValue) := text "\"" ++ text m.1 ++ text "\":" ++ compactValue m.2
  text "\x7b" ++ (List.intersperse (text ",") (o.members.map member)).flatten ++ text "\x7d"

/-- The object a server answers a time-delta request with. -/
def timeDeltaAnswer (delta : Int) : JsonObject where
  members := [("status", .string "OK"), ("time_delta", .double delta)]
  nodup := by simp

/-- The first of the answers with a delta below `bound` that has this compact form. -/
def parse (bound : Nat) (body : Bytes) : Option JsonObject :=
  (List.range bound).findSome? fun delta =>
    if compact (timeDeltaAnswer delta) = body then some (timeDeltaAnswer delta) else none

end Sample

/-- A platform of executable functions. -/
def Platform.sample : Platform where
  Url := String
  emptyUrl := ""
  parseUrl := id
  urlString := id
  setPath := fun url path => url ++ path
  Document := JsonObject
  ofObject := id
  rootObject := some
  toJson := Sample.compact
  fromJson := Sample.parse 8
  hmac := Sha256.hmac
  scrub := fun secret => secret.map fun _ => 0
  uninitialised := fun _ => 0
  clock := fun k => 1700000000 + Int64.ofNat k

namespace Sample

abbrev Step := Event Platform.sample Bool

/-- Two handlers, one of each kind, and their server. -/
def world : World Platform.sample Bool :=
  .constructed "https://api.example.com" Server.defaultTimeDeltaSlug
    (fun h => if h then .json else .binary) 0

theorem world_initial : world.Initial := World.constructed_initial _ _ _ _

/-- The result of a reply that failed authentication. -/
def rejected : ReplyResult :=
  ⟨.authenticationRequired, "Host requires authentication", [], none⟩

def succeeded : ReplyResult := ⟨.noError, "Unknown error", [], some "application/octet-stream"⟩

def refused : ReplyResult := ⟨.other 1, "Connection refused", [], none⟩

/-- The server's clock is `delta` seconds ahead. -/
def answered (delta : Nat) : ReplyResult :=
  ⟨.noError, "Unknown error", compact (timeDeltaAnswer delta), some "application/json"⟩

/-- The server is given a default secret. -/
def secret : Step := .call (.setDefaultSecret (List.replicate secretLength 7))

/-- `post` of one byte on the binary handler `false`. -/
def postByte (b : UInt8) : Step := .call (.post false "/v1/data" (.binary [b]))

/-- `post` of an object on the JSON handler `true`. -/
def postObject (delta : Int) : Step :=
  .call (.post true "/v1/object" (.json (timeDeltaAnswer delta)))

/-- The reply `r` arrives and its `finished` signal is delivered. -/
def completes (r : ReplyId) (result : ReplyResult) : List Step := [.arrive r result, .finish r]

/-- The world after some steps; one that is not enabled does nothing. -/
def reached (steps : List Step) : World Platform.sample Bool :=
  steps.foldl (fun w e => (w.step e).getD w) world

end Sample

end RestApiOut
