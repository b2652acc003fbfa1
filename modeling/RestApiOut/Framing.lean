import RestApiOut.KeyBuffer
import RestApiOut.Library.Json

/-!
# Message framing

What a receiver makes of a message: `Kind.unframe` reads the payload and the hash back, from a JSON
object by parsing it and decoding its two members, from a binary message by cutting off its last
`hashLength` bytes, and `accepts` recomputes the hash.  `framing_round_trips` says that both
framings carry exactly the payload and its HMAC, whatever the payload looks like.
-/

namespace RestApiOut

variable {P : Platform} {ι : Type}

/-- `InesonicRestHandlerBase::hashLength`, the size of a SHA-256 digest. -/
def hashLength : Nat := 32

/-! ## The receiver -/

/-- The payload and the hash of a JSON message. -/
def InesonicRestHandler.unframe (message : Bytes) : Option (Bytes × Bytes) := do
  let members ← Json.parseUtf8 message
  let data ← members.lookup "data"
  let hash ← members.lookup "hash"
  let payload ← Base64.decode data.toList
  let digest ← Base64.decode hash.toList
  return (payload, digest)

/-- The payload and the hash of a binary message. -/
def InesonicBinaryRestHandler.unframe (message : Bytes) : Option (Bytes × Bytes) :=
  if hashLength ≤ message.length then some (message.splitAt (message.length - hashLength)) else none

def Kind.unframe : Kind → Bytes → Option (Bytes × Bytes)
  | .json => InesonicRestHandler.unframe
  | .binary => InesonicBinaryRestHandler.unframe

/-- The payload a receiver with this key takes from a message. -/
def accepts (P : Platform) (kind : Kind) (key message : Bytes) : Option Bytes := do
  let (payload, hash) ← kind.unframe message
  if P.hmac key payload = hash then return payload else none

/-! ## Standard JSON -/

/-- The string needs no escape in JSON. -/
def Plain (s : String) : Prop := ∀ c ∈ s.toList, Json.isUnescaped c = true

/-- The compact output of an object of plain strings is a JSON text of these members, in some
order. -/
def CompactIsJson (P : Platform) : Prop :=
  ∀ (o : JsonObject) (members : List (String × String)),
    o.members = members.map (fun m => (m.1, .string m.2)) →
    (∀ m ∈ members, Plain m.1 ∧ Plain m.2) →
    ∃ text written, P.toJson (P.ofObject o) = Text.utf8 text ∧ Json.Object text written ∧
      written.Perm members

theorem plain_encode (bytes : Bytes) : Plain (String.ofList (Base64.encode bytes)) := by
  have alphabet : ∀ n < 64, Json.isUnescaped (Base64.symbol n) = true := by decide
  intro c member
  rw [String.toList_ofList] at member
  rcases Base64.mem_encode member with rfl | ⟨n, group, rfl⟩
  · rfl
  · exact alphabet n group

/-! ## What is framed is read back -/

/-- The members of a JSON message, as strings. -/
def messageMembers (payload hash : Bytes) : List (String × String) :=
  [("data", String.ofList (Base64.encode payload)), ("hash", String.ofList (Base64.encode hash))]

theorem plain_messageMembers (payload hash : Bytes) :
    ∀ m ∈ messageMembers payload hash, Plain m.1 ∧ Plain m.2 := by
  have names : Plain "data" ∧ Plain "hash" :=
    ⟨List.all_eq_true.mp (by decide), List.all_eq_true.mp (by decide)⟩
  intro m member
  simp only [messageMembers, List.mem_cons, List.not_mem_nil, or_false] at member
  rcases member with rfl | rfl
  · exact ⟨names.1, plain_encode payload⟩
  · exact ⟨names.2, plain_encode hash⟩

theorem InesonicRestHandler.unframe_frame (compact : CompactIsJson P) (payload hash : Bytes) :
    unframe (frame P payload hash) = some (payload, hash) := by
  obtain ⟨text, written, sent, object, perm⟩ := compact (jsonMessage payload hash)
    (messageMembers payload hash) rfl (plain_messageMembers payload hash)
  have distinct : ((messageMembers payload hash).map Prod.fst).Nodup := by simp [messageMembers]
  have data := Json.lookup_of_perm perm distinct List.mem_cons_self
  have hashed := Json.lookup_of_perm perm distinct (List.mem_cons_of_mem _ List.mem_cons_self)
  simp [unframe, frame, sent, Json.parseUtf8_of_object object, data, hashed, Base64.decode_encode]

theorem InesonicBinaryRestHandler.unframe_frame (payload : Bytes) {hash : Bytes}
    (digest : hash.length = hashLength) : unframe (frame payload hash) = some (payload, hash) := by
  have size : (payload ++ hash).length - hashLength = payload.length := by
    rw [List.length_append, digest, Nat.add_sub_cancel]
  have enough : hashLength ≤ (payload ++ hash).length := by
    rw [List.length_append, digest]
    exact Nat.le_add_left _ _
  rw [frame, unframe, if_pos enough, size, List.splitAt_eq, List.take_left, List.drop_left]

/-- Either framing is undone by its receiver. -/
theorem Kind.unframe_frame (compact : CompactIsJson P) (kind : Kind) (payload : Bytes)
    {hash : Bytes} (digest : hash.length = hashLength) :
    kind.unframe (kind.frame P payload hash) = some (payload, hash) := by
  cases kind with
  | json => exact InesonicRestHandler.unframe_frame compact payload hash
  | binary => exact InesonicBinaryRestHandler.unframe_frame payload digest

theorem accepts_of_unframe {kind : Kind} {key message payload : Bytes}
    (read : kind.unframe message = some (payload, P.hmac key payload)) :
    accepts P kind key message = some payload := by
  simp [accepts, read]

namespace World

/-- The key the next message of `h` is signed with: the effective secret and the current window. -/
def signingKey (w : World P ι) (h : ι) : Bytes :=
  writeWindow (keyBuffer (w.handler h).currentSecret w.server.currentDefaultSecret)
    (hashSuffix (P.clock w.ticks) w.server.currentTimeDelta)

theorem body_message (w : World P ι) (h : ι) : (w.message h).request.body =
    (w.handler h).kind.frame P (w.handler h).currentPayload
      (P.hmac (w.signingKey h) (w.handler h).currentPayload) := by
  rw [signingKey, ← calculateHash_eq]
  rfl

variable [DecidableEq ι]

/-- **Both framings carry the payload and its HMAC.**  For every payload and key a receiver reads
exactly that pair back and, with the key, accepts the message; different payloads give different
messages, whatever they are signed with; and the message `timestampUpdated` sends is such a framing
of the current payload under the effective key. -/
theorem framing_round_trips (compact : CompactIsJson P)
    (digests : ∀ key payload, (P.hmac key payload).length = hashLength) :
    (∀ (kind : Kind) (key payload : Bytes),
      kind.unframe (kind.frame P payload (P.hmac key payload)) =
          some (payload, P.hmac key payload) ∧
        accepts P kind key (kind.frame P payload (P.hmac key payload)) = some payload) ∧
      (∀ (kind : Kind) (key key' payload payload' : Bytes), payload ≠ payload' →
        kind.frame P payload (P.hmac key payload) ≠
          kind.frame P payload' (P.hmac key' payload')) ∧
      ∀ (w : World P ι) (h : ι), ∃ superseded r m,
        (w.timestampUpdated h).trace = .sent h superseded r m :: w.trace ∧
          (w.handler h).kind.unframe m.request.body =
            some ((w.handler h).currentPayload,
              P.hmac (w.signingKey h) (w.handler h).currentPayload) ∧
          accepts P (w.handler h).kind (w.signingKey h) m.request.body =
            some (w.handler h).currentPayload := by
  have read : ∀ (kind : Kind) (key payload : Bytes),
      kind.unframe (kind.frame P payload (P.hmac key payload)) =
        some (payload, P.hmac key payload) := fun kind key payload =>
    kind.unframe_frame compact payload (digests key payload)
  refine ⟨fun kind key payload => ⟨read kind key payload, accepts_of_unframe (read _ _ _)⟩,
    fun kind key key' payload payload' different same => ?_, fun w h => ?_⟩
  · have first := read kind key payload
    rw [same, read kind key' payload'] at first
    exact different (Prod.mk.inj (Option.some.inj first)).1.symm
  · have body := read (w.handler h).kind (w.signingKey h) (w.handler h).currentPayload
    rw [← body_message] at body
    exact ⟨_, _, _, trace_timestampUpdated w h, body, accepts_of_unframe body⟩

end World

/-! ## The sample platform writes standard JSON -/

namespace Sample

/-- A plain string between its quotation marks. -/
def quoted (s : String) : List Char := Json.quotationMark :: s.toList ++ [Json.quotationMark]

def memberText (m : String × String) : List Char :=
  quoted m.1 ++ Json.nameSeparator :: quoted m.2

def membersText : List (String × String) → List Char
  | [] => []
  | [m] => memberText m
  | m :: n :: ms => memberText m ++ Json.valueSeparator :: membersText (n :: ms)

theorem text_eq_utf8 (s : String) : text s = Text.utf8 s.toList := by
  have bytes : s.toUTF8 = (Text.utf8 s.toList).toByteArray := String.utf8Encode_toList.symm
  rw [text, bytes, List.data_toByteArray]

/-- What `compact` writes for one member. -/
theorem compact_member (m : String × String) :
    text "\"" ++ text m.1 ++ text "\":" ++ compactValue (.string m.2) =
      Text.utf8 (memberText m) := by
  simp only [compactValue, text_eq_utf8, ← Text.utf8_append, memberText, quoted]
  congr 1
  simp [Json.quotationMark, Json.nameSeparator]

theorem flatten_members (members : List (String × String)) :
    (List.intersperse (text ",") (members.map fun m => Text.utf8 (memberText m))).flatten =
      Text.utf8 (membersText members) := by
  induction members using membersText.induct with
  | case1 => rfl
  | case2 m => simp [membersText]
  | case3 m n ms ih =>
      have comma : text "," = Text.utf8 [Json.valueSeparator] := text_eq_utf8 ","
      rw [List.map_cons] at ih
      rw [List.map_cons, List.map_cons, List.intersperse_cons_cons, List.flatten_cons,
        List.flatten_cons, ih, comma, ← Text.utf8_append, ← Text.utf8_append, membersText,
        List.singleton_append]

theorem characters_of_plain {cs rest : List Char} (plain : ∀ c ∈ cs, Json.isUnescaped c = true) :
    Json.Characters (cs ++ Json.quotationMark :: rest) cs rest := by
  induction cs with
  | nil => exact .close
  | cons c cs ih =>
      have later := ih fun d member => plain d (List.mem_cons_of_mem _ member)
      exact .cons (.plain (plain c List.mem_cons_self)) later

theorem quoted_of_plain {s : String} {rest : List Char} (plain : Plain s) :
    Json.Quoted (quoted s ++ rest) s rest := by
  have characters : Json.Characters (s.toList ++ Json.quotationMark :: rest) s.toList rest :=
    characters_of_plain plain
  have read := Json.Quoted.intro .stop characters
  rw [String.ofList_toList] at read
  simpa [quoted] using read

theorem member_of_plain {m : String × String} {rest : List Char}
    (plain : Plain m.1 ∧ Plain m.2) : Json.Member (memberText m ++ rest) m rest := by
  rw [memberText, List.append_assoc]
  exact .intro (quoted_of_plain plain.1) .stop (quoted_of_plain plain.2)

theorem members_of_plain {members : List (String × String)} {rest : List Char}
    (some_ : members ≠ []) (plain : ∀ m ∈ members, Plain m.1 ∧ Plain m.2) :
    Json.Members (membersText members ++ Json.endObject :: rest) members rest := by
  induction members using membersText.induct with
  | case1 => exact absurd rfl some_
  | case2 m => exact .last (member_of_plain (plain m List.mem_cons_self)) .stop
  | case3 m n ms ih =>
      have later := ih (List.cons_ne_nil n ms) fun k member =>
        plain k (List.mem_cons_of_mem _ member)
      rw [membersText, List.append_assoc]
      exact .more (member_of_plain (plain m List.mem_cons_self)) .stop later

theorem compact_is_json : CompactIsJson Platform.sample := by
  intro o members same plain
  have written : compact o =
      Text.utf8 (Json.beginObject :: membersText members ++ [Json.endObject]) := by
    have texts : o.members.map (fun m => text "\"" ++ text m.1 ++ text "\":" ++ compactValue m.2) =
        members.map fun m => Text.utf8 (memberText m) := by
      rw [same, List.map_map]
      exact List.map_congr_left fun m _ => compact_member m
    have opening : text "\x7b" = Text.utf8 [Json.beginObject] := text_eq_utf8 _
    have closing : text "\x7d" = Text.utf8 [Json.endObject] := text_eq_utf8 _
    rw [compact, texts, flatten_members, opening, closing, ← Text.utf8_append, ← Text.utf8_append]
    rfl
  refine ⟨_, members, written, ?_, .refl _⟩
  rcases eq_or_ne members [] with rfl | some_
  · exact .empty .stop .stop .stop
  · refine .members .stop ?_ .stop
    exact members_of_plain some_ plain

/-- A payload shorter than a hash in a JSON message, and an empty one in a binary message. -/
theorem short_payloads_round_trip :
    Kind.json.unframe (Kind.json.frame Platform.sample [1, 2] (Sha256.hmac [7] [1, 2])) =
        some ([1, 2], Sha256.hmac [7] [1, 2]) ∧
      Kind.binary.unframe (Kind.binary.frame Platform.sample [] (Sha256.hmac [7] [])) =
        some ([], Sha256.hmac [7] []) := by
  obtain ⟨read, -, -⟩ := World.framing_round_trips (ι := Bool) compact_is_json Sha256.length_hmac
  exact ⟨(read .json [7] [1, 2]).1, (read .binary [7] []).1⟩

end Sample

end RestApiOut
