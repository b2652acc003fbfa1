import RestApiOut.Library.Text

/-!
# JSON objects of strings

The part of RFC 8259 needed to read a flat object whose members are strings: insignificant
whitespace, every escape of a string, members in any order.  The grammar is a family of relations
from a text to what is left of it, so that a production can be read off with any continuation;
`parse` is a parser for it, and `parse_of_object` says that it reads everything the grammar derives.
`parseUtf8` reads the bytes a text travels as.
-/

namespace Json

/-! ## Characters -/

def beginObject : Char := '\x7b'

def endObject : Char := '\x7d'

def nameSeparator : Char := ':'

def valueSeparator : Char := ','

def quotationMark : Char := '\x22'

def reverseSolidus : Char := '\x5c'

def isSpace (c : Char) : Bool := c = ' ' || c = '\t' || c = '\n' || c = '\r'

/-- The character a two-character escape stands for. -/
def escaped (c : Char) : Option Char :=
  if c = quotationMark ∨ c = reverseSolidus ∨ c = '/' then some c
  else if c = 'b' then some '\x08'
  else if c = 'f' then some '\x0c'
  else if c = 'n' then some '\n'
  else if c = 'r' then some '\r'
  else if c = 't' then some '\t'
  else none

/-- A character that may stand in a string as it is. -/
def isUnescaped (c : Char) : Bool := 0x20 ≤ c.toNat && c ≠ quotationMark && c ≠ reverseSolidus

/-- Four hexadecimal digits and what follows them. -/
def hexUnit : List Char → Option (Nat × List Char)
  | a :: b :: c :: d :: rest => do
      let a ← Text.hexDigit a
      let b ← Text.hexDigit b
      let c ← Text.hexDigit c
      let d ← Text.hexDigit d
      return (((a * 16 + b) * 16 + c) * 16 + d, rest)
  | _ => none

/-- The code point of a surrogate pair. -/
def paired (high low : Nat) : Nat := 0x10000 + (high - 0xd800) * 0x400 + (low - 0xdc00)

/-! ## Grammar -/

/-- `Space text rest`: `rest` follows some whitespace at the start of `text`. -/
inductive Space : List Char → List Char → Prop
  | stop {text : List Char} : Space text text
  | skip {c : Char} {text rest : List Char} :
      isSpace c = true → Space text rest → Space (c :: text) rest

/-- One character of a string, as it is written. -/
inductive Written : List Char → Char → List Char → Prop
  | plain {c : Char} {rest : List Char} : isUnescaped c = true → Written (c :: rest) c rest
  | escape {e c : Char} {rest : List Char} :
      escaped e = some c → Written (reverseSolidus :: e :: rest) c rest
  | unicode {text rest : List Char} {n : Nat} :
      hexUnit text = some (n, rest) → n.isValidChar →
      Written (reverseSolidus :: 'u' :: text) (Char.ofNat n) rest
  | pair {text mid rest : List Char} {high low : Nat} :
      hexUnit text = some (high, reverseSolidus :: 'u' :: mid) → 0xd800 ≤ high → high < 0xdc00 →
      hexUnit mid = some (low, rest) → 0xdc00 ≤ low → low < 0xe000 →
      Written (reverseSolidus :: 'u' :: text) (Char.ofNat (paired high low)) rest

/-- The characters of a string after its opening quotation mark. -/
inductive Characters : List Char → List Char → List Char → Prop
  | close {rest : List Char} : Characters (quotationMark :: rest) [] rest
  | cons {text mid rest : List Char} {c : Char} {cs : List Char} :
      Written text c mid → Characters mid cs rest → Characters text (c :: cs) rest

inductive Quoted : List Char → String → List Char → Prop
  | intro {text mid rest : List Char} {cs : List Char} :
      Space text (quotationMark :: mid) → Characters mid cs rest →
      Quoted text (String.ofList cs) rest

inductive Member : List Char → String × String → List Char → Prop
  | intro {text mid value rest : List Char} {k v : String} :
      Quoted text k mid → Space mid (nameSeparator :: value) → Quoted value v rest →
      Member text (k, v) rest

/-- One member or more, up to the end of the object. -/
inductive Members : List Char → List (String × String) → List Char → Prop
  | last {text mid rest : List Char} {m : String × String} :
      Member text m mid → Space mid (endObject :: rest) → Members text [m] rest
  | more {text mid next rest : List Char} {m : String × String} {ms : List (String × String)} :
      Member text m mid → Space mid (valueSeparator :: next) → Members next ms rest →
      Members text (m :: ms) rest

/-- A JSON text that is an object with these members. -/
inductive Object : List Char → List (String × String) → Prop
  | empty {text mid rest : List Char} :
      Space text (beginObject :: mid) → Space mid (endObject :: rest) → Space rest [] →
      Object text []
  | members {text mid rest : List Char} {ms : List (String × String)} :
      Space text (beginObject :: mid) → Members mid ms rest → Space rest [] → Object text ms

/-! ## Parser -/

/-- The text after the next character that is no whitespace, if that is `c`. -/
def expect (c : Char) (text : List Char) : Option (List Char) :=
  match text.dropWhile isSpace with
  | [] => none
  | d :: rest => if d = c then some rest else none

def readUnicode (text : List Char) : Option (Char × List Char) := do
  let (n, rest) ← hexUnit text
  if n.isValidChar then return (Char.ofNat n, rest)
  else if 0xd800 ≤ n ∧ n < 0xdc00 then
    match rest with
    | a :: b :: rest =>
        if a = reverseSolidus ∧ b = 'u' then do
          let (low, rest) ← hexUnit rest
          if 0xdc00 ≤ low ∧ low < 0xe000 then return (Char.ofNat (paired n low), rest) else none
        else none
    | _ => none
  else none

def readWritten : List Char → Option (Char × List Char)
  | [] => none
  | c :: rest =>
      if c = reverseSolidus then
        match rest with
        | [] => none
        | e :: rest => if e = 'u' then readUnicode rest else (escaped e).map (·, rest)
      else if isUnescaped c then some (c, rest)
      else none

/-- At most `n` characters and the closing quotation mark. -/
def readCharacters : Nat → List Char → Option (List Char × List Char)
  | _, [] => none
  | 0, c :: rest => if c = quotationMark then some ([], rest) else none
  | n + 1, c :: rest =>
      if c = quotationMark then some ([], rest)
      else do
        let (c, rest) ← readWritten (c :: rest)
        let (cs, rest) ← readCharacters n rest
        return (c :: cs, rest)

def readQuoted (text : List Char) : Option (String × List Char) := do
  let text ← expect quotationMark text
  let (cs, rest) ← readCharacters text.length text
  return (String.ofList cs, rest)

def readMember (text : List Char) : Option ((String × String) × List Char) := do
  let (k, text) ← readQuoted text
  let text ← expect nameSeparator text
  let (v, text) ← readQuoted text
  return ((k, v), text)

/-- At most `n` members and the end of the object. -/
def readMembers : Nat → List Char → Option (List (String × String) × List Char)
  | 0, _ => none
  | n + 1, text => do
      let (m, text) ← readMember text
      match expect valueSeparator text with
      | some text =>
          let (ms, text) ← readMembers n text
          return (m :: ms, text)
      | none =>
          let text ← expect endObject text
          return ([m], text)

/-- The members of an object of strings, in the order they are written. -/
def parse (text : List Char) : Option (List (String × String)) := do
  let text ← expect beginObject text
  match expect endObject text with
  | some rest => if rest.dropWhile isSpace = [] then return [] else none
  | none =>
      let (ms, rest) ← readMembers text.length text
      if rest.dropWhile isSpace = [] then return ms else none

/-! ## Productions shorten the text -/

variable {text mid rest : List Char}

theorem Space.length_le (space : Space text rest) : rest.length ≤ text.length := by
  induction space with
  | stop => exact Nat.le_refl _
  | skip _ _ ih => exact Nat.le_succ_of_le ih

theorem length_hexUnit {n : Nat} (unit : hexUnit text = some (n, rest)) :
    text.length = rest.length + 4 := by
  unfold hexUnit at unit
  split at unit
  · simp only [Option.bind_eq_bind, Option.bind_eq_some_iff, Option.pure_def,
      Option.some.injEq, Prod.mk.injEq] at unit
    obtain ⟨_, -, _, -, _, -, _, -, -, rfl⟩ := unit
    rfl
  · cases unit

theorem Written.length_lt {c : Char} (written : Written text c rest) :
    rest.length < text.length := by
  cases written with
  | plain => exact Nat.lt_succ_self _
  | escape => exact Nat.lt_succ_of_lt (Nat.lt_succ_self _)
  | unicode unit =>
      have := length_hexUnit unit
      simp only [List.length_cons]
      omega
  | pair unit _ _ second =>
      have first := length_hexUnit unit
      have := length_hexUnit second
      simp only [List.length_cons] at first ⊢
      omega

theorem Characters.length_lt {cs : List Char} (characters : Characters text cs rest) :
    cs.length + rest.length < text.length := by
  induction characters with
  | close => simp
  | cons written _ ih =>
      have := written.length_lt
      simp only [List.length_cons]
      omega

theorem Quoted.length_lt {s : String} (quoted : Quoted text s rest) :
    rest.length < text.length := by
  obtain ⟨space, characters⟩ := quoted
  have opened := space.length_le
  have := characters.length_lt
  simp only [List.length_cons] at opened
  omega

theorem Member.length_lt {m : String × String} (member : Member text m rest) :
    rest.length < text.length := by
  obtain ⟨key, space, value⟩ := member
  have := key.length_lt
  have separated := space.length_le
  have := value.length_lt
  simp only [List.length_cons] at separated
  omega

theorem Members.length_le {ms : List (String × String)} (members : Members text ms rest) :
    ms.length ≤ text.length := by
  induction members with
  | last member =>
      have := member.length_lt
      rw [List.length_singleton]
      omega
  | more member space _ ih =>
      have := member.length_lt
      have separated := space.length_le
      simp only [List.length_cons] at separated ⊢
      omega

/-! ## The parser reads what the grammar derives -/

theorem Space.dropWhile_nil (space : Space text []) : text.dropWhile isSpace = [] := by
  generalize ended : ([] : List Char) = rest at space
  induction space with
  | stop =>
      subst ended
      rfl
  | skip white _ ih => rw [List.dropWhile_cons_of_pos white, ih ended]

theorem Space.dropWhile_cons {c : Char} (space : Space text (c :: rest))
    (visible : isSpace c = false) : text.dropWhile isSpace = c :: rest := by
  generalize next : c :: rest = left at space
  induction space with
  | stop =>
      subst next
      rw [List.dropWhile_cons_of_neg (by simp [visible])]
  | skip white _ ih => rw [List.dropWhile_cons_of_pos white, ih next]

theorem expect_of_space {c : Char} (space : Space text (c :: rest)) (visible : isSpace c = false) :
    expect c text = some rest := by
  rw [expect, space.dropWhile_cons visible]
  exact if_pos rfl

theorem expect_of_other {c d : Char} (space : Space text (d :: rest)) (visible : isSpace d = false)
    (other : d ≠ c) : expect c text = none := by
  rw [expect, space.dropWhile_cons visible]
  exact if_neg other

theorem ne_of_isUnescaped {c : Char} (unescaped : isUnescaped c = true) :
    c ≠ quotationMark ∧ c ≠ reverseSolidus := by
  simp only [isUnescaped, Bool.and_eq_true, decide_eq_true_eq] at unescaped
  exact ⟨unescaped.1.2, unescaped.2⟩

theorem readWritten_of_written {c : Char} (written : Written text c rest) :
    readWritten text = some (c, rest) := by
  cases written with
  | plain unescaped => simp [readWritten, (ne_of_isUnescaped unescaped).2, unescaped]
  | @escape e c rest stands =>
      have other : e ≠ 'u' := by
        rintro rfl
        cases stands
      simp [readWritten, other, stands]
  | unicode unit valid => simp [readWritten, readUnicode, unit, valid]
  | @pair text mid rest high low unit above below second aboveLow belowLow =>
      have surrogate : ¬ high.isValidChar := by
        rintro (low | ⟨after, -⟩)
        · omega
        · omega
      simp [readWritten, readUnicode, unit, surrogate, above, below, second, aboveLow, belowLow]

/-- No character is written as a quotation mark alone. -/
theorem Written.head {c : Char} (written : Written text c rest) :
    ∃ d tail, text = d :: tail ∧ d ≠ quotationMark := by
  cases written with
  | plain unescaped => exact ⟨_, _, rfl, (ne_of_isUnescaped unescaped).1⟩
  | escape | unicode | pair => exact ⟨_, _, rfl, by decide⟩

theorem readCharacters_of_characters {cs : List Char} (characters : Characters text cs rest)
    {n : Nat} (enough : cs.length ≤ n) : readCharacters n text = some (cs, rest) := by
  induction characters generalizing n with
  | close => cases n <;> exact if_pos rfl
  | @cons text mid rest c cs written _ ih =>
      obtain ⟨n, rfl⟩ := Nat.exists_eq_add_of_lt (Nat.lt_of_lt_of_le (Nat.succ_pos _) enough)
      obtain ⟨d, tail, rfl, open_⟩ := written.head
      have more := ih (Nat.le_of_succ_le_succ (by simpa using enough))
      simp [readCharacters, open_, readWritten_of_written written, more]

theorem readQuoted_of_quoted {s : String} (quoted : Quoted text s rest) :
    readQuoted text = some (s, rest) := by
  obtain ⟨space, characters⟩ := quoted
  have enough := characters.length_lt
  have opened := expect_of_space space (by decide)
  have fuel := Nat.le_of_lt (Nat.lt_of_le_of_lt (Nat.le_add_right _ _) enough)
  have read := readCharacters_of_characters characters fuel
  simp [readQuoted, opened, read]

theorem readMember_of_member {m : String × String} (member : Member text m rest) :
    readMember text = some (m, rest) := by
  obtain ⟨key, space, value⟩ := member
  have separated := expect_of_space space (by decide)
  simp [readMember, readQuoted_of_quoted key, separated, readQuoted_of_quoted value]

theorem readMembers_of_members {ms : List (String × String)} (members : Members text ms rest)
    {n : Nat} (enough : ms.length ≤ n) : readMembers n text = some (ms, rest) := by
  induction members generalizing n with
  | last member space =>
      obtain ⟨n, rfl⟩ := Nat.exists_eq_add_of_lt (Nat.lt_of_lt_of_le (Nat.succ_pos _) enough)
      have closed := expect_of_space space (by decide)
      have apart := expect_of_other space (by decide) (by decide : endObject ≠ valueSeparator)
      simp [readMembers, readMember_of_member member, apart, closed]
  | more member space _ ih =>
      obtain ⟨n, rfl⟩ := Nat.exists_eq_add_of_lt (Nat.lt_of_lt_of_le (Nat.succ_pos _) enough)
      have separated := expect_of_space space (by decide)
      have rest := ih (Nat.le_of_succ_le_succ (by simpa using enough))
      simp [readMembers, readMember_of_member member, separated, rest]

/-- A member starts with a quotation mark, so it is not mistaken for the end of the object. -/
theorem expect_of_members {ms : List (String × String)} (members : Members text ms rest) :
    expect endObject text = none := by
  cases members with
  | last member | more member =>
      obtain ⟨⟨space, -⟩, -, -⟩ := member
      exact expect_of_other space (by decide) (by decide : quotationMark ≠ endObject)

/-- **Everything the grammar derives is read.** -/
theorem parse_of_object {ms : List (String × String)} (object : Object text ms) :
    parse text = some ms := by
  cases object with
  | empty opens closes ended =>
      have opened := expect_of_space opens (by decide)
      have closed := expect_of_space closes (by decide)
      have nothing := ended.dropWhile_nil
      simp only [parse, opened, closed, nothing, Option.bind_eq_bind, Option.bind_some, if_true,
        Option.pure_def]
  | members opens members ended =>
      have opened := expect_of_space opens (by decide)
      have read := readMembers_of_members members members.length_le
      have unclosed := expect_of_members members
      have nothing := ended.dropWhile_nil
      simp only [parse, opened, unclosed, read, nothing, Option.bind_eq_bind, Option.bind_some,
        if_true, Option.pure_def]

/-! ## Looking a member up -/

/-- Under distinct names, looking a name up finds its member. -/
theorem lookup_eq_some_iff {β : Type*} {members : List (String × β)} {k : String} {v : β}
    (nodup : (members.map Prod.fst).Nodup) : members.lookup k = some v ↔ (k, v) ∈ members := by
  rw [List.lookup_eq_some_iff]
  constructor
  · rintro ⟨before, after, split, -⟩
    rw [split]
    exact List.mem_append_right _ List.mem_cons_self
  · intro member
    obtain ⟨before, after, split⟩ := List.append_of_mem member
    refine ⟨before, after, split, fun other earlier => ?_⟩
    rw [split, List.map_append, List.map_cons, List.nodup_append] at nodup
    have apart := nodup.2.2 _ (List.mem_map_of_mem earlier) k List.mem_cons_self
    simpa [bne_iff_ne] using Ne.symm apart

/-- The order in which members are written does not matter to a lookup. -/
theorem lookup_of_perm {members written : List (String × String)} {k v : String}
    (perm : written.Perm members) (nodup : (members.map Prod.fst).Nodup)
    (member : (k, v) ∈ members) : written.lookup k = some v := by
  have distinct : (written.map Prod.fst).Nodup := (perm.map Prod.fst).nodup_iff.mpr nodup
  exact (lookup_eq_some_iff distinct).mpr (perm.mem_iff.mpr member)

/-! ## UTF-8 -/

def parseUtf8 (bytes : List UInt8) : Option (List (String × String)) :=
  (Text.ofUtf8 bytes).bind parse

theorem parseUtf8_of_object {ms : List (String × String)} (object : Object text ms) :
    parseUtf8 (Text.utf8 text) = some ms := by
  rw [parseUtf8, Text.ofUtf8_utf8, Option.bind_some, parse_of_object object]

end Json
