import Mathlib.Data.List.Infix
import RestApiOut.Library.Text

/-!
# URI references

The part of RFC 3986 needed to say which resource a reference names: `parse` cuts a text into its
five components and `write` puts them together, `percentDecode` gives the octets a component stands
for.  The RFC has no meaning for a `%` that begins no escape; a tolerant parser lets it stand for
itself, and may take it as a sign that the whole component was never encoded (`LonePercent`).
`decode_eq_utf8_iff` says which texts stand for themselves.
-/

namespace Uri

/-! ## Components -/

structure Reference where
  scheme : Option (List Char)
  authority : Option (List Char)
  path : List Char
  query : Option (List Char)
  fragment : Option (List Char)
deriving DecidableEq

/-- The text before the first `c` and, if there is one, the text after it. -/
def cut (c : Char) : List Char → List Char × Option (List Char)
  | [] => ([], none)
  | d :: text =>
      if d = c then ([], some text)
      else
        let (before, after) := cut c text
        (d :: before, after)

def cutScheme (text : List Char) : Option (List Char) × List Char :=
  match cut ':' text with
  | (scheme, some rest) =>
      if scheme = [] ∨ '/' ∈ scheme then (none, text) else (some scheme, rest)
  | (_, none) => (none, text)

def cutAuthority (text : List Char) : Option (List Char) × List Char :=
  match text with
  | a :: b :: rest =>
      if a = '/' ∧ b = '/' then
        (some (rest.takeWhile (· ≠ '/')), rest.dropWhile (· ≠ '/'))
      else (none, text)
  | _ => (none, text)

def parse (text : List Char) : Reference :=
  let (text, fragment) := cut '#' text
  let (text, query) := cut '?' text
  let (scheme, text) := cutScheme text
  let (authority, path) := cutAuthority text
  { scheme, authority, path, query, fragment }

def write (r : Reference) : List Char :=
  r.scheme.elim [] (· ++ [':']) ++ r.authority.elim [] ('/' :: '/' :: ·) ++ r.path ++
    r.query.elim [] ('?' :: ·) ++ r.fragment.elim [] ('#' :: ·)

/-- A scheme and an authority. -/
structure Origin where
  scheme : List Char
  authority : List Char
  named : scheme ≠ []
  schemeChar : ∀ c ∈ scheme, c ≠ ':' ∧ c ≠ '/' ∧ c ≠ '?' ∧ c ≠ '#'
  authorityChar : ∀ c ∈ authority, c ≠ '/' ∧ c ≠ '?' ∧ c ≠ '#'

/-- `scheme://authority`, and nothing after it. -/
def Origin.text (o : Origin) : List Char := o.scheme ++ ':' :: '/' :: '/' :: o.authority

section Cut

variable {c : Char} {before text : List Char}

theorem cut_append (clear : c ∉ before) (text : List Char) :
    cut c (before ++ text) = (before ++ (cut c text).1, (cut c text).2) := by
  induction before with
  | nil => rfl
  | cons d before ih =>
      rw [List.mem_cons, not_or] at clear
      rw [List.cons_append, cut, if_neg (Ne.symm clear.1), ih clear.2]
      rfl

theorem cut_of_notMem (clear : c ∉ text) : cut c text = (text, none) := by
  have whole := cut_append clear []
  rwa [List.append_nil, cut, List.append_nil] at whole

theorem cut_eq_none_iff : (cut c text).2 = none ↔ c ∉ text := by
  constructor
  · intro uncut
    induction text with
    | nil => exact List.not_mem_nil
    | cons d text ih =>
        unfold cut at uncut
        split at uncut
        · cases uncut
        · rename_i other
          exact List.not_mem_cons_of_ne_of_not_mem (Ne.symm other) (ih uncut)
  · intro clear
    rw [cut_of_notMem clear]

theorem cut_cons {d : Char} (other : d ≠ c) :
    cut c (d :: text) = (d :: (cut c text).1, (cut c text).2) := by
  rw [cut, if_neg other]

end Cut

theorem Origin.cut_text (o : Origin) {c : Char} (delimiter : c = '?' ∨ c = '#')
    (rest : List Char) :
    cut c (o.text ++ rest) = (o.text ++ (cut c rest).1, (cut c rest).2) := by
  have clear : c ∉ o.text := by
    intro member
    simp only [text, List.mem_append, List.mem_cons] at member
    rcases member with scheme | colon | slash | slash | authority
    · obtain ⟨-, -, query, fragment⟩ := o.schemeChar c scheme
      exact delimiter.elim query fragment
    · rcases delimiter with rfl | rfl <;> cases colon
    · rcases delimiter with rfl | rfl <;> cases slash
    · rcases delimiter with rfl | rfl <;> cases slash
    · obtain ⟨-, query, fragment⟩ := o.authorityChar c authority
      exact delimiter.elim query fragment
  exact cut_append clear rest

theorem Origin.cutScheme_text (o : Origin) (path : List Char) :
    cutScheme (o.text ++ path) = (some o.scheme, '/' :: '/' :: (o.authority ++ path)) := by
  have colon : ':' ∉ o.scheme := fun member => (o.schemeChar _ member).1 rfl
  have slash : '/' ∉ o.scheme := fun member => (o.schemeChar _ member).2.1 rfl
  have ended : cut ':' (o.text ++ path) =
      (o.scheme, some ('/' :: '/' :: (o.authority ++ path))) := by
    rw [text, List.append_assoc, cut_append colon, List.cons_append, cut, if_pos rfl,
      List.append_nil]
    rfl
  rw [cutScheme, ended]
  exact if_neg (not_or.mpr ⟨o.named, slash⟩)

theorem Origin.cutAuthority_text (o : Origin) (path : List Char) :
    cutAuthority ('/' :: '/' :: (o.authority ++ '/' :: path)) =
      (some o.authority, '/' :: path) := by
  have clear : ∀ c ∈ o.authority, decide (c ≠ '/') = true := fun c member =>
    decide_eq_true (o.authorityChar c member).1
  rw [cutAuthority, if_pos ⟨rfl, rfl⟩, List.takeWhile_append_of_pos clear,
    List.dropWhile_append_of_pos clear, List.takeWhile_cons_of_neg (by simp),
    List.dropWhile_cons_of_neg (by simp), List.append_nil]

/-- What follows an origin, if it begins with a slash, is its path, query and fragment. -/
theorem Origin.parse_text (o : Origin) (rest : List Char) :
    parse (o.text ++ '/' :: rest) =
      { scheme := some o.scheme
        authority := some o.authority
        path := (cut '?' (cut '#' ('/' :: rest)).1).1
        query := (cut '?' (cut '#' ('/' :: rest)).1).2
        fragment := (cut '#' ('/' :: rest)).2 } := by
  have fragment := o.cut_text (.inr rfl) ('/' :: rest)
  have query := o.cut_text (.inl rfl) (cut '#' ('/' :: rest)).1
  have slash : cut '#' ('/' :: rest) = ('/' :: (cut '#' rest).1, (cut '#' rest).2) :=
    cut_cons (by decide)
  have slash' (path : List Char) : cut '?' ('/' :: path) =
      ('/' :: (cut '?' path).1, (cut '?' path).2) := cut_cons (by decide)
  simp only [parse, fragment, query]
  simp only [slash, slash', o.cutScheme_text, o.cutAuthority_text]

/-! ## Percent-encoding -/

/-- The octet `c`, `a`, `b` stand for, if they are a percent sign and two hexadecimal digits. -/
def octet (c a b : Char) : Option UInt8 :=
  if c = '%' then do
    let high ← Text.hexDigit a
    let low ← Text.hexDigit b
    return UInt8.ofNat (high * 16 + low)
  else none

/-- Every escape stands for its octet and everything else for itself. -/
def percentDecode : List Char → List UInt8
  | [] => []
  | [c] => String.utf8EncodeChar c
  | [c, a] => String.utf8EncodeChar c ++ String.utf8EncodeChar a
  | c :: a :: b :: rest =>
      match octet c a b with
      | some octet => octet :: percentDecode rest
      | none => String.utf8EncodeChar c ++ percentDecode (a :: b :: rest)

def startsEscape : List Char → Bool
  | c :: a :: b :: _ => (octet c a b).isSome
  | _ => false

/-- Some `%` begins an escape. -/
def hasEscape (text : List Char) : Bool := text.tails.any startsEscape

/-- Some `%` begins no escape. -/
def hasLonePercent (text : List Char) : Bool :=
  text.tails.any fun rest => rest.head? = some '%' && !startsEscape rest

/-- What a tolerant parser makes of a `%` that begins no escape. -/
inductive LonePercent
  /-- It stands for itself. -/
  | itself
  /-- It makes every `%` of its component stand for itself. -/
  | all

/-- The octets a component stands for. -/
def decode (lone : LonePercent) (text : List Char) : List UInt8 :=
  match lone with
  | .itself => percentDecode text
  | .all => if hasLonePercent text then Text.utf8 text else percentDecode text

/-- Every `%` of the text stands for itself. -/
def Literal (lone : LonePercent) (text : List Char) : Prop :=
  hasEscape text = false ∨ lone = .all ∧ hasLonePercent text = true

/-- Keeps the delimiters of a reference and the percent sign from being read as such. -/
def percentEncode (text : List Char) : List Char :=
  text.flatMap fun c =>
    if c = '%' then ['%', '2', '5']
    else if c = '?' then ['%', '3', 'F']
    else if c = '#' then ['%', '2', '3']
    else [c]

section Percent

variable {text : List Char}

theorem hasEscape_cons (c : Char) :
    hasEscape (c :: text) = (startsEscape (c :: text) || hasEscape text) := by
  rw [hasEscape, List.tails_cons, List.any_cons, hasEscape]

theorem length_pos_utf8EncodeChar (c : Char) : 0 < (String.utf8EncodeChar c).length := by
  rw [String.length_utf8EncodeChar]
  exact c.utf8Size_pos

/-- Decoding never lengthens a text. -/
theorem length_percentDecode_le (text : List Char) :
    (percentDecode text).length ≤ (Text.utf8 text).length := by
  induction text using percentDecode.induct with
  | case1 => exact Nat.le_refl _
  | case2 c => simp [percentDecode]
  | case3 c a => simp [percentDecode]
  | case4 c a b rest o escape ih =>
      have := length_pos_utf8EncodeChar c
      simp only [percentDecode, escape, Text.utf8_cons, List.length_cons, List.length_append]
      omega
  | case5 c a b rest plain ih =>
      simp only [percentDecode, plain]
      rw [Text.utf8_cons, List.length_append, List.length_append]
      exact Nat.add_le_add_left ih _

/-- An escape is three characters for one octet. -/
theorem length_percentDecode_lt (escaped : hasEscape text = true) :
    (percentDecode text).length < (Text.utf8 text).length := by
  induction text using percentDecode.induct with
  | case1 | case2 | case3 => cases escaped
  | case4 c a b rest o escape ih =>
      have := length_pos_utf8EncodeChar c
      have := length_pos_utf8EncodeChar a
      have := length_percentDecode_le rest
      simp only [percentDecode, escape, Text.utf8_cons, List.length_cons, List.length_append]
      omega
  | case5 c a b rest plain ih =>
      rw [hasEscape_cons, startsEscape, plain, Option.isSome_none, Bool.false_or] at escaped
      simp only [percentDecode, plain]
      rw [Text.utf8_cons, List.length_append, List.length_append]
      exact Nat.add_lt_add_left (ih escaped) _

theorem percentDecode_of_not_hasEscape (plain : hasEscape text = false) :
    percentDecode text = Text.utf8 text := by
  induction text using percentDecode.induct with
  | case1 => rfl
  | case2 c => simp [percentDecode]
  | case3 c a => simp [percentDecode]
  | case4 c a b rest o escape ih =>
      rw [hasEscape_cons, startsEscape, escape, Option.isSome_some, Bool.true_or] at plain
      cases plain
  | case5 c a b rest none_ ih =>
      rw [hasEscape_cons, Bool.or_eq_false_iff] at plain
      simp only [percentDecode, none_]
      rw [ih plain.2, ← Text.utf8_cons]

theorem percentDecode_eq_utf8_iff :
    percentDecode text = Text.utf8 text ↔ hasEscape text = false := by
  constructor
  · intro same
    by_contra escaped
    have shorter := length_percentDecode_lt (Bool.of_not_eq_false escaped)
    rw [same] at shorter
    exact Nat.lt_irrefl _ shorter
  · exact percentDecode_of_not_hasEscape

/-- **The texts that stand for themselves.** -/
theorem decode_eq_utf8_iff {lone : LonePercent} :
    decode lone text = Text.utf8 text ↔ Literal lone text := by
  cases lone with
  | itself => simp [decode, Literal, percentDecode_eq_utf8_iff]
  | all =>
      rcases eq_or_ne (hasLonePercent text) true with found | none_
      · simp [decode, Literal, found]
      · simp [decode, Literal, none_, percentDecode_eq_utf8_iff]

theorem hasLonePercent_cons (c : Char) :
    hasLonePercent (c :: text) =
      ((c = '%' && !startsEscape (c :: text)) || hasLonePercent text) := by
  simp [hasLonePercent]

theorem percentDecode_cons {c : Char} (other : c ≠ '%') :
    percentDecode (c :: text) = String.utf8EncodeChar c ++ percentDecode text := by
  have plain (a b : Char) : octet c a b = none := if_neg other
  rcases text with _ | ⟨a, _ | ⟨b, rest⟩⟩
  · exact (List.append_nil _).symm
  · rfl
  · simp only [percentDecode, plain]

theorem percentEncode_cons {c : Char} (plain : ¬ (c = '%' ∨ c = '?' ∨ c = '#')) :
    percentEncode (c :: text) = c :: percentEncode text := by
  rw [not_or, not_or] at plain
  simp [percentEncode, plain]

/-- An encoded text decodes to the text. -/
theorem percentDecode_percentEncode (text : List Char) :
    percentDecode (percentEncode text) = Text.utf8 text := by
  induction text with
  | nil => rfl
  | cons c text ih =>
      rw [Text.utf8_cons, ← ih]
      rcases em (c = '%' ∨ c = '?' ∨ c = '#') with (rfl | rfl | rfl) | plain
      · rfl
      · rfl
      · rfl
      · rw [percentEncode_cons plain, percentDecode_cons (not_or.mp plain).1]

theorem hasLonePercent_percentEncode (text : List Char) :
    hasLonePercent (percentEncode text) = false := by
  induction text with
  | nil => rfl
  | cons c text ih =>
      have escaped (a b : Char) (digits : (octet '%' a b).isSome = true ∧ a ≠ '%' ∧ b ≠ '%') :
          hasLonePercent ('%' :: a :: b :: percentEncode text) = false := by
        simp [hasLonePercent_cons, startsEscape, digits, ih]
      rcases em (c = '%' ∨ c = '?' ∨ c = '#') with (rfl | rfl | rfl) | plain
      · exact escaped '2' '5' (by decide)
      · exact escaped '3' 'F' (by decide)
      · exact escaped '2' '3' (by decide)
      · rw [percentEncode_cons plain, hasLonePercent_cons, ih]
        simp [(not_or.mp plain).1]

theorem decode_percentEncode (lone : LonePercent) (text : List Char) :
    decode lone (percentEncode text) = Text.utf8 text := by
  cases lone with
  | itself => exact percentDecode_percentEncode text
  | all =>
      rw [decode, hasLonePercent_percentEncode, if_neg Bool.false_ne_true,
        percentDecode_percentEncode]

end Percent

end Uri
