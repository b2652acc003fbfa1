import Mathlib.Data.List.Basic

/-!
# Padded base64

The RFC 4648 alphabet, the padded encoder, three bytes at a time, and the decoder, four characters
at a time.  `decode_encode` is the round trip for byte strings of every length.
-/

namespace Base64

/-- The character of a 6-bit group. -/
def symbol (n : Nat) : Char :=
  if n < 26 then Char.ofNat (65 + n)
  else if n < 52 then Char.ofNat (71 + n)
  else if n < 62 then Char.ofNat (n - 4)
  else if n = 62 then '+'
  else '/'

/-- Padded base64 of a byte string. -/
def encode : List UInt8 → List Char
  | [] => []
  | [a] => [symbol (a.toNat / 4), symbol (a.toNat % 4 * 16), '=', '=']
  | [a, b] =>
      [symbol (a.toNat / 4), symbol (a.toNat % 4 * 16 + b.toNat / 16),
        symbol (b.toNat % 16 * 4), '=']
  | a :: b :: c :: rest =>
      symbol (a.toNat / 4) :: symbol (a.toNat % 4 * 16 + b.toNat / 16) ::
        symbol (b.toNat % 16 * 4 + c.toNat / 64) :: symbol (c.toNat % 64) :: encode rest

example : encode [77, 97, 110, 77] = ['T', 'W', 'F', 'u', 'T', 'Q', '=', '='] := by decide

/-- The 6-bit group of a character. -/
def value (c : Char) : Option Nat :=
  if 'A' ≤ c ∧ c ≤ 'Z' then some (c.toNat - 65)
  else if 'a' ≤ c ∧ c ≤ 'z' then some (c.toNat - 71)
  else if '0' ≤ c ∧ c ≤ '9' then some (c.toNat + 4)
  else if c = '+' then some 62
  else if c = '/' then some 63
  else none

/-- The bytes of a padded base64 text. -/
def decode : List Char → Option (List UInt8)
  | [] => some []
  | c :: d :: e :: f :: rest => do
      let m ← value c
      let n ← value d
      let first := UInt8.ofNat (m * 4 + n / 16)
      if f = '=' then
        if rest ≠ [] then none
        else if e = '=' then return [first]
        else
          let k ← value e
          return [first, UInt8.ofNat (n % 16 * 16 + k / 4)]
      else
        let k ← value e
        let l ← value f
        let bytes ← decode rest
        return first :: UInt8.ofNat (n % 16 * 16 + k / 4) :: UInt8.ofNat (k % 4 * 64 + l) :: bytes
  | _ => none

theorem value_symbol {n : Nat} (group : n < 64) : value (symbol n) = some n := by
  have all : ∀ n < 64, value (symbol n) = some n := by decide
  exact all n group

/-- Padding is no character of the alphabet. -/
theorem symbol_ne_pad {n : Nat} (group : n < 64) : symbol n ≠ '=' := by
  have all : ∀ n < 64, symbol n ≠ '=' := by decide
  exact all n group

theorem ofNat_of_eq {a : UInt8} {n : Nat} (same : n = a.toNat) : UInt8.ofNat n = a := by
  rw [same, UInt8.ofNat_toNat]

/-- **What is encoded decodes to itself**, whatever its length leaves modulo 3. -/
theorem decode_encode (bytes : List UInt8) : decode (encode bytes) = some bytes := by
  induction bytes using encode.induct with
  | case1 => rfl
  | case2 a =>
      have size := a.toNat_lt
      have first := value_symbol (by omega : a.toNat / 4 < 64)
      have second := value_symbol (by omega : a.toNat % 4 * 16 < 64)
      simp only [encode, decode, first, second, Option.bind_eq_bind, Option.bind_some,
        Option.pure_def, ne_eq, not_true_eq_false, if_false, if_true, Option.some.injEq,
        List.cons.injEq, and_true]
      exact ofNat_of_eq (by omega)
  | case3 a b =>
      have size := a.toNat_lt
      have size' := b.toNat_lt
      have first := value_symbol (by omega : a.toNat / 4 < 64)
      have second := value_symbol (by omega : a.toNat % 4 * 16 + b.toNat / 16 < 64)
      have third := value_symbol (by omega : b.toNat % 16 * 4 < 64)
      have present := symbol_ne_pad (by omega : b.toNat % 16 * 4 < 64)
      simp only [encode, decode, first, second, third, present, Option.bind_eq_bind,
        Option.bind_some, Option.pure_def, ne_eq, not_true_eq_false, if_false, if_true,
        Option.some.injEq, List.cons.injEq, and_true]
      exact ⟨ofNat_of_eq (by omega), ofNat_of_eq (by omega)⟩
  | case4 a b c rest ih =>
      have size := a.toNat_lt
      have size' := b.toNat_lt
      have size'' := c.toNat_lt
      have first := value_symbol (by omega : a.toNat / 4 < 64)
      have second := value_symbol (by omega : a.toNat % 4 * 16 + b.toNat / 16 < 64)
      have third := value_symbol (by omega : b.toNat % 16 * 4 + c.toNat / 64 < 64)
      have fourth := value_symbol (by omega : c.toNat % 64 < 64)
      have present := symbol_ne_pad (by omega : c.toNat % 64 < 64)
      simp only [encode, decode, first, second, third, fourth, present, ih, Option.bind_eq_bind,
        Option.bind_some, Option.pure_def, if_false, Option.some.injEq, List.cons.injEq, and_true]
      exact ⟨ofNat_of_eq (by omega), ofNat_of_eq (by omega), ofNat_of_eq (by omega)⟩

/-- Every character of an encoding is of the alphabet or padding. -/
theorem mem_encode {c : Char} {bytes : List UInt8} (member : c ∈ encode bytes) :
    c = '=' ∨ ∃ n < 64, c = symbol n := by
  induction bytes using encode.induct with
  | case1 => cases member
  | case2 a =>
      have size := a.toNat_lt
      simp only [encode, List.mem_cons, List.not_mem_nil, or_false] at member
      rcases member with rfl | rfl | padding | padding
      · exact .inr ⟨_, by omega, rfl⟩
      · exact .inr ⟨_, by omega, rfl⟩
      · exact .inl padding
      · exact .inl padding
  | case3 a b =>
      have size := a.toNat_lt
      have size' := b.toNat_lt
      simp only [encode, List.mem_cons, List.not_mem_nil, or_false] at member
      rcases member with rfl | rfl | rfl | padding
      · exact .inr ⟨_, by omega, rfl⟩
      · exact .inr ⟨_, by omega, rfl⟩
      · exact .inr ⟨_, by omega, rfl⟩
      · exact .inl padding
  | case4 a b c rest ih =>
      have size := a.toNat_lt
      have size' := b.toNat_lt
      have size'' := c.toNat_lt
      simp only [encode, List.mem_cons] at member
      rcases member with rfl | rfl | rfl | rfl | later
      · exact .inr ⟨_, by omega, rfl⟩
      · exact .inr ⟨_, by omega, rfl⟩
      · exact .inr ⟨_, by omega, rfl⟩
      · exact .inr ⟨_, by omega, rfl⟩
      · exact ih later

end Base64
