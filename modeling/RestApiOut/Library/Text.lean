import Mathlib.Data.List.Basic

/-!
# Text on the wire

A text travels as its UTF-8 bytes; RFC 8259 and RFC 3986 both write bytes and code points in
hexadecimal digits of either case.
-/

namespace Text

def hexDigit (c : Char) : Option Nat :=
  if '0' ≤ c ∧ c ≤ '9' then some (c.toNat - 48)
  else if 'A' ≤ c ∧ c ≤ 'F' then some (c.toNat - 55)
  else if 'a' ≤ c ∧ c ≤ 'f' then some (c.toNat - 87)
  else none

/-- The bytes a text is transmitted as. -/
def utf8 (text : List Char) : List UInt8 := text.flatMap String.utf8EncodeChar

def ofUtf8 (bytes : List UInt8) : Option (List Char) :=
  bytes.toByteArray.utf8Decode?.map Array.toList

@[simp] theorem utf8_nil : utf8 [] = [] := rfl

@[simp] theorem utf8_cons (c : Char) (text : List Char) :
    utf8 (c :: text) = String.utf8EncodeChar c ++ utf8 text := rfl

theorem utf8_append (text more : List Char) : utf8 (text ++ more) = utf8 text ++ utf8 more :=
  List.flatMap_append

theorem ofUtf8_utf8 (text : List Char) : ofUtf8 (utf8 text) = some text := by
  have encoded : (utf8 text).toByteArray = text.utf8Encode := rfl
  rw [ofUtf8, encoded, List.utf8Decode?_utf8Encode, Option.map_some]

end Text
