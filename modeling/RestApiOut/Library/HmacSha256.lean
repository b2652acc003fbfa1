import Mathlib.Algebra.Group.Nat.Defs
import Mathlib.Data.List.Basic

/-!
# HMAC-SHA256

SHA-256 (FIPS 180-4) and HMAC (RFC 2104) over byte lists.  A digest always has `digestLength`
bytes, whatever the key and the message (`length_hmac`).
-/

namespace Sha256

/-- Bytes of a block. -/
def blockLength : Nat := 64

def digestLength : Nat := 32

/-- The eight words of the chaining value. -/
structure Words where
  a : UInt32
  b : UInt32
  c : UInt32
  d : UInt32
  e : UInt32
  f : UInt32
  g : UInt32
  h : UInt32

def initial : Words :=
  ⟨0x6a09e667, 0xbb67ae85, 0x3c6ef372, 0xa54ff53a, 0x510e527f, 0x9b05688c, 0x1f83d9ab, 0x5be0cd19⟩

def roundConstants : List UInt32 :=
  [0x428a2f98, 0x71374491, 0xb5c0fbcf, 0xe9b5dba5, 0x3956c25b, 0x59f111f1, 0x923f82a4, 0xab1c5ed5,
    0xd807aa98, 0x12835b01, 0x243185be, 0x550c7dc3, 0x72be5d74, 0x80deb1fe, 0x9bdc06a7, 0xc19bf174,
    0xe49b69c1, 0xefbe4786, 0x0fc19dc6, 0x240ca1cc, 0x2de92c6f, 0x4a7484aa, 0x5cb0a9dc, 0x76f988da,
    0x983e5152, 0xa831c66d, 0xb00327c8, 0xbf597fc7, 0xc6e00bf3, 0xd5a79147, 0x06ca6351, 0x14292967,
    0x27b70a85, 0x2e1b2138, 0x4d2c6dfc, 0x53380d13, 0x650a7354, 0x766a0abb, 0x81c2c92e, 0x92722c85,
    0xa2bfe8a1, 0xa81a664b, 0xc24b8b70, 0xc76c51a3, 0xd192e819, 0xd6990624, 0xf40e3585, 0x106aa070,
    0x19a4c116, 0x1e376c08, 0x2748774c, 0x34b0bcb5, 0x391c0cb3, 0x4ed8aa4a, 0x5b9cca4f, 0x682e6ff3,
    0x748f82ee, 0x78a5636f, 0x84c87814, 0x8cc70208, 0x90befffa, 0xa4506ceb, 0xbef9a3f7, 0xc67178f2]

def rotateRight (x : UInt32) (n : UInt32) : UInt32 := (x >>> n) ||| (x <<< (32 - n))

/-- `n` bytes of `x`, most significant first. -/
def bigEndian (n x : Nat) : List UInt8 :=
  (List.range n).map fun i => UInt8.ofNat (x / 256 ^ (n - 1 - i))

/-- The word whose bytes are given most significant first. -/
def word (bytes : List UInt8) : UInt32 :=
  UInt32.ofNat (bytes.foldl (fun acc b => acc * 256 + b.toNat) 0)

/-- The message with its padding: a whole number of blocks. -/
def pad (message : List UInt8) : List UInt8 :=
  message ++ 0x80 :: List.replicate ((119 - message.length % blockLength) % blockLength) 0 ++
    bigEndian 8 (8 * message.length)

/-- `n` more words of the message schedule, which is kept newest first. -/
def extend : Nat → List UInt32 → List UInt32
  | 0, newest => newest
  | n + 1, newest =>
      let at' (i : Nat) := newest.getD i 0
      let s0 := rotateRight (at' 14) 7 ^^^ rotateRight (at' 14) 18 ^^^ (at' 14 >>> 3)
      let s1 := rotateRight (at' 1) 17 ^^^ rotateRight (at' 1) 19 ^^^ (at' 1 >>> 10)
      extend n ((s1 + at' 6 + s0 + at' 15) :: newest)

def schedule (block : List UInt8) : List UInt32 :=
  (extend 48 ((List.range 16).map fun i => word ((block.drop (4 * i)).take 4)).reverse).reverse

def round (v : Words) (kw : UInt32 × UInt32) : Words :=
  let s1 := rotateRight v.e 6 ^^^ rotateRight v.e 11 ^^^ rotateRight v.e 25
  let ch := (v.e &&& v.f) ^^^ ((~~~ v.e) &&& v.g)
  let t1 := v.h + s1 + ch + kw.1 + kw.2
  let s0 := rotateRight v.a 2 ^^^ rotateRight v.a 13 ^^^ rotateRight v.a 22
  let maj := (v.a &&& v.b) ^^^ (v.a &&& v.c) ^^^ (v.b &&& v.c)
  ⟨t1 + (s0 + maj), v.a, v.b, v.c, v.d + t1, v.e, v.f, v.g⟩

def compress (v : Words) (block : List UInt8) : Words :=
  let u := (roundConstants.zip (schedule block)).foldl round v
  ⟨v.a + u.a, v.b + u.b, v.c + u.c, v.d + u.d, v.e + u.e, v.f + u.f, v.g + u.g, v.h + u.h⟩

def digest (message : List UInt8) : List UInt8 :=
  let padded := pad message
  let v := (List.range (padded.length / blockLength)).foldl
    (fun v i => compress v ((padded.drop (blockLength * i)).take blockLength)) initial
  [v.a, v.b, v.c, v.d, v.e, v.f, v.g, v.h].flatMap fun x => bigEndian 4 x.toNat

example : (digest [97, 98, 99]).take 4 = [0xba, 0x78, 0x16, 0xbf] := by decide +kernel

/-- The key as one block. -/
def blockKey (key : List UInt8) : List UInt8 :=
  let short := if key.length ≤ blockLength then key else digest key
  short ++ List.replicate (blockLength - short.length) 0

def hmac (key message : List UInt8) : List UInt8 :=
  let block := blockKey key
  digest (block.map (· ^^^ 0x5c) ++ digest (block.map (· ^^^ 0x36) ++ message))

@[simp] theorem length_bigEndian (n x : Nat) : (bigEndian n x).length = n := by
  simp [bigEndian]

theorem length_digest (message : List UInt8) : (digest message).length = digestLength := by
  simp only [digest, List.length_flatMap, length_bigEndian, List.map_cons, List.map_nil,
    List.sum_cons, List.sum_nil]
  decide

theorem length_hmac (key message : List UInt8) : (hmac key message).length = digestLength :=
  length_digest _

end Sha256
