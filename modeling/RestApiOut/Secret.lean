import RestApiOut.Platform

/-!
# Secret buffers and the message hash

The `QByteArray` side of `InesonicRestHandlerBase` and of `Server::setDefaultSecret`, as functions
on byte strings.  A secret occupies the first `secretLength` bytes of an HMAC block; the last
`timestampLength` bytes receive the time window just before a hash is computed.

* `calculateHash_eq_hmac` is the one fact callers need: from a buffer that holds the secret `S` the
  hash is the HMAC under `S` followed by the window, whatever the window bytes held before.
* `Holds` is the buffer invariant, kept by `setSecret` and by `calculateHash` itself.
-/

namespace RestApiOut

variable {P : Platform}

/-- `Crypto::Hmac::blockSize(Sha256)`. -/
def hmacBlockSize : Nat := 64

def timestampLength : Nat := 8

def secretLength : Nat := hmacBlockSize - timestampLength

/-- `QByteArray::resize`: new positions are left uninitialised. -/
def resize (P : Platform) (n : Nat) (buffer : Bytes) : Bytes :=
  buffer.take n ++ (List.range' buffer.length (n - buffer.length)).map P.uninitialised

/-- `memcpy(target, source, n)`. -/
def memcpy (target source : Bytes) (n : Nat) : Bytes :=
  source.take n ++ target.drop n

/-- The body shared by `InesonicRestHandlerBase::setSecret` and `Server::setDefaultSecret`. -/
def storeSecret (P : Platform) (current newSecret : Bytes) : Bytes :=
  memcpy (resize P hmacBlockSize (P.scrub current)) newSecret secretLength

/-- The bytes of a 64-bit word on a little-endian host. -/
def littleEndian (w : UInt64) : Bytes :=
  (List.range timestampLength).map fun i => UInt8.ofNat (w.toNat / 256 ^ i)

/-- `rawSecret[secretLength / 8] = hashSuffix`, and what of it falls into the array. -/
def writeWindow (buffer : Bytes) (hashSuffix : UInt64) : Bytes :=
  (buffer.take secretLength ++ littleEndian hashSuffix ++ buffer.drop hmacBlockSize).take
    buffer.length

/-- `(currentTimestamp + timeDelta) / 30`, unsigned long long plus long long. -/
def hashSuffix (currentTimestamp timeDelta : Int64) : UInt64 :=
  (currentTimestamp.toUInt64 + timeDelta.toUInt64) / 30

/-- `InesonicRestHandlerBase::calculateHash`: the digest, and what it leaves in `currentSecret`.
The default secret is copied before the window is written, so the server's buffer is only read. -/
def calculateHash (P : Platform) (currentSecret currentDefaultSecret : Bytes)
    (currentTimestamp timeDelta : Int64) (payload : Bytes) : Bytes × Bytes :=
  let suffix := hashSuffix currentTimestamp timeDelta
  if currentSecret ≠ [] then
    let rawSecret := writeWindow currentSecret suffix
    (P.hmac rawSecret payload, rawSecret)
  else
    let fullSecret := writeWindow currentDefaultSecret suffix
    (P.hmac fullSecret payload, currentSecret)

/-! ## What the other side computes -/

/-- The eight bytes of a 64-bit number, the low one first: byte `i` is `n / 256 ^ i` modulo 256. -/
def wordBytes (n : Nat) : Bytes :=
  (List.range 8).map fun i => UInt8.ofNat (n / 256 ^ i % 256)

/-- The number of whole half minutes in the sum of the clock and the delta modulo `2 ^ 64`. -/
def windowNumber (clock timeDelta : Int64) : Nat :=
  ((clock.toInt + timeDelta.toInt) % 2 ^ 64).toNat / 30

theorem littleEndian_eq (w : UInt64) : littleEndian w = wordBytes w.toNat := by
  refine List.map_congr_left fun i _ => ?_
  rw [← UInt8.toNat_inj, UInt8.toNat_ofNat', UInt8.toNat_ofNat', Nat.mod_mod]

theorem toNat_toUInt64 (x : Int64) : (x.toUInt64.toNat : ℤ) = x.toInt % 2 ^ 64 := by
  have bound := x.toBitVec.isLt
  rw [← Int64.toNat_toBitVec, ← Int64.toInt_toBitVec, BitVec.toInt_eq_toNat_bmod]
  change _ = Int.bmod _ (2 ^ 64 : ℕ) % (2 ^ 64 : ℕ)
  rw [Int.bmod_emod]
  omega

/-- The mixed signed and unsigned sum is the sum modulo `2 ^ 64`. -/
theorem toNat_hashSuffix_eq (currentTimestamp timeDelta : Int64) :
    (hashSuffix currentTimestamp timeDelta).toNat = windowNumber currentTimestamp timeDelta := by
  have left := toNat_toUInt64 currentTimestamp
  have right := toNat_toUInt64 timeDelta
  rw [hashSuffix, UInt64.toNat_div, UInt64.toNat_add, windowNumber]
  change _ / 30 = _ / 30
  omega

/-- The window bytes of a key are those of the window number. -/
theorem littleEndian_hashSuffix (currentTimestamp timeDelta : Int64) :
    littleEndian (hashSuffix currentTimestamp timeDelta) =
      wordBytes (windowNumber currentTimestamp timeDelta) := by
  rw [littleEndian_eq, toNat_hashSuffix_eq]

/-! ## Buffer lengths -/

@[simp] theorem length_littleEndian (w : UInt64) : (littleEndian w).length = timestampLength := by
  simp [littleEndian]

theorem length_resize (n : Nat) (buffer : Bytes) : (resize P n buffer).length = n := by
  simp only [resize, List.length_append, List.length_take, List.length_map, List.length_range']
  omega

theorem length_storeSecret {current newSecret : Bytes} (long : newSecret.length = secretLength) :
    (storeSecret P current newSecret).length = hmacBlockSize := by
  simp only [storeSecret, memcpy, List.length_append, List.length_take, List.length_drop,
    length_resize, long]
  decide

/-- On an HMAC block the window replaces the last bytes. -/
theorem writeWindow_of_block {buffer : Bytes} (block : buffer.length = hmacBlockSize)
    (w : UInt64) : writeWindow buffer w = buffer.take secretLength ++ littleEndian w := by
  rw [writeWindow, List.drop_of_length_le (Nat.le_of_eq block), List.append_nil]
  apply List.take_of_length_le
  rw [List.length_append, List.length_take, length_littleEndian, block]
  decide

theorem length_writeWindow {buffer : Bytes} (long : buffer.length = hmacBlockSize) (w : UInt64) :
    (writeWindow buffer w).length = hmacBlockSize := by
  rw [writeWindow_of_block long, List.length_append, List.length_take, length_littleEndian, long]
  decide

/-! ## Buffers that hold a secret -/

/-- The buffer is one HMAC block whose first `secretLength` bytes are the secret. -/
structure Holds (buffer secret : Bytes) : Prop where
  block : buffer.length = hmacBlockSize
  secret : buffer.take secretLength = secret

theorem Holds.ne_nil {buffer secret : Bytes} (holds : Holds buffer secret) : buffer ≠ [] := by
  intro empty
  have block := holds.block
  rw [empty] at block
  cases block

theorem Holds.storeSecret {current newSecret : Bytes} (long : newSecret.length = secretLength) :
    Holds (storeSecret P current newSecret) newSecret := by
  refine ⟨length_storeSecret long, ?_⟩
  rw [RestApiOut.storeSecret, memcpy, ← long, List.take_length, List.take_left]

/-- Writing a window keeps the secret, so window bytes never accumulate. -/
theorem Holds.writeWindow {buffer secret : Bytes} (holds : Holds buffer secret) (w : UInt64) :
    Holds (writeWindow buffer w) secret := by
  refine ⟨length_writeWindow holds.block w, ?_⟩
  have enough : (buffer.take secretLength).length = secretLength := by
    rw [List.length_take, holds.block]
    decide
  rw [writeWindow_of_block holds.block, List.take_append_of_le_length enough.ge, List.take_take,
    Nat.min_self, holds.secret]

/-- The key a written window leaves is the secret followed by that window, and nothing else. -/
theorem Holds.writeWindow_eq {buffer secret : Bytes} (holds : Holds buffer secret) (w : UInt64) :
    RestApiOut.writeWindow buffer w = secret ++ littleEndian w := by
  rw [writeWindow_of_block holds.block, holds.secret]

/-- A buffer holds the secret it was last given, and is empty before. -/
def Keeps (buffer : Bytes) : Option Bytes → Prop
  | none => buffer = []
  | some secret => Holds buffer secret

theorem Keeps.ne_nil_iff {buffer : Bytes} {last : Option Bytes} (keeps : Keeps buffer last) :
    buffer ≠ [] ↔ last.isSome := by
  cases last with
  | none => simpa [Keeps] using keeps
  | some secret => simpa using Holds.ne_nil keeps

/-! ## The hash -/

/-- The secret a handler signs with: its own when it has one, else the server's. -/
inductive Signs (currentSecret currentDefaultSecret secret : Bytes) : Prop
  | own (holds : Holds currentSecret secret)
  | default (empty : currentSecret = []) (holds : Holds currentDefaultSecret secret)

/-- The hash is the HMAC under the effective secret followed by the current window. -/
theorem calculateHash_eq_hmac {currentSecret currentDefaultSecret secret : Bytes}
    (signs : Signs currentSecret currentDefaultSecret secret) (currentTimestamp timeDelta : Int64)
    (payload : Bytes) :
    (calculateHash P currentSecret currentDefaultSecret currentTimestamp timeDelta payload).1 =
      P.hmac (secret ++ littleEndian (hashSuffix currentTimestamp timeDelta)) payload := by
  cases signs with
  | own holds =>
      rw [calculateHash, if_pos holds.ne_nil]
      exact congrArg (P.hmac · payload) (holds.writeWindow_eq _)
  | default empty holds =>
      rw [calculateHash, if_neg (not_not.mpr empty)]
      exact congrArg (P.hmac · payload) (holds.writeWindow_eq _)

/-- Hashing keeps a private secret in place. -/
theorem Holds.calculateHash {currentSecret secret : Bytes} (holds : Holds currentSecret secret)
    (currentDefaultSecret : Bytes) (currentTimestamp timeDelta : Int64) (payload : Bytes) :
    Holds (calculateHash P currentSecret currentDefaultSecret currentTimestamp timeDelta
      payload).2 secret := by
  rw [RestApiOut.calculateHash, if_pos holds.ne_nil]
  exact holds.writeWindow _

/-- Hashing under the default secret gives the handler no secret of its own. -/
theorem calculateHash_secret_of_empty (currentDefaultSecret : Bytes)
    (currentTimestamp timeDelta : Int64) (payload : Bytes) :
    (calculateHash P [] currentDefaultSecret currentTimestamp timeDelta payload).2 = [] := by
  rw [calculateHash, if_neg (not_not.mpr rfl)]

end RestApiOut
