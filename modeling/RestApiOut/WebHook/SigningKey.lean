import RestApiOut.Secret

/-!
# The key of a web hook

`WebHook::doSend` makes the key of its HMAC from the secret of the hook and the current minute: the
two are repeated until they fill `hmacBlockLength` bytes, and what exceeds twice that is cut off.
Afterwards a loop overwrites the first `2 * hmacBlockLength` bytes of the key, however many it has:
past the end of the array an assignment extends it.

`signing_key_exact` says when the first loop ends, how long the key is, when the second loop stays
inside it and what it leaves, and how much of the minute the key covers: none of it from 64 bytes of
secret on.
-/

namespace RestApiOut

namespace Wh

/-- `hmacBlockLength`, which is the digest size of SHA-256. -/
def hmacBlockLength : Nat := 32

/-- `while (secret.size() < hmacBlockLength) secret += block`, for `fuel` iterations; `none` is a
loop that has not ended by then. -/
def fill (block : Bytes) : Nat → Bytes → Option Bytes
  | 0, secret => if secret.length < hmacBlockLength then none else some secret
  | fuel + 1, secret =>
      if secret.length < hmacBlockLength then fill block fuel (secret ++ block) else some secret

/-- What exceeds `2 * hmacBlockLength` bytes is cleared and cut off. -/
def truncate (secret : Bytes) : Bytes :=
  if 2 * hmacBlockLength < secret.length then
    let cleared := secret.take (2 * hmacBlockLength) ++
      List.replicate (secret.length - 2 * hmacBlockLength) 0
    cleared.take (2 * hmacBlockLength)
  else secret

/-- The key `doSend` hands to `Crypto::Hmac`. -/
def signingKey (currentSecret dateTime : Bytes) (fuel : Nat) : Option Bytes :=
  (fill (currentSecret ++ dateTime) fuel (currentSecret ++ dateTime)).map truncate

/-- `secret[i] = byte` through `QByteArray::operator[]`, which extends the array up to `i`. -/
def assign (P : Platform) (i : Nat) (byte : UInt8) (secret : Bytes) : Bytes :=
  (resize P (max (i + 1) secret.length) secret).set i byte

/-- `count` iterations of the loop that overwrites the key, from position `i` on. -/
def clearFrom (P : Platform) (i : Nat) : Nat → Bytes → Bytes
  | 0, secret => secret
  | count + 1, secret => clearFrom P (i + 1) count (assign P i 0 secret)

/-- `for (unsigned i=0 ; i<(2 * hmacBlockLength) ; ++i) secret[i] = 0`. -/
def clear (P : Platform) (secret : Bytes) : Bytes := clearFrom P 0 (2 * hmacBlockLength) secret

variable {P : Platform} {block secret key s d d' : Bytes} {fuel fuel' : Nat}

/-! ## Filling -/

/-- The loop appends the block, and not once too often. -/
theorem fill_cases (filled : fill block fuel secret = some key) :
    ∃ k, key = secret ++ (List.replicate k block).flatten ∧ hmacBlockLength ≤ key.length ∧
      (k = 0 ∨ key.length < hmacBlockLength + block.length) := by
  induction fuel generalizing secret with
  | zero =>
      rw [fill] at filled
      split at filled
      · cases filled
      · rename_i long
        cases filled
        exact ⟨0, by simp, Nat.le_of_not_lt long, .inl rfl⟩
  | succ fuel ih =>
      rw [fill] at filled
      split at filled
      · rename_i short
        obtain ⟨k, rfl, long, last⟩ := ih filled
        refine ⟨k + 1, by simp [List.replicate_succ], long, .inr ?_⟩
        rcases last with rfl | last
        · simpa using short
        · exact last
      · rename_i long
        cases filled
        exact ⟨0, by simp, Nat.le_of_not_lt long, .inl rfl⟩

/-- Every iteration adds at least a byte. -/
theorem fill_ends (nonempty : block ≠ []) (enough : hmacBlockLength ≤ secret.length + fuel) :
    ∃ key, fill block fuel secret = some key := by
  have grows := List.length_pos_iff.mpr nonempty
  induction fuel generalizing secret with
  | zero => exact ⟨secret, if_neg (by omega)⟩
  | succ fuel ih =>
      rw [fill]
      split
      · apply ih
        rw [List.length_append]
        omega
      · exact ⟨secret, rfl⟩

theorem fill_of_long (long : hmacBlockLength ≤ secret.length) (fuel : Nat) :
    fill block fuel secret = some secret := by
  cases fuel with
  | zero => exact if_neg (Nat.not_lt_of_le long)
  | succ fuel => exact if_neg (Nat.not_lt_of_le long)

/-- The loop ends with one key, whenever it is looked at. -/
theorem fill_unique {key' : Bytes} (filled : fill block fuel secret = some key)
    (filled' : fill block fuel' secret = some key') : key = key' := by
  induction fuel generalizing fuel' secret with
  | zero =>
      rcases Nat.lt_or_ge secret.length hmacBlockLength with short | long
      · rw [fill, if_pos short] at filled
        cases filled
      · rw [fill_of_long long] at filled filled'
        exact Option.some.inj (filled.symm.trans filled')
  | succ fuel ih =>
      rcases Nat.lt_or_ge secret.length hmacBlockLength with short | long
      · cases fuel' with
        | zero =>
            rw [fill, if_pos short] at filled'
            cases filled'
        | succ fuel' =>
            rw [fill, if_pos short] at filled filled'
            exact ih filled filled'
      · rw [fill_of_long long] at filled filled'
        exact Option.some.inj (filled.symm.trans filled')

/-- Nothing is ever filled with nothing. -/
theorem fill_nil (fuel : Nat) : fill [] fuel [] = none := by
  induction fuel with
  | zero => rfl
  | succ fuel ih => exact ih

theorem truncate_eq (secret : Bytes) : truncate secret = secret.take (2 * hmacBlockLength) := by
  rw [truncate]
  split
  · rename_i long
    have kept : (secret.take (2 * hmacBlockLength)).length = 2 * hmacBlockLength := by
      rw [List.length_take]
      omega
    rw [List.take_append_of_le_length kept.ge, List.take_of_length_le kept.le]
  · rename_i short
    exact (List.take_of_length_le (Nat.le_of_not_lt short)).symm

theorem length_repetitions (k : Nat) (block : Bytes) :
    (block ++ (List.replicate k block).flatten).length = block.length + k * block.length := by
  rw [List.length_append, List.length_flatten, List.map_replicate, List.sum_replicate_nat]

/-- The key is the block itself, cut off, or whole repetitions of a short block. -/
theorem signingKey_cases (made : signingKey s d fuel = some key) :
    (key = (s ++ d).take (2 * hmacBlockLength) ∧ hmacBlockLength ≤ (s ++ d).length) ∨
      ∃ k, key = s ++ d ++ (List.replicate k (s ++ d)).flatten ∧ hmacBlockLength ≤ key.length ∧
        0 < k ∧ k * (s ++ d).length < hmacBlockLength := by
  obtain ⟨whole, filled, cut⟩ := Option.map_eq_some_iff.mp made
  obtain ⟨k, rfl, long, last⟩ := fill_cases filled
  rw [truncate_eq] at cut
  have length := length_repetitions k (s ++ d)
  rcases Nat.eq_zero_or_pos k with rfl | more
  · rw [List.replicate_zero, List.flatten_nil, List.append_nil] at cut long
    exact .inl ⟨cut.symm, long⟩
  · have short : k * (s ++ d).length < hmacBlockLength := by
      have last := last.resolve_left (Nat.ne_of_gt more)
      omega
    have block : (s ++ d).length ≤ k * (s ++ d).length := Nat.le_mul_of_pos_left _ more
    rw [List.take_of_length_le (by omega)] at cut
    rw [cut] at long
    exact .inr ⟨k, cut.symm, long, more, short⟩

/-- The key is the fewest whole repetitions of the block that have 32 bytes, cut off after 64. -/
theorem signingKey_repeats (made : signingKey s d fuel = some key) :
    ∃ n, key = (List.replicate (n + 1) (s ++ d)).flatten.take (2 * hmacBlockLength) ∧
      hmacBlockLength ≤ (n + 1) * (s ++ d).length ∧
      (n = 0 ∨ n * (s ++ d).length < hmacBlockLength) := by
  rcases signingKey_cases made with ⟨rfl, long⟩ | ⟨k, rfl, long, more, short⟩
  · refine ⟨0, by simp, ?_, .inl rfl⟩
    rw [Nat.zero_add, Nat.one_mul]
    exact long
  · have block := Nat.le_mul_of_pos_left (s ++ d).length more
    have length := length_repetitions k (s ++ d)
    refine ⟨k, ?_, ?_, .inr short⟩
    · rw [List.replicate_succ, List.flatten_cons, List.take_of_length_le (by omega)]
    · rw [Nat.succ_mul]
      omega

/-- A key has between 32 and 64 bytes, and 64 only if it is not made of repetitions. -/
theorem length_signingKey (made : signingKey s d fuel = some key) :
    hmacBlockLength ≤ key.length ∧ key.length ≤ 2 * hmacBlockLength ∧
      (2 * hmacBlockLength ≤ key.length ↔ 2 * hmacBlockLength ≤ s.length + d.length) := by
  have together : (s ++ d).length = s.length + d.length := List.length_append
  rcases signingKey_cases made with ⟨rfl, long⟩ | ⟨k, rfl, long, more, short⟩
  · rw [List.length_take]
    omega
  · have block := Nat.le_mul_of_pos_left (s ++ d).length more
    rw [length_repetitions] at long ⊢
    omega

theorem signingKey_unique {key' : Bytes} (made : signingKey s d fuel = some key)
    (made' : signingKey s d fuel' = some key') : key = key' := by
  obtain ⟨whole, filled, rfl⟩ := Option.map_eq_some_iff.mp made
  obtain ⟨whole', filled', rfl⟩ := Option.map_eq_some_iff.mp made'
  rw [fill_unique filled filled']

/-- As many iterations as the key has bytes are enough. -/
theorem signingKey_made (nonempty : s ++ d ≠ []) :
    ∃ key, signingKey s d hmacBlockLength = some key := by
  have filled : ∃ whole, fill (s ++ d) hmacBlockLength (s ++ d) = some whole :=
    fill_ends nonempty (Nat.le_add_left _ _)
  obtain ⟨whole, filled⟩ := filled
  exact ⟨truncate whole, by rw [signingKey, filled, Option.map_some]⟩

/-! ## Clearing -/

theorem resize_self (secret : Bytes) : resize P secret.length secret = secret := by
  simp [resize]

/-- An assignment inside the array or right behind it. -/
theorem assign_eq {i : Nat} {byte : UInt8} (near : i ≤ secret.length) :
    assign P i byte secret = secret.take i ++ [byte] ++ secret.drop (i + 1) := by
  rcases Nat.lt_or_eq_of_le near with inside | rfl
  · rw [assign, Nat.max_eq_right inside, resize_self, List.set_eq_take_append_cons_drop,
      if_pos inside]
    simp
  · have extended : resize P (secret.length + 1) secret =
        secret ++ [P.uninitialised secret.length] := by
      simp [resize, List.take_of_length_le]
    rw [assign, Nat.max_eq_left (Nat.le_succ _), extended]
    simp

/-- The loop overwrites what is there, and extends what is not long enough. -/
theorem clearFrom_eq (count : Nat) {i : Nat} (near : i ≤ secret.length) :
    clearFrom P i count secret =
      secret.take i ++ List.replicate count 0 ++ secret.drop (i + count) := by
  induction count generalizing i secret with
  | zero => simp [clearFrom]
  | succ count ih =>
      have start : (secret.take i).length = i := List.length_take_of_le near
      have assigned : assign P i 0 secret = (secret.take i ++ [0]) ++ secret.drop (i + 1) :=
        assign_eq near
      have length : (secret.take i ++ [(0 : UInt8)]).length = i + 1 := by
        rw [List.length_append, start, List.length_singleton]
      rw [clearFrom, assigned, ih (by rw [List.length_append, length]; omega),
        List.take_append_of_le_length length.ge, List.take_of_length_le length.le,
        List.drop_append, List.drop_of_length_le (by omega), List.nil_append, List.drop_drop,
        length, List.replicate_succ]
      have behind : i + 1 + (i + 1 + count - (i + 1)) = i + (count + 1) := by omega
      rw [behind]
      simp

/-- The loop leaves nothing but zeros. -/
theorem clear_eq (short : key.length ≤ 2 * hmacBlockLength) :
    clear P key = List.replicate (2 * hmacBlockLength) 0 := by
  rw [clear, clearFrom_eq _ (Nat.zero_le _), Nat.zero_add, List.drop_of_length_le short,
    List.take_zero, List.nil_append, List.append_nil]

/-- The loop stays inside an array that is long enough. -/
theorem inside_iff {n : Nat} : (∀ i < n, i < key.length) ↔ n ≤ key.length := by
  constructor
  · intro inside
    by_contra short
    exact Nat.lt_irrefl _ (inside key.length (Nat.lt_of_not_le short))
  · intro long i before
    exact Nat.lt_of_lt_of_le before long

/-! ## What the key covers -/

/-- Of two blocks with the same secret and texts of equal length, the loop makes keys that differ
only as far as what is left of the texts does. -/
theorem key_eq_iff {key' : Bytes} (same : d'.length = d.length)
    (made : signingKey s d fuel = some key) (made' : signingKey s d' fuel' = some key') :
    key = key' ↔
      d.take (2 * hmacBlockLength - s.length) = d'.take (2 * hmacBlockLength - s.length) := by
  have length : (s ++ d').length = (s ++ d).length := by
    rw [List.length_append, List.length_append, same]
  rcases signingKey_cases made with ⟨rfl, long⟩ | ⟨k, rfl, long, more, short⟩
  · rcases signingKey_cases made' with ⟨rfl, long'⟩ | ⟨k', rfl, long', more', short'⟩
    · rw [List.take_append, List.take_append]
      exact List.append_right_inj _
    · have block := Nat.le_mul_of_pos_left (s ++ d').length more'
      omega
  · rcases signingKey_cases made' with ⟨rfl, long'⟩ | ⟨k', rfl, long', more', short'⟩
    · have block := Nat.le_mul_of_pos_left (s ++ d).length more
      omega
    · have covered : d.length ≤ 2 * hmacBlockLength - s.length := by
        have block := Nat.le_mul_of_pos_left (s ++ d).length more
        rw [List.length_append] at block short
        omega
      rw [List.take_of_length_le covered, List.take_of_length_le (same.trans_le covered)]
      constructor
      · intro equal
        rw [List.append_assoc, List.append_assoc] at equal
        exact (List.append_inj (List.append_cancel_left equal) same.symm).1
      · rintro rfl
        exact signingKey_unique made made'

/-- **The key, exactly.** The first loop ends unless both the secret and the time are empty.  The
key is then secret and time, repeated until there are 32 bytes and cut off after 64; the indices of
the second loop are inside it only if secret and time together have 64, and it always leaves 64
zeros.  Of the time the key covers what the secret leaves of 64 bytes: two times of equal length
give the same key exactly when they agree so far. -/
theorem signing_key_exact (P : Platform) (s d : Bytes) :
    ((∃ fuel key, signingKey s d fuel = some key) ↔ s ++ d ≠ []) ∧
      ∀ fuel key, signingKey s d fuel = some key →
        (∃ n, key = (List.replicate (n + 1) (s ++ d)).flatten.take 64 ∧
          32 ≤ (n + 1) * (s ++ d).length ∧ (n = 0 ∨ n * (s ++ d).length < 32)) ∧
        (32 ≤ key.length ∧ key.length ≤ 64) ∧
        ((∀ i < 64, i < key.length) ↔ 64 ≤ s.length + d.length) ∧
        clear P key = List.replicate 64 0 ∧
        ∀ d' fuel' key', d'.length = d.length → signingKey s d' fuel' = some key' →
          (key = key' ↔ d.take (64 - s.length) = d'.take (64 - s.length)) := by
  refine ⟨⟨?_, fun nonempty => ?_⟩, fun fuel key made => ?_⟩
  · rintro ⟨fuel, key, made⟩ empty
    obtain ⟨whole, filled, -⟩ := Option.map_eq_some_iff.mp made
    rw [empty, fill_nil] at filled
    cases filled
  · exact ⟨hmacBlockLength, signingKey_made nonempty⟩
  · obtain ⟨long, short, whole⟩ := length_signingKey made
    exact ⟨signingKey_repeats made, ⟨long, short⟩, inside_iff.trans whole, clear_eq short,
      fun d' fuel' key' same made' => key_eq_iff same made made'⟩

end Wh

end RestApiOut
