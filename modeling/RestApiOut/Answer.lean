import RestApiOut.Sample
import RestApiOut.Library.Json
import Mathlib.Data.Rat.Floor
import Mathlib.Data.List.Perm.Subperm

/-!
# Acceptable answers

What a time-delta answer has to look like, said without the order in which `Server::parseResponse`
looks at it: `Answers P result v` is an answer with status OK and time delta `v`, and `Acceptable`
adds the range.  `replyDelta_eq_some_iff` is the parser's specification: it takes exactly the
acceptable answers, and takes `v` truncated toward zero, which always fits (`toInt_toLongLong`).
-/

namespace RestApiOut

variable {P : Platform}

/-! ## Members of a JSON object -/

/-- `QJsonObject::keys`. -/
def JsonObject.keys (o : JsonObject) : List String := o.members.map Prod.fst

theorem JsonObject.value_eq_some_iff {o : JsonObject} {key : String} {v : JsonValue} :
    o.value key = some v ↔ (key, v) ∈ o.members :=
  Json.lookup_eq_some_iff o.nodup

/-- An object of two members that has both keys has no other. -/
theorem JsonObject.size_eq_two_iff {o : JsonObject} {a b : String} (distinct : a ≠ b)
    (first : a ∈ o.keys) (second : b ∈ o.keys) :
    o.size = 2 ↔ ∀ key, key ∈ o.keys ↔ key = a ∨ key = b := by
  have pair : [a, b].Nodup := by simpa using distinct
  have size : o.size = o.keys.length := (List.length_map _).symm
  constructor
  · intro two key
    have sub : [a, b] ⊆ o.keys := by simp [first, second]
    have perm : [a, b].Perm o.keys :=
      (List.subperm_of_subset pair sub).perm_of_length_le (by rw [← size, two]; rfl)
    simp [← perm.mem_iff]
  · intro keys
    have perm : o.keys.Perm [a, b] :=
      (List.perm_ext_iff_of_nodup o.nodup pair).mpr fun key => (keys key).trans (by simp)
    rw [size, perm.length_eq]
    rfl

/-! ## Truncation toward zero -/

def truncate (v : ℚ) : ℤ := if 0 ≤ v then ⌊v⌋ else ⌈v⌉

@[simp] theorem truncate_intCast (n : ℤ) : truncate n = n := by
  simp [truncate]

theorem truncate_eq_tdiv (v : ℚ) : truncate v = v.num.tdiv v.den := by
  unfold truncate
  split
  · rename_i nonneg
    rw [Rat.floor_def', Int.tdiv_eq_ediv_of_nonneg (Rat.num_nonneg.mpr nonneg)]
  · rename_i negative
    have opposite : 0 ≤ -v.num := by
      have := Rat.num_neg.mpr (not_le.mp negative)
      omega
    rw [Rat.ceil_def', ← Int.tdiv_eq_ediv_of_nonneg opposite, Int.neg_tdiv, neg_neg]

/-- The bounds of the acceptance test are integers, so truncation cannot leave them. -/
theorem truncate_mem {v : ℚ} {low high : ℤ} (above : (low : ℚ) ≤ v) (below : v ≤ (high : ℚ)) :
    low ≤ truncate v ∧ truncate v ≤ high := by
  unfold truncate
  split
  · exact ⟨Int.le_floor.mpr above, Int.floor_le_iff.mpr (by linarith)⟩
  · exact ⟨Int.le_ceil_iff.mpr (by linarith), Int.ceil_le.mpr below⟩

/-! ## The answers `parseResponse` accepts -/

/-- The object is `{"status": "OK", "time_delta": v}`. -/
structure JsonObject.IsAnswer (o : JsonObject) (v : ℚ) : Prop where
  keys : ∀ key, key ∈ o.keys ↔ key = "status" ∨ key = "time_delta"
  status : ("status", .string "OK") ∈ o.members
  timeDelta : ("time_delta", .double v) ∈ o.members

/-- The reply has no network error and its body is an answer with time delta `v`. -/
structure Answers (P : Platform) (result : ReplyResult) (v : ℚ) : Prop where
  clean : result.error = .noError
  body : ∃ document jsonObject, P.fromJson result.body = some document ∧
    P.rootObject document = some jsonObject ∧ jsonObject.IsAnswer v

/-- The range the server takes a time delta from. -/
def InRange (v : ℚ) : Prop := -2 ^ 63 ≤ v ∧ v ≤ 2 ^ 53 - 1

/-- An answer with a time delta in range. -/
structure Acceptable (P : Platform) (result : ReplyResult) (v : ℚ) : Prop
    extends Answers P result v where
  inRange : InRange v

theorem inRange_iff {v : ℚ} :
    InRange v ↔ Server.timeDeltaMin ≤ v ∧ v ≤ Server.timeDeltaMax := by
  norm_num [InRange, Server.timeDeltaMin, Server.timeDeltaMax]

/-- `static_cast<long long>` is defined on every double in range. -/
theorem toInt_toLongLong {v : ℚ} (inRange : InRange v) :
    (Server.toLongLong v).toInt = truncate v := by
  obtain ⟨low, high⟩ := inRange_iff.mp inRange
  obtain ⟨above, below⟩ := truncate_mem low high
  rw [Server.toLongLong, ← truncate_eq_tdiv]
  exact Int64.toInt_ofInt_of_le above (by omega)

/-- The checks of `parseResponse` on the members, in one condition. -/
theorem JsonObject.isAnswer_iff {o : JsonObject} {v : ℚ} :
    o.IsAnswer v ↔ o.size = 2 ∧ o.value "status" = some (.string "OK") ∧
      o.value "time_delta" = some (.double v) := by
  have distinct : "status" ≠ "time_delta" := by decide
  simp only [JsonObject.value_eq_some_iff]
  constructor
  · rintro ⟨keys, ok, number⟩
    exact ⟨(JsonObject.size_eq_two_iff distinct (List.mem_map_of_mem ok)
      (List.mem_map_of_mem number)).mpr keys, ok, number⟩
  · rintro ⟨two, ok, number⟩
    exact ⟨(JsonObject.size_eq_two_iff distinct (List.mem_map_of_mem ok)
      (List.mem_map_of_mem number)).mp two, ok, number⟩

/-- **`parseResponse` accepts exactly the answers in range**, and takes their number truncated. -/
theorem parsedDelta_eq_some_iff {document : P.Document} {delta : Int64} :
    parsedDelta document = some delta ↔ ∃ jsonObject v, P.rootObject document = some jsonObject ∧
      jsonObject.IsAnswer v ∧ InRange v ∧ delta = Server.toLongLong v := by
  simp only [JsonObject.isAnswer_iff, inRange_iff]
  unfold parsedDelta
  cases P.rootObject document with
  | none => simp
  | some jsonObject =>
      dsimp only
      split
      · rename_i two
        split
        · rename_i status timeDelta hasStatus hasDelta
          simp only [Option.ite_none_right_eq_some, Option.some.injEq]
          constructor
          · rintro ⟨⟨rfl, inRange⟩, rfl⟩
            exact ⟨jsonObject, timeDelta, rfl, ⟨two, hasStatus, hasDelta⟩, inRange, rfl⟩
          · rintro ⟨_, v, rfl, ⟨-, ok, number⟩, inRange, rfl⟩
            rw [hasStatus] at ok
            rw [hasDelta] at number
            cases ok
            cases number
            exact ⟨⟨rfl, inRange⟩, rfl⟩
        · rename_i other
          simp only [reduceCtorEq, false_iff]
          rintro ⟨_, v, same, ⟨-, ok, number⟩, -⟩
          cases same
          exact other _ _ ok number
      · rename_i other
        simp only [reduceCtorEq, false_iff]
        rintro ⟨_, v, same, ⟨two, -⟩, -⟩
        cases same
        exact other two

/-- **The server accepts exactly the acceptable replies.** -/
theorem replyDelta_eq_some_iff {result : ReplyResult} {delta : Int64} :
    replyDelta P result = some delta ↔
      ∃ v, Acceptable P result v ∧ delta = Server.toLongLong v := by
  rw [replyDelta, Option.ite_none_right_eq_some]
  simp only [Option.bind_eq_some_iff, parsedDelta_eq_some_iff]
  constructor
  · rintro ⟨clean, document, parsed, jsonObject, v, root, answer, inRange, rfl⟩
    exact ⟨v, ⟨⟨clean, document, jsonObject, parsed, root, answer⟩, inRange⟩, rfl⟩
  · rintro ⟨v, ⟨⟨clean, document, jsonObject, parsed, root, answer⟩, inRange⟩, rfl⟩
    exact ⟨clean, document, parsed, jsonObject, v, root, answer, inRange, rfl⟩

theorem replyDelta_eq_none_iff {result : ReplyResult} :
    replyDelta P result = none ↔ ∀ v, ¬ Acceptable P result v := by
  rw [Option.eq_none_iff_forall_ne_some]
  constructor
  · intro refused v acceptable
    exact refused _ (replyDelta_eq_some_iff.mpr ⟨v, acceptable, rfl⟩)
  · intro unacceptable delta accepted
    obtain ⟨v, acceptable, -⟩ := replyDelta_eq_some_iff.mp accepted
    exact unacceptable v acceptable

/-- The sample answers parse as what they were written from. -/
theorem Sample.answered_acceptable {delta : Nat} (small : delta < 8) :
    Acceptable Platform.sample (Sample.answered delta) (delta : ℤ) where
  clean := rfl
  body := by
    have parses : ∀ n < 8, Sample.parse 8 (Sample.compact (Sample.timeDeltaAnswer (n : Nat))) =
        some (Sample.timeDeltaAnswer (n : Nat)) := by decide +kernel
    refine ⟨_, _, parses delta small, rfl, fun key => ?_, List.mem_cons_self,
      List.mem_cons_of_mem _ ?_⟩
    · simp [JsonObject.keys, Sample.timeDeltaAnswer]
    · simp
  inRange := by
    have low : ((delta : ℤ) : ℚ) ≤ ((8 : ℤ) : ℚ) := Int.cast_le.mpr (by omega)
    have high : ((0 : ℤ) : ℚ) ≤ ((delta : ℤ) : ℚ) := Int.cast_le.mpr (by omega)
    norm_num at low high
    constructor <;> norm_num <;> linarith

end RestApiOut
