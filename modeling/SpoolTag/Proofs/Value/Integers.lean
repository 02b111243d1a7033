import SpoolTag.Proofs.Json.Accuracy
import SpoolTag.Proofs.Value.Documents

/-! # Which numbers a register for integers takes

A number of a document that is no 32-bit integer on the face of it is rounded to single precision before
it is offered to a register, and a register for integers takes it if what came of it is an integer in
range. So the register gets the number itself if it is spelled as an integer or needs no rounding
(`Numeral.taken?_iff_of_faithful`), and else never the number but one that is near it
(`Numeral.faithful_of_taken?`, `Numeral.taken?_near`). -/

namespace SpoolTag

open SpoolTag.Json
open SpoolTag.Number

/-- The integer as which a register for integers takes a number. -/
def Number.Numeral.taken? (n : Numeral) : Option Int32 :=
  ((Value.ofEvent? (.number n)).bind fun v => v.coerce? .int32).bind Value.int32?

/-- The number comes through reading as it is: it is spelled as an integer of 32 bits, or it is a
single-precision number. -/
def Number.Numeral.Faithful (n : Numeral) : Prop :=
  (Bare n ∧ ∃ i : Int32, n.value = i.toInt) ∨ ∃ y : Single, y.isFinite = true ∧ y.value = n.value

namespace Number.Numeral

variable {n : Numeral} {i : Int32}

theorem inInt32_iff {k : Int} : Value.inInt32 k = true ↔ ∃ i : Int32, i.toInt = k := by
  constructor
  · intro h
    simp only [Value.inInt32, Bool.and_eq_true, decide_eq_true_eq] at h
    exact ⟨Int32.ofInt k, Int32.toInt_ofInt_of_le h.1 h.2⟩
  · rintro ⟨i, rfl⟩
    exact Value.inInt32_toInt i

theorem ofInt_eq_iff {k : Int} (h : Value.inInt32 k = true) : Int32.ofInt k = i ↔ k = i.toInt := by
  obtain ⟨j, rfl⟩ := inInt32_iff.1 h
  rw [Int32.ofInt_toInt, Int32.toInt_inj]

theorem taken_single {x : Single} :
    ((Value.float32 x).coerce? .int32).bind Value.int32? = some i ↔ x.toInt? = some i.toInt := by
  have hcoerce : (Value.float32 x).coerce? .int32 = x.toInt?.bind fun k =>
      if Value.inInt32 k then some (.int32 (Int32.ofInt k)) else none := by
    simp only [Value.coerce?]
    cases x.toInt? <;> rfl
  rw [hcoerce]
  cases x.toInt? with
  | none => simp
  | some k =>
    by_cases hrange : Value.inInt32 k = true
    · simp [hrange, Value.int32?, ofInt_eq_iff hrange]
    · have hne : k ≠ i.toInt := fun h => hrange (inInt32_iff.2 ⟨i, h.symm⟩)
      simp [hrange, hne]

/-- The two ways in which a number is taken: as the integer that was read, or as the one to which it was
rounded. -/
theorem taken_number {number : Number} :
    ((Value.ofNumber number).coerce? .int32).bind Value.int32? = some i ↔
      number = .integer i.toInt ∨
        (∀ k : Int32, number ≠ .integer k.toInt) ∧ number.toSingle.toInt? = some i.toInt := by
  cases number with
  | float negative b => exact taken_single.trans (by simp)
  | integer k =>
    have hnumber : Value.ofNumber (.integer k) =
      if Value.inInt32 k then .int32 (Int32.ofInt k) else .float32 (.ofInt k) := rfl
    rw [hnumber]
    by_cases hrange : Value.inInt32 k = true
    · have hread : ∃ j : Int32, k = j.toInt := (inInt32_iff.1 hrange).imp fun _ h => h.symm
      simp [hrange, Value.coerce?, Value.int32?, ofInt_eq_iff hrange, hread]
    · have hread : ∀ j : Int32, k ≠ j.toInt := fun j h => hrange (inInt32_iff.2 ⟨j, h.symm⟩)
      rw [if_neg hrange, taken_single]
      simp [hread, Number.toSingle]

theorem taken?_eq_some_iff : n.taken? = some i ↔
    Number.ofNumeral? n = some (.integer i.toInt) ∨
      ∃ number, Number.ofNumeral? n = some number ∧ (∀ k : Int32, number ≠ .integer k.toInt) ∧
        number.toSingle.toInt? = some i.toInt := by
  unfold taken? Value.ofEvent?
  dsimp only
  cases Number.ofNumeral? n with
  | none => simp
  | some number => simpa using taken_number

section Spelled

variable (hn : Spelled n)

include hn

theorem value_of_integer {k : Int} (h : Number.ofNumeral? n = some (.integer k)) :
    Bare n ∧ n.value = k := by
  rcases ofNumeral?_cases hn with ⟨k', hk', hbare, -, hvalue⟩ | hscaled
  · rw [hk'] at h
    cases h
    exact ⟨hbare, hvalue⟩
  · rw [hscaled] at h
    obtain ⟨w, -, ⟨⟩⟩ := Option.map_eq_some_iff.1 h

/-- **What is taken is near the number.** -/
theorem taken?_near (h : n.taken? = some i) :
    |(i.toInt : ℚ) - n.value| ≤ n.size / 2 ^ 23 + 1 / 2 ^ 149 := by
  rcases taken?_eq_some_iff.1 h with hinteger | ⟨number, hread, -, hrounded⟩
  · rw [(value_of_integer hn hinteger).2, sub_self, abs_zero]
    have := n.size_nonneg
    positivity
  · obtain ⟨hfinite, hvalue⟩ := Single.toInt?_eq_some_iff.1 hrounded
    rw [← hvalue]
    exact toSingle_near hn hread hfinite

/-- A number that is taken as it is comes through reading as it is. -/
theorem faithful_of_taken? (h : n.taken? = some i) (hvalue : n.value = i.toInt) : n.Faithful := by
  rcases taken?_eq_some_iff.1 h with hinteger | ⟨number, -, -, hrounded⟩
  · exact .inl ⟨(value_of_integer hn hinteger).1, i, hvalue⟩
  · obtain ⟨hfinite, hvalue'⟩ := Single.toInt?_eq_some_iff.1 hrounded
    exact .inr ⟨number.toSingle, hfinite, hvalue'.trans hvalue.symm⟩

/-- What comes through reading as it is, is read as an integer of 32 bits or as a single-precision
number that has its value. -/
theorem Faithful.cases (h : n.Faithful) :
    (∃ j : Int32, Number.ofNumeral? n = some (.integer j.toInt)) ∨
      ∃ number, Number.ofNumeral? n = some number ∧ number.toSingle.isFinite = true ∧
        number.toSingle.value = n.value := by
  rcases h with ⟨hbare, j, hj⟩ | ⟨y, hfinite, hvalue⟩
  · have hlow := j.le_toInt
    have hhigh := j.toInt_lt
    rcases hbare.ofNumeral? hj (by omega) with hread | hzero
    · exact .inl ⟨j, hread⟩
    · refine .inr (toSingle_exact hn (y := ⟨0⟩) (by decide) ?_)
      rw [Single.value_zero, hj, hzero, Int.cast_zero]
  · exact .inr (toSingle_exact hn hfinite hvalue)

/-- **A number that comes through reading as it is**, is taken exactly if it is an integer of 32 bits, and
as this integer. -/
theorem taken?_iff_of_faithful (h : n.Faithful) : n.taken? = some i ↔ n.value = i.toInt := by
  rcases h.cases hn with ⟨j, hj⟩ | ⟨number, hread, hfinite, hvalue⟩
  · rw [taken?_eq_some_iff, hj, (value_of_integer hn hj).2]
    have hnot : ¬ ∃ number, some (Number.integer j.toInt) = some number ∧
        (∀ k : Int32, number ≠ .integer k.toInt) ∧ number.toSingle.toInt? = some i.toInt := by
      rintro ⟨_, ⟨⟩, hne, -⟩
      exact hne j rfl
    rw [or_iff_left hnot]
    simp
  · constructor
    · intro htaken
      rcases taken?_eq_some_iff.1 htaken with hinteger | ⟨number', hread', -, hrounded⟩
      · exact (value_of_integer hn hinteger).2
      · rw [hread] at hread'
        obtain rfl := Option.some.inj hread'
        exact hvalue.symm.trans (Single.toInt?_eq_some_iff.1 hrounded).2
    · intro hi
      refine taken?_eq_some_iff.2 ?_
      by_cases hinteger : ∃ k : Int32, number = .integer k.toInt
      · obtain ⟨k, rfl⟩ := hinteger
        have hk := (value_of_integer hn hread).2
        rw [hi] at hk
        have hsame : i.toInt = k.toInt := by exact_mod_cast hk
        exact .inl (hsame ▸ hread)
      · exact .inr ⟨number, hread, not_exists.1 hinteger,
          Single.toInt?_eq_some_iff.2 ⟨hfinite, hvalue.trans hi⟩⟩

end Spelled

end Number.Numeral

end SpoolTag
