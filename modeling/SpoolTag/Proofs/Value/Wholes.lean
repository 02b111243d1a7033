import SpoolTag.Proofs.Value.Coercion

/-! # Single-precision numbers that are integers

What a single-precision number stands for is said here by its three fields: a sign bit, eight bits of
exponent and 23 bits of fraction (`Single.fieldValue`). A register for integers takes the number exactly if
it is finite and stands for an integer of 32 bits, and as this integer (`Value.coerced_to_integer`); nothing
is rounded, and nothing is brought into the range.

Which patterns of bits these are is a matter of the binade. Below one only zero is an integer; then the
bits of the fraction below the ones have to be clear, fewer from binade to binade, and none from `2 ^ 23`
on; and at `2 ^ 31` nothing is left but its negative (`Single.exists_fieldSize_lt_iff`,
`Single.fieldSize_eq_limit_iff`). -/

namespace SpoolTag

open SpoolTag.Number

namespace Number.Single

/-! ### Fields -/

def exponentField (x : Single) : Nat := x.bits.toNat / 2 ^ 23 % 2 ^ 8

def fractionField (x : Single) : Nat := x.bits.toNat % 2 ^ 23

/-- The number for which the fields of a finite number stand, without the sign. The significand has a
leading bit unless the exponent field is zero. -/
def fieldSize (x : Single) : ℚ :=
  if x.exponentField = 0 then (x.fractionField : ℚ) * 2 ^ (-149 : ℤ)
  else (2 ^ 23 + x.fractionField : ℚ) * 2 ^ ((x.exponentField : ℤ) - 150)

/-- The number for which the fields of a finite number stand. -/
def fieldValue (x : Single) : ℚ := (-1) ^ (x.bits.toNat / 2 ^ 31) * x.fieldSize

variable {x : Single}

theorem fractionField_lt (x : Single) : x.fractionField < 2 ^ 23 := Nat.mod_lt _ (by decide)

/-- The magnitude is the exponent field followed by the fraction field. -/
theorem magnitude_fields (x : Single) :
    x.magnitude >>> 23 = x.exponentField ∧ x.magnitude % 2 ^ 23 = x.fractionField ∧
      x.magnitude = 2 ^ 23 * x.exponentField + x.fractionField := by
  have hweight : Format.single.signWeight = 2 ^ 31 := by decide
  unfold magnitude exponentField fractionField
  rw [hweight, Nat.shiftRight_eq_div_pow]
  omega

theorem isFinite_iff_exponentField : x.isFinite = true ↔ x.exponentField ≠ 255 := by
  have hinfinity : Format.single.infinity = 255 * 2 ^ 23 := by decide
  have hlt : x.exponentField < 2 ^ 8 := Nat.mod_lt _ (by decide)
  have hfraction := x.fractionField_lt
  unfold isFinite
  rw [decide_eq_true_iff, hinfinity, (magnitude_fields x).2.2]
  omega

theorem sign_eq (x : Single) : x.bits.toNat / 2 ^ 31 = if x.negative then 1 else 0 := by
  have hweight : Format.single.signWeight = 2 ^ 31 := by decide
  have hlt := x.bits.toNat_lt
  unfold negative
  rw [hweight]
  split
  · next h =>
    have := of_decide_eq_true h
    omega
  · next h =>
    have := of_decide_eq_false (Bool.eq_false_iff.2 h)
    omega

theorem value_magnitude (x : Single) : Format.single.value x.magnitude = x.fieldSize := by
  have hscale : Format.single.scale = 149 := by decide
  have hbits : Format.single.fractionBits = 23 := rfl
  obtain ⟨hexponent, hfraction, hmagnitude⟩ := magnitude_fields x
  unfold fieldSize
  rw [Format.value_eq, hscale, Format.significand, Format.doublings, hbits, hexponent,
    Nat.one_shiftLeft, hfraction]
  split
  · next hzero =>
    rw [hzero, Nat.mul_zero, Nat.zero_add] at hmagnitude
    rw [hmagnitude, hzero, zpow_neg]
    simp [div_eq_mul_inv]
  · next hpos =>
    have hsplit : (x.exponentField : ℤ) - 150 = ((x.exponentField - 1 : ℕ) : ℤ) - 149 := by omega
    rw [hsplit, zpow_sub₀ (by norm_num), zpow_natCast, ← mul_div_assoc]
    push_cast
    rfl

/-- **A number is what its fields stand for.** -/
theorem value_eq_fieldValue (x : Single) : x.value = x.fieldValue := by
  unfold value fieldValue
  rw [value_magnitude, sign_eq]
  split
  · rw [pow_one, neg_one_mul]
  · rw [pow_zero, one_mul]

/-! ### Integers among the numbers -/

/-- The integers among the sizes, by the binade. -/
theorem fieldSize_eq_natCast_iff {n : ℕ} : x.fieldSize = n ↔
    x.exponentField = 0 ∧ x.fractionField = n * 2 ^ 149 ∨
      0 < x.exponentField ∧ x.exponentField < 150 ∧
        2 ^ 23 + x.fractionField = n * 2 ^ (150 - x.exponentField) ∨
      150 ≤ x.exponentField ∧ (2 ^ 23 + x.fractionField) * 2 ^ (x.exponentField - 150) = n := by
  unfold fieldSize
  generalize x.exponentField = e
  generalize x.fractionField = f
  rcases Nat.eq_zero_or_pos e with rfl | hpos
  · rw [if_pos rfl, zpow_neg, ← div_eq_mul_inv, div_eq_iff (by positivity)]
    norm_cast
    simp
  · rw [if_neg hpos.ne']
    rcases Nat.lt_or_ge e 150 with hlt | hge
    · have hsplit : (e : ℤ) - 150 = -((150 - e : ℕ) : ℤ) := by omega
      rw [hsplit, zpow_neg, zpow_natCast, ← div_eq_mul_inv, div_eq_iff (by positivity)]
      norm_cast
      simp [hpos, hpos.ne', hlt]
    · have hsplit : (e : ℤ) - 150 = ((e - 150 : ℕ) : ℤ) := by omega
      rw [hsplit, zpow_natCast]
      norm_cast
      simp [hpos.ne', hge, Nat.not_lt.2 hge]

/-- The integers below `2 ^ 31` are zero and the numbers from one on that have no bit below the ones. -/
theorem exists_fieldSize_lt_iff : (∃ n : ℕ, n < 2 ^ 31 ∧ x.fieldSize = n) ↔
    x.exponentField = 0 ∧ x.fractionField = 0 ∨
      127 ≤ x.exponentField ∧ x.exponentField ≤ 157 ∧
        2 ^ (150 - x.exponentField) ∣ x.fractionField := by
  have hf := x.fractionField_lt
  simp only [fieldSize_eq_natCast_iff]
  generalize x.exponentField = e
  generalize x.fractionField = f at *
  constructor
  · rintro ⟨n, hn, ⟨rfl, hzero⟩ | ⟨hpos, hlt, hwhole⟩ | ⟨hge, hwhole⟩⟩
    · exact .inl ⟨rfl, by omega⟩
    · -- the significand is a positive multiple of the power, which is no greater therefore
      have hn1 : 0 < n := Nat.pos_of_ne_zero fun h => by simp [h] at hwhole
      have hsmall : 2 ^ (150 - e) < 2 ^ 24 := by
        calc 2 ^ (150 - e) ≤ n * 2 ^ (150 - e) := Nat.le_mul_of_pos_left _ hn1
          _ < 2 ^ 24 := by omega
      have he : 150 - e < 24 := (Nat.pow_lt_pow_iff_right (by decide)).1 hsmall
      refine .inr ⟨by omega, by omega, ?_⟩
      have hleading : 2 ^ (150 - e) ∣ 2 ^ 23 := Nat.pow_dvd_pow 2 (by omega)
      exact (Nat.dvd_add_right hleading).1 ⟨n, by rw [hwhole, Nat.mul_comm]⟩
    · have hsmall : 2 ^ 23 * 2 ^ (e - 150) < 2 ^ 23 * 2 ^ 8 := by
        calc 2 ^ 23 * 2 ^ (e - 150) ≤ (2 ^ 23 + f) * 2 ^ (e - 150) :=
              Nat.mul_le_mul_right _ (by omega)
          _ < 2 ^ 23 * 2 ^ 8 := by omega
      have he : e - 150 < 8 :=
        (Nat.pow_lt_pow_iff_right (by decide)).1 (Nat.lt_of_mul_lt_mul_left hsmall)
      refine .inr ⟨by omega, by omega, ?_⟩
      rw [Nat.sub_eq_zero_of_le hge]
      exact one_dvd f
  · rintro (⟨rfl, rfl⟩ | ⟨hlow, hhigh, hwhole⟩)
    · exact ⟨0, by decide, .inl ⟨rfl, rfl⟩⟩
    · rcases Nat.lt_or_ge e 150 with hlt | hge
      · have hleading : 2 ^ (150 - e) ∣ 2 ^ 23 := Nat.pow_dvd_pow 2 (by omega)
        obtain ⟨n, hn⟩ := Nat.dvd_add hleading hwhole
        refine ⟨n, ?_, .inr (.inl ⟨by omega, hlt, by rw [hn, Nat.mul_comm]⟩)⟩
        have := Nat.le_mul_of_pos_left n (Nat.two_pow_pos (150 - e))
        omega
      · refine ⟨_, ?_, .inr (.inr ⟨hge, rfl⟩)⟩
        calc (2 ^ 23 + f) * 2 ^ (e - 150) ≤ (2 ^ 23 + f) * 2 ^ 7 :=
              Nat.mul_le_mul_left _ (Nat.pow_le_pow_right (by decide) (by omega))
          _ < 2 ^ 31 := by omega

theorem fieldSize_eq_limit_iff :
    x.fieldSize = (2 ^ 31 : ℕ) ↔ x.exponentField = 158 ∧ x.fractionField = 0 := by
  have hf := x.fractionField_lt
  rw [fieldSize_eq_natCast_iff]
  generalize x.exponentField = e
  generalize x.fractionField = f at *
  constructor
  · rintro (⟨rfl, hzero⟩ | ⟨hpos, hlt, hwhole⟩ | ⟨hge, hwhole⟩)
    · omega
    · have := Nat.le_mul_of_pos_right (2 ^ 31) (Nat.two_pow_pos (150 - e))
      omega
    · have hlow : 2 ^ 7 < 2 ^ (e - 150) := by
        by_contra hle
        have := Nat.mul_le_mul_left (2 ^ 23 + f) (Nat.not_lt.1 hle)
        omega
      have hhigh : 2 ^ (e - 150) ≤ 2 ^ 8 := by
        by_contra hgt
        have := Nat.mul_lt_mul_of_pos_left (Nat.not_le.1 hgt) (show 0 < 2 ^ 23 + f by omega)
        omega
      have h7 : 7 < e - 150 := (Nat.pow_lt_pow_iff_right (by decide)).1 hlow
      have h8 : e - 150 ≤ 8 := (Nat.pow_le_pow_iff_right (by decide)).1 hhigh
      obtain rfl : e = 158 := by omega
      exact ⟨rfl, by omega⟩
  · rintro ⟨rfl, rfl⟩
    exact .inr (.inr ⟨by decide, by decide⟩)

/-- The number is an integer of 32 bits. -/
def IsInt32 (x : Single) : Prop :=
  x.exponentField ≠ 255 ∧ ∃ n : ℤ, x.fieldValue = n ∧ -2 ^ 31 ≤ n ∧ n < 2 ^ 31

theorem fieldValue_of_negative (h : x.negative = true) : x.fieldValue = -x.fieldSize := by
  rw [fieldValue, sign_eq, if_pos h, pow_one, neg_one_mul]

theorem fieldValue_of_not_negative (h : ¬ x.negative = true) : x.fieldValue = x.fieldSize := by
  rw [fieldValue, sign_eq, if_neg h, pow_zero, one_mul]

theorem abs_fieldValue (x : Single) : |x.fieldValue| = x.fieldSize := by
  rw [← value_eq_fieldValue, abs_value, value_magnitude]

/-- The sign lets one more integer in. -/
theorem exists_fieldValue_iff : (∃ n : ℤ, x.fieldValue = n ∧ -2 ^ 31 ≤ n ∧ n < 2 ^ 31) ↔
    (∃ n : ℕ, n < 2 ^ 31 ∧ x.fieldSize = n) ∨
      x.negative = true ∧ x.fieldSize = (2 ^ 31 : ℕ) := by
  constructor
  · rintro ⟨n, hn, hlow, hhigh⟩
    have habs : x.fieldSize = (n.natAbs : ℕ) := by
      rw [← abs_fieldValue, hn, Nat.cast_natAbs, Int.cast_abs]
    rcases (show n.natAbs ≤ 2 ^ 31 by omega).lt_or_eq with hlt | heq
    · exact .inl ⟨_, hlt, habs⟩
    · refine .inr ⟨?_, heq ▸ habs⟩
      by_contra hsign
      rw [fieldValue_of_not_negative hsign, habs] at hn
      rw [← Int.cast_natCast, Int.cast_inj] at hn
      omega
  · have hvalue : ∀ n : ℕ, x.fieldSize = n →
        x.fieldValue = ((if x.negative then -n else n : ℤ) : ℚ) := by
      intro n hn
      by_cases hsign : x.negative = true
      · rw [fieldValue_of_negative hsign, if_pos hsign, hn]
        push_cast
        rfl
      · rw [fieldValue_of_not_negative hsign, if_neg hsign, hn]
        push_cast
        rfl
    rintro (⟨n, hlt, hn⟩ | ⟨hsign, hn⟩)
    · refine ⟨_, hvalue n hn, ?_⟩
      split <;> omega
    · refine ⟨_, hvalue _ hn, ?_⟩
      rw [if_pos hsign]
      decide

/-- **The patterns of bits that are integers of 32 bits.** -/
theorem isInt32_iff_fields : x.IsInt32 ↔
    x.exponentField = 0 ∧ x.fractionField = 0 ∨
      127 ≤ x.exponentField ∧ x.exponentField ≤ 157 ∧
        2 ^ (150 - x.exponentField) ∣ x.fractionField ∨
      2 ^ 31 ≤ x.bits.toNat ∧ x.exponentField = 158 ∧ x.fractionField = 0 := by
  have hsign : x.negative = true ↔ 2 ^ 31 ≤ x.bits.toNat := by
    have hweight : Format.single.signWeight = 2 ^ 31 := by decide
    rw [negative, decide_eq_true_iff, hweight]
  unfold IsInt32
  rw [exists_fieldValue_iff, exists_fieldSize_lt_iff, fieldSize_eq_limit_iff, hsign, or_assoc]
  refine ⟨And.right, fun h => ⟨?_, h⟩⟩
  rcases h with ⟨he, -⟩ | ⟨-, he, -⟩ | ⟨-, he, -⟩ <;> omega

end Number.Single

namespace Value

/-! ### Registers for integers -/

theorem inInt32_eq_true_iff {n : ℤ} : inInt32 n = true ↔ -2 ^ 31 ≤ n ∧ n < 2 ^ 31 := by
  rw [inInt32, Bool.and_eq_true, decide_eq_true_iff, decide_eq_true_iff]
  norm_num

theorem coerce?_single_eq_some_iff {x : Single} {w : Value} :
    (float32 x).coerce? .int32 = some w ↔
      ∃ n : ℤ, x.toInt? = some n ∧ inInt32 n = true ∧ w = .int32 (Int32.ofInt n) := by
  unfold coerce?
  dsimp only
  cases x.toInt? with
  | none => simp
  | some n =>
    by_cases hrange : inInt32 n = true
    · simp only [hrange, if_true, Option.some.injEq, exists_eq_left', true_and]
      exact eq_comm
    · simp [hrange]

/-- **A register for integers takes a single-precision number exactly** if it is finite and stands for an
integer of 32 bits, and as this integer. Anything else is refused with the name of the register: what is
infinite or no number, what has a fraction, and what is below the range or beyond it. The last part says
which patterns of bits are taken. -/
theorem coerced_to_integer (x : Single) (register : String) :
    let outcome := (float32 x).coerce .int32 register
    (∀ w, outcome = .ok w ↔ ∃ n : ℤ, x.exponentField ≠ 255 ∧ x.fieldValue = n ∧
      -2 ^ 31 ≤ n ∧ n < 2 ^ 31 ∧ w = .int32 (Int32.ofInt n)) ∧
    (x.exponentField = 255 ∨ (∀ n : ℤ, x.fieldValue ≠ n) ∨
      x.fieldValue < -2 ^ 31 ∨ 2 ^ 31 ≤ x.fieldValue →
        outcome = .error (.kindMismatch register .int32)) ∧
    (x.bits = 0x00000000 ∨ x.bits = 0x80000000 → outcome = .ok (.int32 0)) ∧
    ((∃ w, outcome = .ok w) ↔
      x.exponentField = 0 ∧ x.fractionField = 0 ∨
        127 ≤ x.exponentField ∧ x.exponentField ≤ 157 ∧
          2 ^ (150 - x.exponentField) ∣ x.fractionField ∨
        2 ^ 31 ≤ x.bits.toNat ∧ x.exponentField = 158 ∧ x.fractionField = 0) := by
  intro outcome
  have htaken : ∀ w, outcome = .ok w ↔ ∃ n : ℤ, x.exponentField ≠ 255 ∧ x.fieldValue = n ∧
      -2 ^ 31 ≤ n ∧ n < 2 ^ 31 ∧ w = .int32 (Int32.ofInt n) := by
    intro w
    rw [coerce_eq_ok_iff, coerce?_single_eq_some_iff]
    refine exists_congr fun n => ?_
    rw [Single.toInt?_eq_some_iff, Single.isFinite_iff_exponentField, Single.value_eq_fieldValue,
      inInt32_eq_true_iff, and_assoc, and_assoc]
  have hsome : (∃ w, outcome = .ok w) ↔ x.IsInt32 := by
    constructor
    · rintro ⟨w, hw⟩
      obtain ⟨n, hfinite, hvalue, hlow, hhigh, -⟩ := (htaken w).1 hw
      exact ⟨hfinite, n, hvalue, hlow, hhigh⟩
    · rintro ⟨hfinite, n, hvalue, hlow, hhigh⟩
      exact ⟨_, (htaken _).2 ⟨n, hfinite, hvalue, hlow, hhigh, rfl⟩⟩
  refine ⟨htaken, fun hbad => ?_, fun hzero => ?_, hsome.trans Single.isInt32_iff_fields⟩
  · have hnot : ¬ x.IsInt32 := by
      rintro ⟨hfinite, n, hvalue, hlow, hhigh⟩
      rcases hbad with hinfinite | hfraction | hbelow | hbeyond
      · exact hfinite hinfinite
      · exact hfraction n hvalue
      · rw [hvalue] at hbelow
        exact absurd hlow (not_le.2 (by exact_mod_cast hbelow))
      · rw [hvalue] at hbeyond
        exact absurd hhigh (not_lt.2 (by exact_mod_cast hbeyond))
    have hnone : (float32 x).coerce? .int32 = none := by
      refine Option.eq_none_iff_forall_ne_some.2 fun w hw => hnot (hsome.1 ⟨w, ?_⟩)
      exact coerce_eq_ok_iff.2 hw
    change coerce _ _ _ = _
    rw [coerce, hnone]
  · obtain ⟨bits⟩ := x
    rcases hzero with rfl | rfl <;> rfl

/-- At the limits: the least integer and the greatest one that is a number are taken, and the negative
zero; a fraction of one half is refused, `2 ^ 31`, and what is no number. -/
theorem coerced_to_integer_limits :
    ((∃ w, (float32 ⟨0xCF000000⟩).coerce .int32 "extr_temp" = .ok w) ∧
      (∃ w, (float32 ⟨0x4EFFFFFF⟩).coerce .int32 "extr_temp" = .ok w) ∧
      (float32 ⟨0x80000000⟩).coerce .int32 "extr_temp" = .ok (.int32 0)) ∧
    (¬ ∃ w, (float32 ⟨0x4AFFFFFF⟩).coerce .int32 "extr_temp" = .ok w) ∧
    (¬ ∃ w, (float32 ⟨0x4F000000⟩).coerce .int32 "extr_temp" = .ok w) ∧
    (float32 ⟨0x7FC00001⟩).coerce .int32 "extr_temp" =
      .error (.kindMismatch "extr_temp" .int32) := by
  refine ⟨⟨?_, ?_, ?_⟩, ?_, ?_, ?_⟩
  · exact (coerced_to_integer ⟨0xCF000000⟩ "extr_temp").2.2.2.2 (by decide)
  · exact (coerced_to_integer ⟨0x4EFFFFFF⟩ "extr_temp").2.2.2.2 (by decide)
  · exact (coerced_to_integer ⟨0x80000000⟩ "extr_temp").2.2.1 (.inr rfl)
  · exact mt (coerced_to_integer ⟨0x4AFFFFFF⟩ "extr_temp").2.2.2.1 (by decide)
  · exact mt (coerced_to_integer ⟨0x4F000000⟩ "extr_temp").2.2.2.1 (by decide)
  · exact (coerced_to_integer ⟨0x7FC00001⟩ "extr_temp").2.1 (.inl (by decide))

end Value

end SpoolTag
