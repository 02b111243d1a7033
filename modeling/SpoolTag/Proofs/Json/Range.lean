import SpoolTag.Proofs.Json.Accuracy

/-! # Which numbers are read

A number is worked out from the digits that are gathered of it, rounded to double precision, and from a
power of ten, rounded as well; it is not read if the product of the two is not finite, or if the power is
beyond the range of double precision and some digit is not zero (`Numeral.Exceeds`,
`ofNumeral?_eq_none_iff`). This is no test of the size: next to the end of the range there are numbers within
it that are not read, and numbers beyond it that are. One part in `2 ^ 49` away from the end the size
decides (`not_exceeds_of_size_lt`, `exceeds_of_le_size`). -/

namespace SpoolTag

open SpoolTag.Json

namespace Number.Numeral

/-- Working out the number leads beyond the range of double precision: not all of its digits are zero, and
their product with the power of ten, both rounded before, comes to the limit, if the power itself is in
range. -/
structure Exceeds (n : Numeral) : Prop where
  nonzero : 0 < n.gathered.coefficient
  growing : 0 ≤ n.gathered.exponent
  product : n.gathered.exponent ≤ 308 → 2 ^ 1024 - 2 ^ 970 ≤
    Format.double.value (Format.double.round n.gathered.coefficient 1) *
      Format.double.value (powerOfTen n.gathered.exponent.toNat)

end Number.Numeral

namespace Json

open SpoolTag.Number

theorem Gathered.total_extend_lt {g : Gathered} (hg : g.total < 2 ^ 64) (digits : List Char) :
    (g.extend digits).total < 2 ^ 64 := by
  have hlimit : UInt64.size = 2 ^ 64 := rfl
  induction digits generalizing g with
  | nil => exact hg
  | cons c rest ih =>
    unfold extend
    dsimp only
    split
    · next hfits => exact ih (hlimit ▸ hfits)
    · exact hg

theorem coefficient_gathered_lt (n : Numeral) : n.gathered.coefficient < 2 ^ 64 :=
  Gathered.total_extend_lt (Gathered.total_extend_lt (by decide) _) _

/-- A product is finite if the product of the factors is below the limit of double precision. -/
theorem product_lt_infinity_iff (a b : Nat) : Format.double.product a b < Format.double.infinity ↔
    Format.double.value a * Format.double.value b < 2 ^ 1024 - 2 ^ 970 := by
  have hden : 0 < 1 <<< (2 * Format.double.scale) := by
    rw [Nat.one_shiftLeft]
    exact Nat.two_pow_pos _
  unfold Format.product
  rw [Format.round_lt_infinity_iff hden (by decide), Format.limit_double, product_ratio]

/-! ### The limit -/

theorem two_pow_top : (2 ^ 1024 : ℚ) = 2 ^ 970 * 2 ^ 54 := by rw [← pow_add]

theorem limit_pos : (0 : ℚ) < 2 ^ 1024 - 2 ^ 970 :=
  sub_pos.2 (pow_lt_pow_right₀ (by norm_num) (by decide))

/-- Digits alone do not lead beyond the range. -/
theorem total_lt_limit {total : Nat} (h : total < 2 ^ 64) :
    Format.double.value (Format.double.round total 1) * Format.double.value (powerOfTen 0) <
      2 ^ 1024 - 2 ^ 970 := by
  have hone : Format.double.value (powerOfTen 0) = 1 := value_powerOfTen (n := 0) (by decide)
  have hnear := (abs_le.1 (value_total_near h).2).2
  have htotal : (total : ℚ) ≤ 2 ^ 64 := by exact_mod_cast h.le
  have hlarge : (2 ^ 64 : ℚ) ≤ 2 ^ 970 := pow_le_pow_right₀ (by norm_num) (by decide)
  rw [hone, mul_one, two_pow_top]
  generalize (2 ^ 970 : ℚ) = unit at hlarge ⊢
  linarith only [hnear, htotal, hlarge]

theorem scaled?_eq_none_iff {total : Nat} (ht : total < 2 ^ 64) {e : Int} :
    scaled? total e = none ↔ 0 < total ∧ 0 ≤ e ∧ (e ≤ 308 → 2 ^ 1024 - 2 ^ 970 ≤
      Format.double.value (Format.double.round total 1) * Format.double.value (powerOfTen e.toNat)) := by
  rcases lt_or_ge e 0 with hsign | hsign
  · obtain ⟨w, hw⟩ : ∃ w, scaled? total e = some w := exists_scale?_of_neg hsign
    refine iff_of_false ?_ fun h => absurd h.2.1 (by omega)
    rw [hw]
    exact Option.some_ne_none w
  have habs : e.natAbs = e.toNat := by omega
  have hround : Format.double.round 0 1 = 0 := by decide
  unfold scaled?
  rw [scale?]
  by_cases hsmall : e.natAbs ≤ 308
  · rw [if_pos hsmall]
    dsimp only
    rw [if_pos hsign, habs]
    have hproduct := product_lt_infinity_iff (Format.double.round total 1) (powerOfTen e.toNat)
    constructor
    · intro hnone
      have hlarge : 2 ^ 1024 - 2 ^ 970 ≤ Format.double.value (Format.double.round total 1) *
          Format.double.value (powerOfTen e.toNat) := by
        refine not_lt.1 fun hlt => ?_
        rw [if_pos (hproduct.2 hlt)] at hnone
        cases hnone
      refine ⟨Nat.pos_of_ne_zero ?_, hsign, fun _ => hlarge⟩
      rintro rfl
      rw [hround, Format.value_zero, zero_mul] at hlarge
      exact absurd hlarge (not_le.2 limit_pos)
    · rintro ⟨-, -, hlarge⟩
      exact if_neg fun hlt => absurd (hproduct.1 hlt) (not_lt.2 (hlarge (by omega)))
  · rw [if_neg hsmall]
    by_cases hzero : Format.double.round total 1 = 0
    · rw [if_pos hzero]
      refine iff_of_false (Option.some_ne_none 0) fun h => ?_
      exact absurd (total_eq_zero ht hzero) h.1.ne'
    · rw [if_neg hzero, if_pos hsign]
      refine iff_of_true rfl ⟨Nat.pos_of_ne_zero ?_, hsign, fun h => absurd h (by omega)⟩
      rintro rfl
      exact hzero hround

/-- **Which numbers are not read.** -/
theorem ofNumeral?_eq_none_iff {n : Numeral} : Number.ofNumeral? n = none ↔ n.Exceeds := by
  have hscaled : scaled? n.gathered.coefficient n.gathered.exponent = none ↔ n.Exceeds := by
    rw [scaled?_eq_none_iff (coefficient_gathered_lt n)]
    exact ⟨fun ⟨hnonzero, hgrowing, hproduct⟩ => ⟨hnonzero, hgrowing, hproduct⟩,
      fun h => ⟨h.nonzero, h.growing, h.product⟩⟩
  unfold Number.ofNumeral?
  dsimp only
  by_cases hinteger : n.fraction = [] ∧ n.exponent = none ∧
      (Gathered.extend ⟨0, 0⟩ n.whole).count = n.whole.length ∧
        if n.negative then 0 < (Gathered.extend ⟨0, 0⟩ n.whole).total ∧
          2 * (Gathered.extend ⟨0, 0⟩ n.whole).total ≤ UInt64.size else True
  · -- all digits of an integer are gathered, and no power of ten goes with them
    obtain ⟨hfraction, hexponent, hcount, -⟩ := id hinteger
    have hzero : n.gathered.exponent = 0 := by
      unfold Numeral.gathered
      rw [hfraction, hexponent]
      simp [Gathered.extend, exponentValue, hcount]
    rw [if_pos hinteger]
    refine iff_of_false (Option.some_ne_none _) fun hexceeds => ?_
    have hproduct := hexceeds.product (by omega)
    rw [hzero] at hproduct
    exact absurd (total_lt_limit (coefficient_gathered_lt n)) (not_lt.2 hproduct)
  · rw [if_neg hinteger, Option.map_eq_none_iff]
    exact hscaled

/-- A number below the largest one of double precision that is not read, and one beyond it that is. -/
example :
    Number.ofNumeral? ⟨false, ['1'], "7976931348623157000".toList, some ⟨false, ['3', '0', '8']⟩⟩ = none ∧
      (Number.ofNumeral?
        ⟨false, ['1'], "79769313486231599".toList, some ⟨false, ['3', '0', '8']⟩⟩).isSome = true := by
  decide +kernel

/-! ### By size -/

section Size

variable {n : Numeral} (hn : Spelled n)

include hn

/-- Before the last roundings, what is worked out is near the size of the number. -/
theorem factors_near (hsmall : n.gathered.exponent ≤ 308) (hgrowing : 0 ≤ n.gathered.exponent) :
    |Format.double.value (Format.double.round n.gathered.coefficient 1) *
        Format.double.value (powerOfTen n.gathered.exponent.toNat) - n.size| ≤ n.size / 2 ^ 50 := by
  obtain ⟨hcoefficient, hnear⟩ := gathered_near hn
  have hpow : (10 : ℚ) ^ n.gathered.exponent = 10 ^ n.gathered.exponent.toNat := by
    rw [← zpow_natCast, Int.toNat_of_nonneg hgrowing]
  have hfactors := mul_near (ε := 1 / 2 ^ 52) (Nat.cast_nonneg n.gathered.coefficient)
    (show (0 : ℚ) < 10 ^ n.gathered.exponent.toNat by positivity) (by norm_num) (by norm_num)
    (value_total_near hcoefficient).2 (value_power_near (by omega))
  have hsize := n.size_nonneg
  rw [hpow] at hnear
  generalize (n.gathered.coefficient * 10 ^ n.gathered.exponent.toNat : ℚ) = x at *
  rw [abs_le] at hnear hfactors ⊢
  constructor <;> linarith

/-- **Numbers that are a little below the end of the range are read.** -/
theorem not_exceeds_of_size_lt (h : n.size < 2 ^ 1024 - 2 ^ 975) : ¬ n.Exceeds := by
  rintro ⟨hnonzero, hgrowing, hproduct⟩
  have hunit : (0 : ℚ) < 2 ^ 970 := by positivity
  have hgap : (2 ^ 975 : ℚ) = 2 ^ 970 * 2 ^ 5 := by rw [← pow_add]
  rcases le_or_gt n.gathered.exponent 308 with hsmall | hlarge
  · have hnear := (abs_le.1 (factors_near hn hsmall hgrowing)).2
    have hlimit := hproduct hsmall
    rw [two_pow_top] at h hlimit
    rw [hgap] at h
    generalize (2 ^ 970 : ℚ) = unit at hunit h hlimit
    linarith only [hunit, h, hlimit, hnear]
  · -- the power of ten alone is beyond the range
    have hnear := (abs_le.1 (gathered_near hn).2).2
    have hone : (1 : ℚ) ≤ n.gathered.coefficient := by exact_mod_cast hnonzero
    have hpow : (10 : ℚ) ^ 309 ≤ 10 ^ n.gathered.exponent := by
      rw [← zpow_natCast]
      exact zpow_le_zpow_right₀ (by norm_num) (by omega)
    have hten : (2 ^ 1025 : ℚ) ≤ 10 ^ 309 := by
      have hten' : 2 ^ 1025 ≤ 10 ^ 309 := by decide +kernel
      exact_mod_cast hten'
    have hfactor : (10 : ℚ) ^ n.gathered.exponent ≤
        n.gathered.coefficient * 10 ^ n.gathered.exponent :=
      le_mul_of_one_le_left (by positivity) hone
    rw [pow_succ] at hten
    have hsize := n.size_nonneg
    rw [two_pow_top] at h hten
    rw [hgap] at h
    generalize (2 ^ 970 : ℚ) = unit at hunit h hten
    generalize (10 : ℚ) ^ 309 = power at hten hpow
    linarith only [hunit, h, hten, hpow, hfactor, hnear, hsize]

/-- **Numbers that are a little beyond the range are not read.** -/
theorem exceeds_of_le_size (h : 2 ^ 1024 + 2 ^ 975 ≤ n.size) : n.Exceeds := by
  obtain ⟨hcoefficient, hnear⟩ := gathered_near hn
  have hunit : (0 : ℚ) < 2 ^ 970 := by positivity
  have hgap : (2 ^ 975 : ℚ) = 2 ^ 970 * 2 ^ 5 := by rw [← pow_add]
  have hnonzero : 0 < n.gathered.coefficient := by
    refine Nat.pos_of_ne_zero fun hzero => ?_
    rw [hzero, Nat.cast_zero, zero_mul] at hnear
    have hsize := (abs_le.1 hnear).1
    rw [two_pow_top, hgap] at h
    generalize (2 ^ 970 : ℚ) = unit at hunit h
    linarith only [hunit, h, hsize]
  have hgrowing : 0 ≤ n.gathered.exponent := by
    refine not_lt.1 fun hsign => ?_
    have hpow : (10 : ℚ) ^ n.gathered.exponent ≤ 1 := zpow_le_one_of_nonpos₀ (by norm_num) hsign.le
    have hfactor : (n.gathered.coefficient * 10 ^ n.gathered.exponent : ℚ) ≤ n.gathered.coefficient :=
      mul_le_of_le_one_right (Nat.cast_nonneg _) hpow
    have hwhole : (n.gathered.coefficient : ℚ) ≤ 2 ^ 64 := by exact_mod_cast hcoefficient.le
    have hlarge : (2 ^ 64 : ℚ) ≤ 2 ^ 970 := pow_le_pow_right₀ (by norm_num) (by decide)
    have hsize := (abs_le.1 hnear).1
    rw [two_pow_top, hgap] at h
    generalize (2 ^ 970 : ℚ) = unit at hunit hlarge h
    linarith only [hunit, hlarge, h, hsize, hfactor, hwhole]
  refine ⟨hnonzero, hgrowing, fun hsmall => ?_⟩
  have hfactors := (abs_le.1 (factors_near hn hsmall hgrowing)).1
  rw [two_pow_top] at h ⊢
  rw [hgap] at h
  generalize (2 ^ 970 : ℚ) = unit at hunit h ⊢
  linarith only [hunit, h, hfactors]

end Size

end Json

end SpoolTag
