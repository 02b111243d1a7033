import SpoolTag.Proofs.Json.Numbers
import SpoolTag.Proofs.Number.Rounding

/-! # How exactly numbers are read

A decimal is read with up to three roundings: of its digits, of the power of ten, and of the product or
quotient. The digits of a single-precision number are few enough to be exact, so two roundings are left
and the result is off by less than four parts in `2 ^ 53` (`scaled?_near`). And a number of few binary
digits is read exactly: it has no large power of five above or below, so the power of ten is exact
too. -/

namespace SpoolTag.Json

open SpoolTag.Number
open SpoolTag.Number.Format

/-- Far from the ends of the range, rounding keeps 53 binary digits. -/
theorem round_double_near {num den : Nat} (hden : 0 < den) (hlow : 1 / 2 ^ 250 ≤ (num / den : ℚ))
    (hhigh : (num / den : ℚ) < 2 ^ 250) :
    Format.double.round num den < Format.double.infinity ∧
      |Format.double.value (Format.double.round num den) - num / den| ≤ num / den / 2 ^ 53 := by
  have hden' : (0 : ℚ) < den := by exact_mod_cast hden
  rw [div_le_div_iff₀ (by positivity) hden', one_mul] at hlow
  rw [div_lt_iff₀ hden'] at hhigh
  have hlow' : den ≤ num * 2 ^ 250 := by exact_mod_cast hlow
  have hhigh' : num < 2 ^ 250 * den := by exact_mod_cast hhigh
  have hfinite : Format.double.round num den < Format.double.infinity := by
    have hwidth : Format.double.fractionBits + 1272 = 250 + Format.double.scale := by decide
    refine round_lt_infinity hden ?_ (show 1272 + 3 < 2 ^ Format.double.exponentBits by decide)
    rw [hwidth, Nat.shiftLeft_eq, Nat.pow_add, Nat.mul_right_comm]
    exact Nat.mul_lt_mul_of_pos_right hhigh' (Nat.two_pow_pos _)
  refine ⟨hfinite, value_round_near hden ?_ hfinite⟩
  obtain ⟨r, hr⟩ : ∃ r, Format.double.scale = 250 + Format.double.fractionBits + r :=
    ⟨772, by decide⟩
  rw [hr, Nat.shiftLeft_eq]
  calc 2 ^ Format.double.fractionBits * den
      ≤ 2 ^ Format.double.fractionBits * (num * 2 ^ 250) := Nat.mul_le_mul_left _ hlow'
    _ ≤ 2 ^ Format.double.fractionBits * (num * 2 ^ 250) * 2 ^ r :=
        Nat.le_mul_of_pos_right _ (Nat.two_pow_pos r)
    _ = num * 2 ^ (250 + Format.double.fractionBits + r) := by ring

/-- Few binary digits are kept as they are. -/
theorem round_double_exact {num den t k : Nat} (hden : 0 < den) (ht : t < 2 ^ 53)
    (h : (num / den : ℚ) = t * 2 ^ k / 2 ^ 150)
    (hfinite : Format.double.round num den < Format.double.infinity) :
    Format.double.value (Format.double.round num den) = num / den := by
  have hden' : (0 : ℚ) < den := by exact_mod_cast hden
  obtain ⟨r, hr⟩ : ∃ r, Format.double.scale = 150 + r := ⟨924, by decide⟩
  refine value_round_exact (t := t) (j := k + r) hden ht ?_ hfinite
  rw [div_eq_div_iff hden'.ne' (by positivity)] at h
  have h' : num * 2 ^ 150 = t * 2 ^ k * den := by exact_mod_cast h
  rw [hr, Nat.pow_add, ← Nat.mul_assoc, h']
  ring

/-- A ratio that is near a number is rounded to near that number, and a number of few binary digits
is kept. -/
theorem round_double_of_near {num den : Nat} {y : ℚ} (hden : 0 < den) (hlow : 1 / 2 ^ 249 ≤ y)
    (hhigh : y < 2 ^ 249) (h : |(num / den : ℚ) - y| ≤ y * 2 / 2 ^ 53) :
    let w := Format.double.round num den
    w < Format.double.infinity ∧ |Format.double.value w - y| ≤ y / 2 ^ 51 ∧
      ∀ t k : Nat, t < 2 ^ 53 → (num / den : ℚ) = y → y = t * 2 ^ k / 2 ^ 150 →
        Format.double.value w = y := by
  rw [abs_le] at h
  have hlow' : (1 / 2 ^ 250 : ℚ) ≤ num / den := by linarith
  have hhigh' : (num / den : ℚ) < 2 ^ 250 := by linarith
  obtain ⟨hfinite, hnear⟩ := round_double_near hden hlow' hhigh'
  refine ⟨hfinite, ?_, fun t k ht hratio hy => ?_⟩
  · rw [abs_le] at hnear ⊢
    constructor <;> linarith
  · rw [← hratio] at hy ⊢
    exact round_double_exact hden ht hy hfinite

/-! ### The two factors -/

theorem round_whole {total : Nat} (h : total < 2 ^ 53) :
    Format.double.round total 1 < Format.double.infinity ∧
      Format.double.value (Format.double.round total 1) = total := by
  have hfinite : Format.double.round total 1 < Format.double.infinity := by
    have hwidth : Format.double.fractionBits + 1100 = 78 + Format.double.scale := by decide
    refine round_lt_infinity Nat.one_pos ?_ (show 1100 + 3 < 2 ^ Format.double.exponentBits by decide)
    rw [hwidth, Nat.shiftLeft_eq, Nat.mul_one, Nat.pow_add]
    exact Nat.mul_lt_mul_of_pos_right (h.trans (by decide)) (Nat.two_pow_pos _)
  have hvalue : (total / (1 : Nat) : ℚ) = total := by rw [Nat.cast_one, div_one]
  have hexact := round_double_exact (k := 150) Nat.one_pos h
    (by rw [hvalue, mul_div_assoc, div_self (by positivity), mul_one]) hfinite
  exact ⟨hfinite, hexact.trans hvalue⟩

theorem value_powerOfTen_near {n : Nat} (h : n ≤ 50) :
    powerOfTen n < Format.double.infinity ∧
      |Format.double.value (powerOfTen n) - 10 ^ n| ≤ 10 ^ n / 2 ^ 53 := by
  have hvalue : ((Nat.pow 10 n : Nat) / (1 : Nat) : ℚ) = 10 ^ n := by
    rw [Nat.cast_one, div_one]
    exact Nat.cast_pow 10 n
  have hone : (1 : ℚ) ≤ 10 ^ n := one_le_pow₀ (by norm_num)
  have hbound : (10 : ℚ) ^ n ≤ 10 ^ 50 := pow_le_pow_right₀ (by norm_num) h
  rw [← hvalue]
  refine round_double_near Nat.one_pos ?_ ?_
  · rw [hvalue]
    exact (show (1 / 2 ^ 250 : ℚ) ≤ 1 by norm_num).trans hone
  · rw [hvalue]
    exact lt_of_le_of_lt hbound (by norm_num)

/-- The powers of ten that are exact. -/
theorem value_powerOfTen {n : Nat} (h : n ≤ 22) : Format.double.value (powerOfTen n) = 10 ^ n := by
  have hvalue : ((Nat.pow 10 n : Nat) / (1 : Nat) : ℚ) = 10 ^ n := by
    rw [Nat.cast_one, div_one]
    exact Nat.cast_pow 10 n
  have hfive : 5 ^ n < 2 ^ 53 :=
    lt_of_le_of_lt (Nat.pow_le_pow_right (by decide) h) (by decide)
  rw [← hvalue]
  refine round_double_exact (t := 5 ^ n) (k := n + 150) Nat.one_pos hfive ?_
    (value_powerOfTen_near (by omega)).1
  rw [hvalue, show (10 : ℚ) = 5 * 2 by norm_num, mul_pow, pow_add]
  push_cast
  field_simp

/-! ### Products and quotients -/

theorem product_ratio (f : Format) (a b : Nat) :
    ((f.units a * f.units b : Nat) / (1 <<< (2 * f.scale) : Nat) : ℚ) = f.value a * f.value b := by
  rw [Nat.one_shiftLeft]
  unfold value
  push_cast
  rw [two_mul, pow_add, div_mul_div_comm]

theorem quotient_ratio (f : Format) (a b : Nat) :
    (f.units a / f.units b : ℚ) = f.value a / f.value b := by
  unfold value
  rw [div_div_div_cancel_right₀ (by positivity)]

theorem units_pos {f : Format} {b : Nat} (h : 0 < f.value b) : 0 < f.units b := by
  refine Nat.pos_of_ne_zero fun hzero => ?_
  unfold value at h
  rw [hzero, Nat.cast_zero, zero_div] at h
  exact lt_irrefl _ h

/-- A number of 53 binary digits has few factors of five. -/
theorem fives_le {n m k : Nat} (h0 : 0 < m) (hm : m < 2 ^ 53) (h : 5 ^ n ∣ m * 2 ^ k) : n ≤ 22 := by
  have hcoprime : Nat.Coprime (5 ^ n) (2 ^ k) := Nat.Coprime.pow n k (by decide)
  have hle : 5 ^ n ≤ m := Nat.le_of_dvd h0 (hcoprime.dvd_of_dvd_mul_right h)
  by_contra hlarge
  have hpow : 5 ^ 23 ≤ 5 ^ n := Nat.pow_le_pow_right (by decide) (by omega)
  have hlimit : 2 ^ 53 < 5 ^ 23 := by decide
  omega

section Factors

variable {total n : Nat} (h0 : 0 < total) (ht : total < 2 ^ 53) (hn : n ≤ 50)

include h0 ht hn

theorem product_near :
    let w := Format.double.product (Format.double.round total 1) (powerOfTen n)
    w < Format.double.infinity ∧
      |Format.double.value w - total * 10 ^ n| ≤ total * 10 ^ n / 2 ^ 51 ∧
        ∀ t k : Nat, t < 2 ^ 53 → n ≤ 22 → (total * 10 ^ n : ℚ) = t * 2 ^ k / 2 ^ 150 →
          Format.double.value w = total * 10 ^ n := by
  have hone : (1 : ℚ) ≤ 10 ^ n := one_le_pow₀ (by norm_num)
  have hbound : (10 : ℚ) ^ n ≤ 10 ^ 50 := pow_le_pow_right₀ (by norm_num) hn
  have h0' : (1 : ℚ) ≤ total := by exact_mod_cast h0
  have ht' : (total : ℚ) < 2 ^ 53 := by exact_mod_cast ht
  have hratio := product_ratio .double (Format.double.round total 1) (powerOfTen n)
  rw [(round_whole ht).2] at hratio
  have hden : 0 < 1 <<< (2 * Format.double.scale) := by
    rw [Nat.one_shiftLeft]
    exact Nat.two_pow_pos _
  have hlow : (1 / 2 ^ 249 : ℚ) ≤ total * 10 ^ n :=
    (show (1 / 2 ^ 249 : ℚ) ≤ 1 by norm_num).trans (one_le_mul_of_one_le_of_one_le h0' hone)
  have hhigh : (total * 10 ^ n : ℚ) < 2 ^ 249 :=
    lt_of_le_of_lt (mul_le_mul ht'.le hbound (by positivity) (by positivity)) (by norm_num)
  have hnear : |(total * Format.double.value (powerOfTen n) - total * 10 ^ n : ℚ)| ≤
      total * 10 ^ n * 2 / 2 ^ 53 := by
    rw [← mul_sub, abs_mul, Nat.abs_cast, mul_assoc, mul_div_assoc]
    gcongr
    refine (value_powerOfTen_near hn).2.trans ?_
    linarith
  obtain ⟨hfinite, hclose, hexact⟩ := round_double_of_near hden hlow hhigh (hratio ▸ hnear)
  refine ⟨hfinite, hclose, fun t k htt hsmall hx => hexact t k htt ?_ hx⟩
  rw [hratio, value_powerOfTen hsmall]

theorem quotient_near :
    let w := Format.double.quotient (Format.double.round total 1) (powerOfTen n)
    w < Format.double.infinity ∧
      |Format.double.value w - total / 10 ^ n| ≤ total / 10 ^ n / 2 ^ 51 ∧
        ∀ t k : Nat, t < 2 ^ 53 → n ≤ 22 → (total / 10 ^ n : ℚ) = t * 2 ^ k / 2 ^ 150 →
          Format.double.value w = total / 10 ^ n := by
  have hone : (1 : ℚ) ≤ 10 ^ n := one_le_pow₀ (by norm_num)
  have hbound : (10 : ℚ) ^ n ≤ 10 ^ 50 := pow_le_pow_right₀ (by norm_num) hn
  have h0' : (1 : ℚ) ≤ total := by exact_mod_cast h0
  have ht' : (total : ℚ) < 2 ^ 53 := by exact_mod_cast ht
  have hratio := quotient_ratio .double (Format.double.round total 1) (powerOfTen n)
  rw [(round_whole ht).2] at hratio
  have hpower := (value_powerOfTen_near hn).2
  have hhalf : (10 ^ n / 2 : ℚ) ≤ Format.double.value (powerOfTen n) := by
    have := (abs_le.1 hpower).1
    linarith
  have hden : 0 < Format.double.units (powerOfTen n) := units_pos (by linarith)
  have hlow : (1 / 2 ^ 249 : ℚ) ≤ total / 10 ^ n :=
    (show (1 / 2 ^ 249 : ℚ) ≤ 1 / 10 ^ 50 by norm_num).trans
      (div_le_div₀ (by positivity) h0' (by positivity) hbound)
  have hhigh : (total / 10 ^ n : ℚ) < 2 ^ 249 :=
    lt_of_le_of_lt (div_le_self (by positivity) hone) (ht'.trans (by norm_num))
  -- the quotient by the rounded power is off by as much as that power is
  have hnear : |(total / Format.double.value (powerOfTen n) - total / 10 ^ n : ℚ)| ≤
      total / 10 ^ n * 2 / 2 ^ 53 := by
    generalize Format.double.value (powerOfTen n) = p at *
    generalize (10 : ℚ) ^ n = x at *
    have hx : 0 < x := by linarith
    have hp : 0 < p := by linarith
    have hgap : |x - p| / p ≤ 2 / 2 ^ 53 := by
      rw [abs_sub_comm, div_le_div_iff₀ hp (by positivity)]
      linarith
    calc |total / p - total / x| = total / x * (|x - p| / p) := by
          rw [div_sub_div _ _ hp.ne' hx.ne', mul_comm p (total : ℚ), ← mul_sub, abs_div, abs_mul,
            Nat.abs_cast, abs_of_pos (mul_pos hp hx)]
          field_simp
      _ ≤ total / x * (2 / 2 ^ 53) := by gcongr
      _ = total / x * 2 / 2 ^ 53 := by rw [mul_div_assoc]
  obtain ⟨hfinite, hclose, hexact⟩ := round_double_of_near hden hlow hhigh (hratio ▸ hnear)
  refine ⟨hfinite, hclose, fun t k htt hsmall hx => hexact t k htt ?_ hx⟩
  rw [hratio, value_powerOfTen hsmall]

end Factors

/-- **How a decimal of few digits is read**: almost exactly, and exactly if it needs few binary
digits. -/
theorem scaled?_near {total : Nat} {e : Int} (h0 : 0 < total) (ht : total < 2 ^ 53)
    (he : e.natAbs ≤ 50) :
    ∃ w, scaled? total e = some w ∧ w < Format.double.infinity ∧
      |Format.double.value w - total * 10 ^ e| ≤ total * 10 ^ e / 2 ^ 51 ∧
        ∀ t k : Nat, t < 2 ^ 53 → (total * 10 ^ e : ℚ) = t * 2 ^ k / 2 ^ 150 →
          Format.double.value w = total * 10 ^ e := by
  unfold scaled? scale?
  rw [if_pos (by omega)]
  dsimp only
  rcases le_or_gt 0 e with hsign | hsign
  · have hpow : (10 : ℚ) ^ e = 10 ^ e.natAbs := by
      rw [← zpow_natCast, Int.natAbs_of_nonneg hsign]
    obtain ⟨hfinite, hnear, hexact⟩ := product_near h0 ht he
    rw [if_pos hsign, if_pos hfinite, hpow]
    refine ⟨_, rfl, hfinite, hnear, fun t k htt hx => hexact t k htt ?_ hx⟩
    rw [eq_div_iff (by positivity)] at hx
    have hx' : total * 10 ^ e.natAbs * 2 ^ 150 = t * 2 ^ k := by exact_mod_cast hx
    have hpos : 0 < t * 2 ^ k := by
      rw [← hx']
      positivity
    refine fives_le (Nat.pos_of_mul_pos_right hpos) htt (k := k) ?_
    rw [← hx', show 10 = 2 * 5 by rfl, Nat.mul_pow]
    exact ⟨total * 2 ^ e.natAbs * 2 ^ 150, by ring⟩
  · have hpow : (total * 10 ^ e : ℚ) = total / 10 ^ e.natAbs := by
      rw [← zpow_natCast, Int.ofNat_natAbs_of_nonpos hsign.le, zpow_neg, div_inv_eq_mul]
    obtain ⟨hfinite, hnear, hexact⟩ := quotient_near h0 ht he
    rw [if_neg (by omega), hpow]
    refine ⟨_, rfl, hfinite, hnear, fun t k htt hx => hexact t k htt ?_ hx⟩
    rw [div_eq_div_iff (by positivity) (by positivity)] at hx
    have hx' : total * 2 ^ 150 = t * 2 ^ k * 10 ^ e.natAbs := by exact_mod_cast hx
    refine fives_le h0 ht (k := 150) ?_
    rw [hx', show 10 = 2 * 5 by rfl, Nat.mul_pow]
    exact ⟨t * 2 ^ k * 2 ^ e.natAbs, by ring⟩

end SpoolTag.Json
