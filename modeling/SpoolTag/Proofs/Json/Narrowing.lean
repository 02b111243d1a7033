import SpoolTag.Proofs.Json.Scaling
import SpoolTag.Proofs.Number.Bracket
import SpoolTag.Proofs.Number.Digits

/-! # A single-precision number is read back

The shortest decimal of a single-precision number is read to double precision first, and only then
rounded to single precision. The decimal lies in the interval of the number, and what is read is close
to it; so both roundings together miss the number only if an end of the interval lies between the two
(`exists_end`). Such an end is a small multiple of half a unit of the last place, and the decimal has
few digits where it comes that close to one (`step_le`). How close the multiples of a power of two and
those of a power of ten come to each other is settled by a bracket of their ratio, one for each of the
254 powers of two. What the brackets leave over is a short list of decimals, and each of them is read as
it should be or is no shortest decimal (`cleared`). -/

namespace SpoolTag.Json

open SpoolTag.Number
open SpoolTag.Number.Format

/-- The single-precision magnitude as which a decimal is read. -/
def narrowed? (d : Decimal) : Option Nat :=
  (scaled? (readAs .documentSingle d).coefficient (readAs .documentSingle d).exponent).map
    (Format.double.convert .single)

/-! ### What is read -/

section Shortest

variable {b : Nat} {d : Decimal}

theorem scale_single : Format.single.scale = 149 := by decide

/-- The bounds of the reach and of the upper end, with the number of binary digits between them. -/
theorem reach_bounds (h0 : 0 < b) (hb : b < Format.single.infinity) :
    1 / 2 ^ 151 ≤ Format.single.reach b ∧
      ∀ x : ℚ, Format.single.Owns b x → x < 2 ^ 129 ∧ x < 2 ^ 27 * Format.single.reach b := by
  obtain ⟨hlength, hreach, hupper⟩ := reach_single h0 hb
  have hunit : (0 : ℚ) < 4 * 2 ^ 149 := by positivity
  unfold Format.reach Owns
  rw [scale_single]
  refine ⟨?_, fun x hx => ?_⟩
  · rw [div_le_div_iff₀ (by positivity) hunit]
    have hone : (1 : ℚ) ≤ 2 ^ (bitLength (Format.single.units b) - 24) :=
      one_le_pow₀ (by norm_num)
    linarith
  · have hle : x * (4 * 2 ^ 149) ≤ (Format.single.interval b).upper := hx.bounds.2
    have hlt : x * (4 * 2 ^ 149) < 2 ^ (bitLength (Format.single.units b) + 3) :=
      lt_of_le_of_lt hle (by exact_mod_cast hupper)
    generalize bitLength (Format.single.units b) = length at *
    constructor
    · have hmost : (2 : ℚ) ^ (length + 3) ≤ 2 ^ 280 :=
        pow_le_pow_right₀ (by norm_num) (by omega)
      rw [← mul_lt_mul_iff_left₀ hunit]
      refine lt_of_lt_of_le (hlt.trans_le hmost) (le_of_eq ?_)
      rw [show (4 : ℚ) = 2 ^ 2 by norm_num, ← pow_add, ← pow_add]
    · have hmost : (2 : ℚ) ^ (length + 3) ≤ 2 ^ (27 + (length - 24)) :=
        pow_le_pow_right₀ (by norm_num) (by omega)
      rw [← mul_div_assoc, lt_div_iff₀ hunit]
      rw [pow_add _ 27] at hmost
      linarith

/-- The grid of the shortest decimal is neither very coarse nor very fine, and its digits are few. -/
theorem shortest_range (h0 : 0 < b) (hb : b < Format.single.infinity)
    (hd : Format.single.Shortest b d) :
    -46 ≤ d.exponent ∧ d.exponent ≤ 38 ∧ d.coefficient < 2 ^ 31 := by
  obtain ⟨hreach, howns⟩ := reach_bounds h0 hb
  obtain ⟨hlt, hdigits⟩ := howns _ hd.owned
  have hfine := hd.fine
  have hstep : (0 : ℚ) < 10 ^ d.exponent := by positivity
  have hone : (1 : ℚ) ≤ d.coefficient := by exact_mod_cast hd.pos
  refine ⟨?_, ?_, ?_⟩
  · have hsmall : (10 : ℚ) ^ (-46 : ℤ) < 10 ^ (d.exponent + 1) :=
      lt_of_lt_of_le (by norm_num) (hreach.trans hfine.le)
    have := (zpow_lt_zpow_iff_right₀ (by norm_num : (1 : ℚ) < 10)).1 hsmall
    omega
  · have hlarge : (10 : ℚ) ^ d.exponent < 10 ^ (39 : ℤ) :=
      lt_of_le_of_lt (le_mul_of_one_le_left hstep.le hone) (hlt.trans (by norm_num))
    have := (zpow_lt_zpow_iff_right₀ (by norm_num : (1 : ℚ) < 10)).1 hlarge
    omega
  · rw [zpow_add_one₀ (by norm_num)] at hfine
    have hcoefficient : (d.coefficient * 10 ^ d.exponent : ℚ) < 2 ^ 31 * 10 ^ d.exponent := by
      linarith
    have := (mul_lt_mul_iff_left₀ hstep).1 hcoefficient
    exact_mod_cast this

/-- What a decimal is read as is the same number, with few digits still. -/
theorem readAs_shortest (h0 : 0 < b) (hb : b < Format.single.infinity)
    (hd : Format.single.Shortest b d) :
    0 < (readAs .documentSingle d).coefficient ∧ (readAs .documentSingle d).coefficient < 2 ^ 53 ∧
      (readAs .documentSingle d).exponent.natAbs ≤ 50 ∧
        ((readAs .documentSingle d).coefficient * 10 ^ (readAs .documentSingle d).exponent : ℚ) =
          d.coefficient * 10 ^ d.exponent := by
  obtain ⟨hlow, hhigh, hdigits⟩ := shortest_range h0 hb hd
  have hpos := hd.pos
  unfold readAs padded
  split
  · next hplain =>
    split
    · next hwhole =>
      refine ⟨Nat.mul_pos hpos (Nat.pow_pos (by decide)), ?_, by simp, ?_⟩
      · have hleading : d.leading ≤ 12 := by
          unfold Style.documentSingle at hplain
          simp only [Bool.and_eq_true, decide_eq_true_eq] at hplain
          exact hplain.2
        unfold Decimal.leading at hleading
        calc d.coefficient * 10 ^ (d.exponent.toNat + 1)
            < 10 ^ d.digits.length * 10 ^ (d.exponent.toNat + 1) :=
              Nat.mul_lt_mul_of_pos_right d.lt_pow_digits (Nat.pow_pos (by decide))
          _ = 10 ^ (d.digits.length + (d.exponent.toNat + 1)) := (Nat.pow_add _ _ _).symm
          _ ≤ 10 ^ 14 := Nat.pow_le_pow_right (by decide) (by omega)
          _ < 2 ^ 53 := by decide
      · have hexponent : d.exponent = d.exponent.toNat := (Int.toNat_of_nonneg hwhole).symm
        dsimp only
        rw [hexponent, zpow_natCast, Int.toNat_natCast]
        push_cast
        rw [pow_succ, zpow_neg_one]
        field_simp
    · exact ⟨hpos, by omega, by omega, rfl⟩
  · exact ⟨hpos, by omega, by omega, rfl⟩

end Shortest

/-! ### The ends of an interval -/

/-- Between a number in an interval and one outside lies an end. -/
theorem exists_end {i : Interval} {x y : ℚ} (hx : i.Holds x) (hy : ¬ i.Holds y) :
    ∃ bound : Nat, (bound = i.lower ∨ bound = i.upper) ∧ |x - bound| ≤ |y - x| := by
  have hsides : (y ≤ i.lower ∧ (i.lower : ℚ) ≤ x) ∨ (x ≤ i.upper ∧ (i.upper : ℚ) ≤ y) := by
    unfold Interval.Holds at hx hy
    by_cases hclosed : i.closed = true
    · rw [if_pos hclosed] at hx hy
      rw [not_and_or, not_le, not_le] at hy
      exact hy.imp (fun h => ⟨h.le, hx.1⟩) fun h => ⟨hx.2, h.le⟩
    · rw [if_neg hclosed] at hx hy
      rw [not_and_or, not_lt, not_lt] at hy
      exact hy.imp (fun h => ⟨h, hx.1.le⟩) fun h => ⟨hx.2.le, h⟩
  rcases hsides with ⟨hy, hx⟩ | ⟨hx, hy⟩
  · refine ⟨_, .inl rfl, ?_⟩
    rw [abs_of_nonneg (by linarith), abs_of_nonpos (by linarith)]
    linarith
  · refine ⟨_, .inr rfl, ?_⟩
    rw [abs_of_nonpos (by linarith), abs_of_nonneg (by linarith)]
    linarith

section Ends

variable {b : Nat} (h0 : 0 < b) (hb : b < Format.single.infinity)

include h0 hb

/-- An end is a multiple of the power of two that it is away from the number. -/
theorem interval_end {bound : Nat}
    (h : bound = (Format.single.interval b).lower ∨ bound = (Format.single.interval b).upper) :
    ∃ m j : Nat, m < 2 ^ 25 ∧ j < 254 ∧ bound = m * 2 ^ (j + 1) ∧
      |((Format.single.interval b).center : ℚ) - bound| = 2 ^ (j + 1) ∧
        (2 : ℚ) ^ j ≤ (Format.single.interval b).reach := by
  obtain ⟨-, hs, -⟩ := Format.single.compose b
  obtain ⟨hcenter, hupper, hlower⟩ := Format.single.interval_reach h0
  have hdoublings := doublings_single_le hb
  have hpos := Format.single.significand_pos h0
  change Format.single.significand b < 2 ^ 24 at hs
  unfold Interval.reach
  generalize Format.single.significand b = s at *
  generalize Format.single.doublings b = shift at *
  generalize (Format.single.interval b).lower = lower at *
  generalize (Format.single.interval b).center = center at *
  generalize (Format.single.interval b).upper = upper at *
  have hcenter' : (center : ℚ) = 4 * (s * 2 ^ shift) := by exact_mod_cast hcenter
  have hupper' : (upper : ℚ) = center + 2 * 2 ^ shift := by exact_mod_cast hupper
  have hpower : (0 : ℚ) < 2 ^ shift := by positivity
  obtain ⟨s, rfl⟩ := Nat.exists_eq_succ_of_ne_zero hpos.ne'
  rcases h with rfl | rfl
  · rcases hlower with hlower | ⟨hs', hshift, hlower⟩
    · have hlower' : (bound + 2 * 2 ^ shift : ℚ) = center := by exact_mod_cast hlower
      refine ⟨2 * s + 1, shift, by omega, by omega, ?_, ?_, by linarith⟩
      · rw [hcenter] at hlower
        refine Nat.add_right_cancel (m := 2 * 2 ^ shift) (hlower.trans ?_)
        rw [pow_succ]
        simp only [Nat.succ_eq_add_one]
        ring
      · rw [← hlower', pow_succ, add_sub_cancel_left, abs_of_pos (by positivity)]
        ring
    · -- below a power of two, where the numbers lie twice as dense
      obtain ⟨shift, rfl⟩ := Nat.exists_eq_succ_of_ne_zero hshift.ne'
      have hlower' : (bound + 2 ^ (shift + 1) : ℚ) = center := by exact_mod_cast hlower
      change s + 1 = 2 ^ 23 at hs'
      refine ⟨4 * s + 3, shift, by omega, by omega, ?_, ?_, ?_⟩
      · rw [hcenter] at hlower
        refine Nat.add_right_cancel (m := 2 ^ (shift + 1)) (hlower.trans ?_)
        simp only [Nat.succ_eq_add_one]
        ring
      · rw [← hlower', add_sub_cancel_left, abs_of_pos (by positivity)]
      · rw [← hlower', pow_succ]
        linarith [show (0 : ℚ) < 2 ^ shift by positivity]
  · refine ⟨2 * s + 3, shift, by omega, by omega, ?_, ?_, ?_⟩
    · rw [hupper, hcenter]
      simp only [Nat.succ_eq_add_one]
      ring
    · rw [hupper', sub_add_cancel_left, abs_neg, abs_of_pos (by positivity), pow_succ, mul_comm]
    · rcases hlower with hlower | ⟨-, -, hlower⟩
      · have hlower' : (lower + 2 * 2 ^ shift : ℚ) = center := by exact_mod_cast hlower
        linarith
      · have hlower' : (lower + 2 ^ shift : ℚ) = center := by exact_mod_cast hlower
        linarith

/-- The same between numbers. -/
theorem exists_near_end {x y : ℚ} (hx : Format.single.Owns b x) (hy : ¬ Format.single.Owns b y) :
    ∃ m j : Nat, m < 2 ^ 25 ∧ j < 254 ∧ |x - m * 2 ^ j / 2 ^ 150| ≤ |y - x| ∧
      |Format.single.value b - m * 2 ^ j / 2 ^ 150| = 2 ^ j / 2 ^ 150 ∧
        2 ^ j / 2 ^ 151 ≤ Format.single.reach b := by
  obtain ⟨bound, hbound, hnear⟩ := exists_end hx hy
  obtain ⟨m, j, hm, hj, rfl, hdistance, hreach⟩ := interval_end h0 hb hbound
  have hunit : (0 : ℚ) < 4 * 2 ^ 149 := by positivity
  have hcenter := Format.single.interval_center b
  rw [scale_single] at hcenter
  have hend : ((m * 2 ^ (j + 1) : Nat) : ℚ) = m * 2 ^ j / 2 ^ 150 * (4 * 2 ^ 149) := by
    push_cast
    field_simp
    ring
  rw [scale_single, hend, ← sub_mul, ← sub_mul, abs_mul, abs_mul (y - x), abs_of_pos hunit,
    mul_le_mul_iff_left₀ hunit] at hnear
  rw [hend, hcenter, ← sub_mul, abs_mul, abs_of_pos hunit] at hdistance
  refine ⟨m, j, hm, hj, hnear, ?_, ?_⟩
  · rw [eq_div_of_mul_eq hunit.ne' hdistance]
    field_simp
    ring
  · unfold Format.reach
    rw [scale_single, div_le_div_iff₀ (by positivity) hunit]
    linarith

end Ends

/-- **An end is only near where the decimal has few digits**: the grid of the decimal is no finer than
half the distance of the end from the number. -/
theorem step_le {b : Nat} {d : Decimal} (hd : Format.single.Shortest b d) {m j : Nat} (hm : m < 2 ^ 25)
    (hnear : |(d.coefficient * 10 ^ d.exponent - m * 2 ^ j / 2 ^ 150 : ℚ)| ≤
      d.coefficient * 10 ^ d.exponent / 2 ^ 51)
    (hdistance : |Format.single.value b - m * 2 ^ j / 2 ^ 150| = 2 ^ j / 2 ^ 150)
    (hreach : 2 ^ j / 2 ^ 151 ≤ Format.single.reach b) : (2 : ℚ) ^ j / 2 ^ 151 ≤ 10 ^ d.exponent := by
  rcases hd.inside with hinside | hcoarse
  · by_contra hfine
    have hm' : (m : ℚ) < 2 ^ 25 := by exact_mod_cast hm
    have hunit : (0 : ℚ) < 2 ^ j / 2 ^ 150 := by positivity
    have hhalf : (2 : ℚ) ^ j / 2 ^ 151 = 2 ^ j / 2 ^ 150 / 2 := by
      field_simp
    have hend : (m * 2 ^ j / 2 ^ 150 : ℚ) < 2 ^ 25 * (2 ^ j / 2 ^ 150) := by
      rw [mul_div_assoc]
      exact mul_lt_mul_of_pos_right hm' hunit
    rw [not_le, hhalf] at hfine
    generalize (m * 2 ^ j / 2 ^ 150 : ℚ) = bound at *
    generalize (d.coefficient * 10 ^ d.exponent : ℚ) = x at *
    generalize (2 ^ j / 2 ^ 150 : ℚ) = unit at *
    generalize Format.single.value b = v at *
    rw [abs_le] at hnear hinside
    rcases abs_cases (v - bound) with ⟨h, -⟩ | ⟨h, -⟩ <;> rw [h] at hdistance <;> linarith
  · exact hreach.trans hcoarse

/-! ### Decimals near an end -/

/-- The exponent of the least power of ten that is not below `2 ^ (j - 151)`. -/
@[irreducible]
def gridExponent (j : Nat) : Int := -((151 - (j : Int)) * 30103 / 100000)

/-- The ratio of that power of ten to `2 ^ (j - 150)`, as numerator and denominator. -/
def gridRatio (j : Nat) : Nat × Nat :=
  (10 ^ (gridExponent j).toNat * 2 ^ (150 - j), 10 ^ (-gridExponent j).toNat * 2 ^ (j - 150))

/-- The largest coefficient of a decimal on the grid that comes near an end. -/
def gridLimit (j : Nat) : Nat :=
  2 ^ 25 * (gridRatio j).2 * 2 ^ 51 / ((gridRatio j).1 * (2 ^ 51 - 1))

/-- A bracket of the ratio that is narrow enough. -/
def gridBracket (j : Nat) : Bracket :=
  .search (gridRatio j).1 (gridRatio j).2 (gridLimit j) 60 true .start

/-- The single-precision magnitude nearest to a decimal. -/
def nearestSingle (d : Decimal) : Nat :=
  Format.single.round (d.coefficient * 10 ^ d.exponent.toNat) (10 ^ (-d.exponent).toNat)

theorem nearestSingle_eq_iff {d : Decimal} {b : Nat} (hb : b < Format.single.infinity) :
    nearestSingle d = b ↔ Format.single.Owns b (d.coefficient * 10 ^ d.exponent) := by
  have hratio : ((d.coefficient * 10 ^ d.exponent.toNat : Nat) / (10 ^ (-d.exponent).toNat : Nat) : ℚ) =
      d.coefficient * 10 ^ d.exponent := by
    rw [Nat.mul_comm, mul_comm (d.coefficient : ℚ)]
    exact Interval.ten_zpow d.exponent d.coefficient
  rw [← hratio]
  exact round_eq_iff_owns (by decide) (Nat.pow_pos (by decide)) hb

/-- The decimal is read as the nearest number, or it is not the shortest one of that number. -/
def Harmless (d : Decimal) : Prop :=
  d.coefficient % 10 ≠ 0 ∧
    (Format.single.shortest .even (nearestSingle d) = d → narrowed? d = some (nearestSingle d))

instance (d : Decimal) : Decidable (Harmless d) := inferInstanceAs (Decidable (_ ∧ _))

/-- Whatever comes near an end is harmless. -/
structure Cleared (j : Nat) : Prop where
  grid : 10 ^ (gridExponent j - 1).toNat * 2 ^ 151 < 2 ^ j * 10 ^ (-(gridExponent j - 1)).toNat
  limit : gridLimit j < (gridBracket j).q + (gridBracket j).s
  wide : gridLimit j * (gridRatio j).1 <
    ((gridBracket j).below (gridRatio j).1 (gridRatio j).2 +
      (gridBracket j).above (gridRatio j).1 (gridRatio j).2) * 2 ^ 51
  harmless : ∀ s ∈ (gridBracket j).suspects (gridRatio j).1 (gridRatio j).2 (2 ^ 51),
    ∀ k < gridLimit j / s, Harmless ⟨(k + 1) * s, gridExponent j⟩

instance (j : Nat) : Decidable (Cleared j) :=
  decidable_of_iff (_ ∧ _ ∧ _ ∧ _) ⟨fun ⟨h1, h2, h3, h4⟩ => ⟨h1, h2, h3, h4⟩,
    fun ⟨h1, h2, h3, h4⟩ => ⟨h1, h2, h3, h4⟩⟩

theorem cleared : ∀ j < 254, Cleared j := by decide +kernel

section Near

variable {d : Decimal} {m j : Nat}

theorem gridRatio_pos (j : Nat) : 0 < (gridRatio j).1 ∧ 0 < (gridRatio j).2 :=
  ⟨Nat.mul_pos (Nat.pow_pos (by decide)) (Nat.two_pow_pos _),
    Nat.mul_pos (Nat.pow_pos (by decide)) (Nat.two_pow_pos _)⟩

/-- The decimal lies on the grid. -/
theorem gridExponent_le (hj : j < 254) (h : (2 : ℚ) ^ j / 2 ^ 151 ≤ 10 ^ d.exponent) :
    gridExponent j ≤ d.exponent := by
  have hgrid := (cleared j hj).grid
  have hden : (0 : ℚ) < (Nat.pow 10 (-(gridExponent j - 1)).toNat : Nat) := by
    exact_mod_cast Nat.pow_pos (n := (-(gridExponent j - 1)).toNat) (show 0 < 10 by decide)
  have hbelow : (10 : ℚ) ^ (gridExponent j - 1) * (2 ^ 151 : Nat) < 2 ^ j := by
    rw [← Interval.ten_zpow, div_lt_iff₀ hden]
    exact_mod_cast hgrid
  rw [div_le_iff₀ (by positivity)] at h
  have hlt : (10 : ℚ) ^ (gridExponent j - 1) < 10 ^ d.exponent := by
    push_cast at hbelow
    exact lt_of_mul_lt_mul_right (hbelow.trans_le h) (by positivity)
  have := (zpow_lt_zpow_iff_right₀ (by norm_num : (1 : ℚ) < 10)).1 hlt
  omega

/-- The decimal and the end, both times one number that makes them whole. -/
theorem grid_eq (c m : Nat) (j : Nat) :
    ∃ unit : ℚ, 0 < unit ∧ (c * 10 ^ gridExponent j : ℚ) * unit = c * (gridRatio j).1 ∧
      (m * 2 ^ j / 2 ^ 150 : ℚ) * unit = m * (gridRatio j).2 := by
  refine ⟨10 ^ (-gridExponent j).toNat * 2 ^ (150 - j), by positivity, ?_, ?_⟩
  · have hten := Interval.ten_zpow (gridExponent j) 1
    have hpower : (10 : ℚ) ^ gridExponent j * 10 ^ (-gridExponent j).toNat =
        10 ^ (gridExponent j).toNat := by
      rw [Nat.mul_one, Nat.cast_one, mul_one] at hten
      rw [← hten]
      change ((10 ^ _ : Nat) / (10 ^ _ : Nat) : ℚ) * _ = _
      push_cast
      exact div_mul_cancel₀ _ (by positivity)
    unfold gridRatio
    push_cast
    rw [← hpower]
    ring
  · have hpower : (2 : ℚ) ^ j * 2 ^ (150 - j) = 2 ^ 150 * 2 ^ (j - 150) := by
      have hsum : j + (150 - j) = 150 + (j - 150) := by omega
      rw [← pow_add, ← pow_add, hsum]
    unfold gridRatio
    push_cast
    rw [div_mul_eq_mul_div, div_eq_iff (by positivity)]
    linear_combination (m : ℚ) * 10 ^ (-gridExponent j).toNat * hpower

/-- A coefficient on the grid that comes near an end is not above the limit. -/
theorem le_gridLimit {c : Nat} (hm : m < 2 ^ 25)
    (hclose : |(c * (gridRatio j).1 - m * (gridRatio j).2 : ℚ)| * (2 ^ 51 : Nat) ≤
      c * (gridRatio j).1) : c ≤ gridLimit j := by
  have hm' : (m * (gridRatio j).2 : ℚ) ≤ 2 ^ 25 * (gridRatio j).2 := by
    exact_mod_cast Nat.mul_le_mul_right _ hm.le
  have hle := mul_le_mul_of_nonneg_right
    (le_abs_self (c * (gridRatio j).1 - m * (gridRatio j).2 : ℚ))
    (show (0 : ℚ) ≤ (2 ^ 51 : Nat) by positivity)
  have hbound : (c * ((gridRatio j).1 * (2 ^ 51 - 1)) : ℚ) ≤ 2 ^ 25 * (gridRatio j).2 * 2 ^ 51 := by
    have h := hle.trans hclose
    push_cast at h
    linarith
  have hsub : ((2 ^ 51 - 1 : Nat) : ℚ) = 2 ^ 51 - 1 := by norm_num
  unfold gridLimit
  rw [Nat.le_div_iff_mul_le (Nat.mul_pos (gridRatio_pos j).1 (by decide))]
  rw [← hsub] at hbound
  exact_mod_cast hbound

/-- A multiple of a suspect is harmless. -/
theorem Cleared.harmless_mul (hc : Cleared j) {s k : Nat}
    (hs : s ∈ (gridBracket j).suspects (gridRatio j).1 (gridRatio j).2 (2 ^ 51))
    (hpos : 0 < k * s) (hlimit : k * s ≤ gridLimit j) : Harmless ⟨k * s, gridExponent j⟩ := by
  have hk : 0 < k := Nat.pos_of_mul_pos_right hpos
  have hle : k ≤ gridLimit j / s := (Nat.le_div_iff_mul_le (Nat.pos_of_mul_pos_left hpos)).2 hlimit
  have hharmless := hc.harmless s hs (k - 1) (by omega)
  rwa [Nat.sub_add_cancel hk] at hharmless

/-- **Whatever comes near an end on the grid is harmless.** -/
theorem harmless_of_near_grid {c : Nat} (hc : 0 < c) (hm : m < 2 ^ 25) (hj : j < 254)
    (hmiss : (c * 10 ^ gridExponent j : ℚ) ≠ m * 2 ^ j / 2 ^ 150)
    (hnear : |(c * 10 ^ gridExponent j - m * 2 ^ j / 2 ^ 150 : ℚ)| ≤
      c * 10 ^ gridExponent j / 2 ^ 51) : Harmless ⟨c, gridExponent j⟩ := by
  obtain ⟨unit, hunit, hleft, hright⟩ := grid_eq c m j
  -- all of it in whole numbers
  have hmiss' : c * (gridRatio j).1 ≠ m * (gridRatio j).2 := by
    intro heq
    refine hmiss (mul_right_cancel₀ hunit.ne' ?_)
    rw [hleft, hright]
    exact_mod_cast heq
  have hclose : |(c * (gridRatio j).1 - m * (gridRatio j).2 : ℚ)| * (2 ^ 51 : Nat) ≤
      c * (gridRatio j).1 := by
    rw [← hleft, ← hright, ← sub_mul, abs_mul, abs_of_pos hunit, mul_right_comm]
    refine mul_le_mul_of_nonneg_right ?_ hunit.le
    rw [le_div_iff₀ (by positivity)] at hnear
    exact_mod_cast hnear
  have hlimit := le_gridLimit hm hclose
  have hcleared := cleared j hj
  have hencloses : (gridBracket j).Encloses (gridRatio j).1 (gridRatio j).2 :=
    Bracket.encloses_start.search 60 true
  obtain ⟨s, hs, k, rfl⟩ := hencloses.exists_suspect hcleared.limit hcleared.wide hc hlimit hmiss'
    (by exact_mod_cast hclose)
  exact hcleared.harmless_mul hs hc hlimit

/-- A decimal that comes near an end lies on the grid of the end, or would if it had no zero at its
own end. -/
theorem harmless_of_near (hd : 0 < d.coefficient) (hm : m < 2 ^ 25) (hj : j < 254)
    (hstep : (2 : ℚ) ^ j / 2 ^ 151 ≤ 10 ^ d.exponent)
    (hmiss : (d.coefficient * 10 ^ d.exponent : ℚ) ≠ m * 2 ^ j / 2 ^ 150)
    (hnear : |(d.coefficient * 10 ^ d.exponent - m * 2 ^ j / 2 ^ 150 : ℚ)| ≤
      d.coefficient * 10 ^ d.exponent / 2 ^ 51) : Harmless d := by
  obtain ⟨n, hn⟩ := Int.eq_ofNat_of_zero_le (sub_nonneg.2 (gridExponent_le hj hstep))
  obtain ⟨coefficient, exponent⟩ := d
  obtain rfl : exponent = gridExponent j + n := by
    dsimp only at hn
    omega
  dsimp only at *
  have hgrid : (coefficient * 10 ^ (gridExponent j + n) : ℚ) =
      (coefficient * 10 ^ n : Nat) * 10 ^ gridExponent j := by
    rw [zpow_add₀ (by norm_num), zpow_natCast]
    push_cast
    ring
  rw [hgrid] at hmiss hnear
  have hharmless := harmless_of_near_grid (Nat.mul_pos hd (Nat.pow_pos (by decide))) hm hj hmiss hnear
  -- a zero at the end would belong to the exponent
  obtain rfl : n = 0 := by
    by_contra hn0
    obtain ⟨n, rfl⟩ := Nat.exists_eq_succ_of_ne_zero hn0
    refine hharmless.1 ?_
    dsimp only
    rw [Nat.pow_succ, ← Nat.mul_assoc, Nat.mul_mod_left]
  rwa [Nat.pow_zero, Nat.mul_one, Nat.cast_zero, add_zero] at *

end Near

/-! ### Reading back -/

/-- What lies in the interval of a number is made that number. -/
theorem convert_of_owns {w b : Nat} (hw : w < Format.double.infinity) (hb : b < Format.single.infinity)
    (h : Format.single.Owns b (Format.double.value w)) : Format.double.convert .single w = b := by
  rw [convert, if_pos hw, Nat.one_shiftLeft]
  refine round_of_owns (Nat.two_pow_pos _) hb ?_
  push_cast
  exact h

section Back

variable {b : Nat} (h0 : 0 < b) (hb : b < Format.single.infinity)

include h0 hb

theorem nearestSingle_shortest (tie : Tie) :
    nearestSingle (Format.single.shortest tie b) = b :=
  (nearestSingle_eq_iff hb).2 (shortest_single tie h0 hb).owned

/-- **The shortest decimal of a number is read as the number**, although it is rounded twice. -/
theorem narrowed?_shortest : narrowed? (Format.single.shortest .even b) = some b := by
  have hd := shortest_single .even h0 hb
  have hsame := nearestSingle_shortest h0 hb .even
  obtain ⟨hpos, hfew, hexponent, hvalue⟩ := readAs_shortest h0 hb hd
  obtain ⟨w, hw, hfinite, hnear, hexact⟩ := scaled?_near hpos hfew hexponent
  rw [hvalue] at hnear hexact
  by_cases howns : Format.single.Owns b (Format.double.value w)
  · unfold narrowed?
    rw [hw, Option.map_some, convert_of_owns hfinite hb howns]
  · obtain ⟨m, j, hm, hj, hend, hdistance, hreach⟩ := exists_near_end h0 hb hd.owned howns
    have hmiss : ((Format.single.shortest .even b).coefficient *
        10 ^ (Format.single.shortest .even b).exponent : ℚ) ≠ m * 2 ^ j / 2 ^ 150 := by
      intro heq
      refine howns ?_
      rw [hexact m j (hm.trans (by decide)) heq]
      exact hd.owned
    have hharmless := harmless_of_near hd.pos hm hj
      (step_le hd hm (hend.trans hnear) hdistance hreach) hmiss (hend.trans hnear)
    rw [Harmless, hsame] at hharmless
    exact hharmless.2 rfl

end Back

theorem spells_zero : Spells { whole := ['0'], fraction := ['0'] } ⟨0, -1⟩ := by
  refine ⟨⟨⟨List.cons_ne_nil _ _, ?_⟩, fun _ => rfl, ?_, fun _ h => nomatch h⟩,
    .inl (List.cons_ne_nil _ _), rfl, rfl⟩
  · rintro c (_ | ⟨_, ⟨⟩⟩)
    rfl
  · rintro c (_ | ⟨_, ⟨⟩⟩)
    rfl

/-- **A number is read back from its numeral**, by way of a double-precision number. -/
theorem ofNumeral?_single (negative : Bool) {b : Nat} (hb : b < Format.single.infinity) :
    Spelled (Style.documentSingle.numeral .single negative b) ∧
      ∃ w, Number.ofNumeral? (Style.documentSingle.numeral .single negative b) =
        some (.float negative w) ∧ Format.double.convert .single w = b := by
  rcases Nat.eq_zero_or_pos b with rfl | h0
  · refine ⟨(spells_zero.withSign negative).spelled, 0, ?_, by decide +kernel⟩
    refine ((spells_zero.withSign negative).ofNumeral? (by decide)).trans ?_
    have hzero : scaled? 0 (-1) = some 0 := by decide +kernel
    rw [hzero]
    rfl
  · have hd := shortest_single .even h0 hb
    have hspells := (spells_decimal (s := .documentSingle) rfl hd.pos).withSign negative
    have hnarrowed := narrowed?_shortest h0 hb
    obtain ⟨-, hfew, -, -⟩ := readAs_shortest h0 hb hd
    unfold narrowed? at hnarrowed
    obtain ⟨w, hw, hconvert⟩ := Option.map_eq_some_iff.1 hnarrowed
    unfold Style.numeral
    rw [if_neg h0.ne']
    refine ⟨hspells.spelled, w, ?_, hconvert⟩
    refine (hspells.ofNumeral? (hfew.trans (by decide))).trans ?_
    rw [hw]
    rfl

end SpoolTag.Json
