import SpoolTag.Proofs.Json.Gathering
import SpoolTag.Proofs.Json.Narrowing
import SpoolTag.Proofs.Number.Nearest

/-! # How far off a number is read

Up to three roundings come between the digits of a number and the double-precision number as which it is
read, and a fourth one makes a single-precision number of that. Each of them is off by half a unit of the
last place, so together they change the number by little beside its size or by next to nothing at all
(`scaled?_error`). -/

namespace SpoolTag.Json

open SpoolTag.Number
open SpoolTag.Number.Format

/-! ### Errors of factors -/

section Factors

variable {a x p y ε : ℚ} (hx : 0 ≤ x) (hy : 0 < y) (hε : 0 ≤ ε) (hε' : ε ≤ 1 / 4)
  (ha : |a - x| ≤ x * ε) (hp : |p - y| ≤ y * ε)

include hx hy hε hε' ha hp

theorem mul_near : |a * p - x * y| ≤ x * y * (3 * ε) := by
  have hsplit : a * p - x * y = (a - x) * p + x * (p - y) := by ring
  have hp' : |p| ≤ y * (1 + ε) := by
    have := abs_sub_abs_le_abs_sub p y
    rw [abs_of_pos hy] at this
    linarith
  calc |a * p - x * y| ≤ |a - x| * |p| + x * |p - y| := by
        rw [hsplit]
        refine (abs_add_le _ _).trans (le_of_eq ?_)
        rw [abs_mul, abs_mul, abs_of_nonneg hx]
    _ ≤ x * ε * (y * (1 + ε)) + x * (y * ε) := by gcongr
    _ = x * y * (ε * (2 + ε)) := by ring
    _ ≤ x * y * (ε * 3) := by gcongr; linarith
    _ = x * y * (3 * ε) := by ring

theorem div_near : |a / p - x / y| ≤ x / y * (3 * ε) := by
  have hlow : y * (3 / 4) ≤ p := by
    have := (abs_le.1 hp).1
    nlinarith
  have hp' : 0 < p := by linarith
  have hsplit : a / p - x / y = ((a - x) * y - x * (p - y)) / (p * y) := by
    field_simp
    ring
  rw [hsplit, abs_div, abs_of_pos (mul_pos hp' hy), div_le_iff₀ (mul_pos hp' hy)]
  calc |(a - x) * y - x * (p - y)| ≤ |a - x| * y + x * |p - y| := by
        refine (abs_sub _ _).trans (le_of_eq ?_)
        rw [abs_mul, abs_mul, abs_of_nonneg hx, abs_of_pos hy]
    _ ≤ x * ε * y + x * (y * ε) := by gcongr
    _ = x * (2 * ε) * y := by ring
    _ ≤ x * (3 * ε) * p := by nlinarith [mul_nonneg hx hε]
    _ = x / y * (3 * ε) * (p * y) := by
        field_simp

end Factors

/-- A rounding to double precision is off by half a unit of the last place, or by next to nothing. -/
theorem round_double_error {num den : Nat} (hden : 0 < den)
    (hfinite : Format.double.round num den < Format.double.infinity) :
    |Format.double.value (Format.double.round num den) - num / den| ≤
      num / den / 2 ^ 53 + 1 / 2 ^ 250 := by
  refine (value_round_error hden hfinite).trans (add_le_add_right ?_ _)
  exact one_div_le_one_div_of_le (by positivity)
    (pow_le_pow_right₀ (by norm_num) (show 250 ≤ Format.double.scale + 1 by decide))

/-- A quotient far below the largest number is rounded to a finite one. -/
theorem round_double_lt_infinity {num den : Nat} (hden : 0 < den) (h : (num / den : ℚ) < 2 ^ 250) :
    Format.double.round num den < Format.double.infinity := by
  have hden' : (0 : ℚ) < den := by exact_mod_cast hden
  rw [div_lt_iff₀ hden'] at h
  have h' : num < 2 ^ 250 * den := by exact_mod_cast h
  have hwidth : Format.double.fractionBits + 1272 = 250 + Format.double.scale := by decide
  refine round_lt_infinity hden ?_ (show 1272 + 3 < 2 ^ Format.double.exponentBits by decide)
  rw [hwidth, Nat.shiftLeft_eq, Nat.pow_add, Nat.mul_right_comm]
  exact Nat.mul_lt_mul_of_pos_right h' (Nat.two_pow_pos _)

/-! ### Digits and powers of ten -/

/-- A rounding of a whole number is off by little beside it. -/
theorem round_whole_near {n : Nat} (hfinite : Format.double.round n 1 < Format.double.infinity) :
    |Format.double.value (Format.double.round n 1) - n| ≤ n * (1 / 2 ^ 52) := by
  rcases Nat.eq_zero_or_pos n with rfl | hpos
  · have hzero : Format.double.value (Format.double.round 0 1) = 0 := by
      have hround : Format.double.round 0 1 = 0 := by decide
      rw [hround, Format.value_zero]
    rw [hzero]
    norm_num
  · have hone : (1 : ℚ) ≤ n := by exact_mod_cast hpos
    have herror := round_double_error Nat.one_pos hfinite
    rw [Nat.cast_one, div_one] at herror
    refine herror.trans ?_
    linarith

theorem value_total_near {total : Nat} (h : total < 2 ^ 64) :
    Format.double.round total 1 < Format.double.infinity ∧
      |Format.double.value (Format.double.round total 1) - total| ≤ total * (1 / 2 ^ 52) := by
  have hfinite : Format.double.round total 1 < Format.double.infinity := by
    refine round_double_lt_infinity Nat.one_pos ?_
    rw [Nat.cast_one, div_one]
    exact_mod_cast h.trans (Nat.pow_lt_pow_right (by decide) (show 64 < 250 by decide))
  exact ⟨hfinite, round_whole_near hfinite⟩

theorem powerOfTen_lt_infinity {n : Nat} (h : n ≤ 308) : powerOfTen n < Format.double.infinity := by
  rcases Nat.eq_or_lt_of_le h with rfl | hlt
  · decide +kernel
  · have hpow (k : Nat) (h : n ≤ k) : Nat.pow 10 n ≤ 10 ^ k := Nat.pow_le_pow_right (by decide) h
    obtain ⟨k, hlimit, hwidth⟩ : ∃ k, 10 ^ (59 * 5 + 12) < 2 ^ k ∧
        Format.double.fractionBits + 2042 = k + Format.double.scale := by
      refine ⟨196 * 5 + 40, ?_, by decide⟩
      rw [pow_add, pow_mul, pow_add, pow_mul]
      exact Nat.mul_lt_mul'' (Nat.pow_lt_pow_left (by decide) (by decide)) (by decide)
    refine round_lt_infinity Nat.one_pos ?_ (show 2042 + 3 < 2 ^ Format.double.exponentBits by decide)
    rw [hwidth, Nat.shiftLeft_eq, Nat.mul_one, Nat.pow_add]
    exact Nat.mul_lt_mul_of_pos_right ((hpow _ (by omega)).trans_lt hlimit) (Nat.two_pow_pos _)

theorem value_power_near {n : Nat} (h : n ≤ 308) :
    |Format.double.value (powerOfTen n) - 10 ^ n| ≤ 10 ^ n * (1 / 2 ^ 52) := by
  have hnear := round_whole_near (n := Nat.pow 10 n) (powerOfTen_lt_infinity h)
  have hcast : ((Nat.pow 10 n : Nat) : ℚ) = 10 ^ n := Nat.cast_pow 10 n
  rwa [hcast] at hnear

/-! ### Products and quotients -/

section Scale

variable {total n : Nat} (ht : total < 2 ^ 64) (hn : n ≤ 308)

include ht hn

theorem product_error
    (hfinite : Format.double.product (Format.double.round total 1) (powerOfTen n) <
      Format.double.infinity) :
    |Format.double.value (Format.double.product (Format.double.round total 1) (powerOfTen n)) -
      total * 10 ^ n| ≤ total * 10 ^ n / 2 ^ 50 + 1 / 2 ^ 250 := by
  have hx : (0 : ℚ) ≤ total * 10 ^ n := by positivity
  have hden : 0 < 1 <<< (2 * Format.double.scale) := by
    rw [Nat.one_shiftLeft]
    exact Nat.two_pow_pos _
  have hratio := product_ratio .double (Format.double.round total 1) (powerOfTen n)
  have hfactors := mul_near (ε := 1 / 2 ^ 52) (Nat.cast_nonneg total)
    (show (0 : ℚ) < 10 ^ n by positivity) (by norm_num) (by norm_num) (value_total_near ht).2
    (value_power_near hn)
  unfold product at hfinite ⊢
  have herror := round_double_error hden hfinite
  rw [hratio] at herror
  generalize (total * 10 ^ n : ℚ) = x at *
  rw [abs_le] at hfactors herror ⊢
  constructor <;> linarith

theorem quotient_error :
    Format.double.quotient (Format.double.round total 1) (powerOfTen n) < Format.double.infinity ∧
      |Format.double.value (Format.double.quotient (Format.double.round total 1) (powerOfTen n)) -
        total / 10 ^ n| ≤ total / 10 ^ n / 2 ^ 50 + 1 / 2 ^ 250 := by
  have hx : (0 : ℚ) ≤ total / 10 ^ n := by positivity
  have hbound : (total / 10 ^ n : ℚ) ≤ 2 ^ 64 := by
    have hone : (1 : ℚ) ≤ 10 ^ n := one_le_pow₀ (by norm_num)
    exact (div_le_self (by positivity) hone).trans (by exact_mod_cast ht.le)
  have hpower := value_power_near hn
  have hden : 0 < Format.double.units (powerOfTen n) := by
    refine units_pos ?_
    have hpos : (0 : ℚ) < 10 ^ n := by positivity
    linarith [(abs_le.1 hpower).1]
  have hratio := quotient_ratio .double (Format.double.round total 1) (powerOfTen n)
  have hfactors := div_near (ε := 1 / 2 ^ 52) (Nat.cast_nonneg total)
    (show (0 : ℚ) < 10 ^ n by positivity) (by norm_num) (by norm_num) (value_total_near ht).2 hpower
  rw [← hratio, abs_le] at hfactors
  have hfinite : Format.double.round (Format.double.units (Format.double.round total 1))
      (Format.double.units (powerOfTen n)) < Format.double.infinity := by
    refine round_double_lt_infinity hden ?_
    linarith
  have herror := round_double_error hden hfinite
  unfold quotient
  refine ⟨hfinite, ?_⟩
  generalize (total / 10 ^ n : ℚ) = x at *
  rw [abs_le] at herror ⊢
  constructor <;> linarith

end Scale

/-! ### Small powers of ten -/

/-- A quotient by a power of ten is not larger than what is divided. -/
theorem quotient_le {b n : Nat} (hb : Format.double.value b < 2 ^ 250) (h0 : 0 < n) (hn : n ≤ 308) :
    Format.double.quotient b (powerOfTen n) < Format.double.infinity ∧
      Format.double.value (Format.double.quotient b (powerOfTen n)) ≤ Format.double.value b := by
  have hten : (10 : ℚ) ≤ 10 ^ n := le_self_pow₀ (by norm_num) h0.ne'
  have hone : 1 ≤ Format.double.value (powerOfTen n) := by
    have := (abs_le.1 (value_power_near hn)).1
    linarith
  have hden : 0 < Format.double.units (powerOfTen n) := units_pos (by linarith)
  have hbelow : (Format.double.units b / Format.double.units (powerOfTen n) : ℚ) ≤
      Format.double.value b := by
    rw [quotient_ratio]
    exact div_le_self (Format.value_nonneg _ _) hone
  have hfinite := round_double_lt_infinity hden (hbelow.trans_lt hb)
  refine ⟨hfinite, ?_⟩
  -- what is divided is a number of the format itself, so the nearest one is no further off
  have hnear := Format.value_round_nearest hden hfinite b
  rw [abs_of_nonneg (sub_nonneg.2 hbelow)] at hnear
  unfold quotient
  linarith [(abs_le.1 hnear).2]

/-- A negative power of ten makes nothing larger. -/
theorem scale?_le {steps b : Nat} {e : Int} (he : e < 0) (hfinite : b < Format.double.infinity)
    (hb : Format.double.value b < 2 ^ 250) {w : Nat} (h : scale? steps b e = some w) :
    w < Format.double.infinity ∧ Format.double.value w ≤ Format.double.value b := by
  induction steps generalizing b e with
  | zero =>
    obtain rfl := Option.some.inj h
    rw [Format.value_zero]
    exact ⟨by decide, Format.value_nonneg .double b⟩
  | succ steps ih =>
    rw [scale?] at h
    split at h
    · next hsmall =>
      dsimp only at h
      rw [if_neg (by omega)] at h
      obtain rfl := Option.some.inj h
      exact quotient_le hb (by omega) hsmall
    · split at h
      · next hzero =>
        obtain rfl := Option.some.inj h
        rw [hzero]
        exact ⟨by decide, le_rfl⟩
      · rw [if_neg (by omega)] at h
        obtain ⟨hq, hle⟩ := quotient_le hb (n := 308) (by decide) le_rfl
        obtain ⟨hw, hle'⟩ := ih (by omega) hq (hle.trans_lt hb) h
        exact ⟨hw, hle'.trans hle⟩

/-- From the least power of ten that is scaled in one step on, next to nothing is left. -/
theorem scaled?_tiny {total : Nat} (ht : total < 2 ^ 64) {e : Int} (he : e ≤ -308) :
    (total * 10 ^ e : ℚ) ≤ 1 / 2 ^ 250 := by
  have ht' : (total : ℚ) ≤ 2 ^ 64 := by exact_mod_cast ht.le
  calc (total * 10 ^ e : ℚ) ≤ 2 ^ 64 * 10 ^ (-200 : ℤ) := by
        gcongr
        · norm_num
        · omega
    _ ≤ 1 / 2 ^ 250 := by norm_num

theorem total_eq_zero {total : Nat} (ht : total < 2 ^ 64) (h : Format.double.round total 1 = 0) :
    total = 0 := by
  have hwhole := (value_total_near ht).2
  rw [h, Format.value_zero, zero_sub, abs_neg, Nat.abs_cast] at hwhole
  have hnonneg : (0 : ℚ) ≤ total := Nat.cast_nonneg total
  have hzero : (total : ℚ) = 0 := by linarith
  exact_mod_cast hzero

/-- Where a number is scaled in several steps, next to nothing is left, too. -/
theorem scale?_steps_error {total w steps : Nat} (ht : total < 2 ^ 64) {e : Int} (he : e < -308)
    (h : scale? steps (Format.double.quotient (Format.double.round total 1) (powerOfTen 308))
      (e + 308) = some w) :
    w < Format.double.infinity ∧ |Format.double.value w - total * 10 ^ e| ≤ 1 / 2 ^ 248 := by
  obtain ⟨hfinite, herror⟩ := quotient_error ht (n := 308) le_rfl
  have hfirst := scaled?_tiny ht (e := -308) le_rfl
  rw [zpow_neg, zpow_ofNat, ← div_eq_mul_inv] at hfirst
  have htiny := scaled?_tiny ht he.le
  have hx : (0 : ℚ) ≤ total * 10 ^ e := by positivity
  have hquotient := (abs_le.1 herror).2
  generalize (total / 10 ^ 308 : ℚ) = first at *
  obtain ⟨hw, hle⟩ := scale?_le (by omega) hfinite (by linarith) h
  have hnonneg := Format.value_nonneg .double w
  refine ⟨hw, ?_⟩
  rw [abs_le]
  constructor <;> linarith

/-- **How far off a scaled number is at most.** -/
theorem scaled?_error {total w : Nat} (ht : total < 2 ^ 64) {e : Int} (h : scaled? total e = some w) :
    w < Format.double.infinity ∧
      |Format.double.value w - total * 10 ^ e| ≤ total * 10 ^ e / 2 ^ 50 + 1 / 2 ^ 248 := by
  unfold scaled? at h
  rw [scale?] at h
  split at h
  · next hsmall =>
    dsimp only at h
    split at h
    · next hsign =>
      have hpow : (10 : ℚ) ^ e = 10 ^ e.natAbs := by
        rw [← zpow_natCast, Int.natAbs_of_nonneg hsign]
      split at h
      · next hfinite =>
        obtain rfl := Option.some.inj h
        rw [hpow]
        refine ⟨hfinite, (product_error ht hsmall hfinite).trans ?_⟩
        gcongr <;> norm_num
      · cases h
    · next hsign =>
      have hpow : (total * 10 ^ e : ℚ) = total / 10 ^ e.natAbs := by
        rw [← zpow_natCast, Int.ofNat_natAbs_of_nonpos (by omega), zpow_neg, div_inv_eq_mul]
      obtain rfl := Option.some.inj h
      obtain ⟨hfinite, herror⟩ := quotient_error ht hsmall
      rw [hpow]
      refine ⟨hfinite, herror.trans ?_⟩
      gcongr <;> norm_num
  · split at h
    · next hzero =>
      obtain rfl := Option.some.inj h
      rw [total_eq_zero ht hzero, Format.value_zero]
      exact ⟨by decide, by norm_num⟩
    · split at h
      · cases h
      · obtain ⟨hw, herror⟩ := scale?_steps_error ht (by omega) h
        exact ⟨hw, herror.trans (le_add_of_nonneg_left (by positivity))⟩

theorem exists_scale?_of_neg {steps b : Nat} {e : Int} (he : e < 0) :
    ∃ w, scale? steps b e = some w := by
  induction steps generalizing b e with
  | zero => exact ⟨0, rfl⟩
  | succ steps ih =>
    rw [scale?]
    split
    · dsimp only
      rw [if_neg (by omega)]
      exact ⟨_, rfl⟩
    · split
      · exact ⟨0, rfl⟩
      · rw [if_neg (by omega)]
        exact ih (by omega)

/-- **A number that is not very large is read.** -/
theorem exists_scaled? {total : Nat} (ht : total < 2 ^ 64) {e : Int}
    (h : (total * 10 ^ e : ℚ) < 2 ^ 200) : ∃ w, scaled? total e = some w := by
  rcases lt_or_ge e 0 with hsign | hsign
  · exact exists_scale?_of_neg hsign
  unfold scaled?
  rw [scale?]
  split
  · next hsmall =>
    have hpow : (10 : ℚ) ^ e = 10 ^ e.natAbs := by
      rw [← zpow_natCast, Int.natAbs_of_nonneg hsign]
    have hfactors := mul_near (ε := 1 / 2 ^ 52) (Nat.cast_nonneg total)
      (show (0 : ℚ) < 10 ^ e.natAbs by positivity) (by norm_num) (by norm_num)
      (value_total_near ht).2 (value_power_near hsmall)
    have hden : 0 < 1 <<< (2 * Format.double.scale) := by
      rw [Nat.one_shiftLeft]
      exact Nat.two_pow_pos _
    have hfinite : Format.double.product (Format.double.round total 1) (powerOfTen e.natAbs) <
        Format.double.infinity := by
      refine round_double_lt_infinity hden ?_
      rw [product_ratio]
      rw [hpow] at h
      linarith [(abs_le.1 hfactors).2]
    dsimp only
    rw [if_pos hfinite]
    exact ⟨_, rfl⟩
  · next hlarge =>
    split
    · exact ⟨0, rfl⟩
    · next hne =>
      exfalso
      have hpos : 0 < total := by
        refine Nat.pos_of_ne_zero fun hzero => hne ?_
        rw [hzero]
        decide
      have hone : (1 : ℚ) ≤ total := by exact_mod_cast hpos
      have hpow : (10 : ℚ) ^ (100 : ℤ) ≤ 10 ^ e :=
        zpow_le_zpow_right₀ (by norm_num) (by omega)
      have hlimit : (2 : ℚ) ^ 200 ≤ 10 ^ (100 : ℤ) := by norm_num
      have hproduct : (10 : ℚ) ^ e ≤ total * 10 ^ e :=
        le_mul_of_one_le_left (by positivity) hone
      linarith

/-! ### Numbers of a document -/

section Numeral

variable {n : Numeral} (hn : Spelled n)

include hn

/-- What is read of the digits of a number is near its size, or next to nothing. -/
theorem scaled?_gathered_near {w : Nat}
    (h : scaled? n.gathered.coefficient n.gathered.exponent = some w) :
    w < Format.double.infinity ∧
      |Format.double.value w - n.size| ≤ n.size / 2 ^ 49 + 1 / 2 ^ 248 := by
  obtain ⟨hcoefficient, hnear⟩ := gathered_near hn
  obtain ⟨hfinite, herror⟩ := scaled?_error hcoefficient h
  have hsize := n.size_nonneg
  refine ⟨hfinite, ?_⟩
  generalize (n.gathered.coefficient * 10 ^ n.gathered.exponent : ℚ) = x at *
  rw [abs_le] at hnear herror ⊢
  constructor <;> linarith

theorem exists_scaled?_gathered (h : n.size < 2 ^ 199) :
    ∃ w, scaled? n.gathered.coefficient n.gathered.exponent = some w := by
  obtain ⟨hcoefficient, hnear⟩ := gathered_near hn
  refine exists_scaled? hcoefficient ?_
  linarith [(abs_le.1 hnear).2]

end Numeral

/-! ### Single precision -/

/-- What is near a single-precision number is made that number. -/
theorem owns_of_near {b : Nat} (hb : b < Format.single.infinity) {x : ℚ} (hx : 0 ≤ x)
    (h : |x - Format.single.value b| ≤ Format.single.value b / 2 ^ 49 + 1 / 2 ^ 248) :
    Format.single.Owns b x := by
  rcases Nat.eq_zero_or_pos b with rfl | h0
  · have hinterval : Format.single.interval 0 = ⟨0, 0, 2, true⟩ := by decide
    rw [Format.value_zero, sub_zero, abs_of_nonneg hx] at h
    unfold Owns Interval.Holds
    rw [hinterval, if_pos rfl, scale_single]
    constructor
    · norm_num
      positivity
    · norm_num at h ⊢
      linarith
  · have hsound := Format.interval_sound (f := .single) h0
    have hunit : (0 : ℚ) < 4 * 2 ^ Format.single.scale := by positivity
    obtain ⟨hreach, hbelow⟩ := reach_bounds h0 hb
    have hvalue := (hbelow _ (owns_value h0)).2
    unfold Owns
    refine hsound.holds_of_near ?_
    rw [interval_center, ← sub_mul, abs_mul, abs_of_pos hunit, ← lt_div_iff₀ hunit]
    change _ < Format.single.reach b
    linarith

theorem abs_sub_of_sign (negative : Bool) (a b : ℚ) :
    |(if negative then -a else a) - (if negative then -b else b)| = |a - b| := by
  cases negative
  · rfl
  · simp only [if_true]
    rw [← abs_neg]
    ring_nf

theorem isFinite_ofParts {negative : Bool} {b : Nat} (hb : b ≤ Format.single.infinity) :
    (Single.ofParts negative b).isFinite = true ↔ b < Format.single.infinity := by
  unfold Single.isFinite
  rw [(Single.parts_ofParts negative hb).2, decide_eq_true_iff]

theorem convert_le_infinity (w : Nat) : Format.double.convert .single w ≤ Format.single.infinity := by
  unfold convert
  split
  · exact Format.round_le_infinity _ _ _
  · exact le_rfl

/-- A rounding to single precision is off by half a unit of the last place, or by half the least positive
number. -/
theorem convert_error {w : Nat} (hw : w < Format.double.infinity)
    (hfinite : Format.double.convert .single w < Format.single.infinity) :
    |Format.single.value (Format.double.convert .single w) - Format.double.value w| ≤
      Format.double.value w / 2 ^ 24 + 1 / 2 ^ 150 := by
  unfold convert at hfinite ⊢
  rw [if_pos hw, Nat.one_shiftLeft] at hfinite ⊢
  have herror := value_round_error (Nat.two_pow_pos _) hfinite
  push_cast at herror
  exact herror

section Single

variable {n : Numeral} (hn : Spelled n)

include hn

/-- **How far off a number is read at most.** -/
theorem toSingle_near {number : Number} (h : Number.ofNumeral? n = some number)
    (hfinite : number.toSingle.isFinite = true) :
    |number.toSingle.value - n.value| ≤ n.size / 2 ^ 23 + 1 / 2 ^ 149 := by
  have hsize := n.size_nonneg
  rcases ofNumeral?_cases hn with ⟨i, hinteger, -, hi, hvalue⟩ | hscaled
  · rw [hinteger] at h
    obtain rfl := Option.some.inj h
    have herror := Single.value_ofInt_error hi
    have habs : n.size = (i.natAbs : ℚ) := by
      rw [← n.abs_value, hvalue, Nat.cast_natAbs, Int.cast_abs]
    rw [hvalue]
    change |(Single.ofInt i).value - i| ≤ _
    rw [← habs] at herror
    linarith
  · rw [hscaled] at h
    obtain ⟨w, hw, rfl⟩ := Option.map_eq_some_iff.1 h
    obtain ⟨hwfinite, hnear⟩ := scaled?_gathered_near hn hw
    have hle := convert_le_infinity w
    have hconvert := convert_error hwfinite ((isFinite_ofParts hle).1 hfinite)
    unfold Number.toSingle Numeral.value
    rw [Single.value_ofParts _ hle, abs_sub_of_sign]
    rw [abs_le] at hnear hconvert ⊢
    constructor <;> linarith

/-- **A single-precision number is read as itself**, however it is spelled. -/
theorem toSingle_exact {y : Single} (hy : y.isFinite = true) (hvalue : y.value = n.value) :
    ∃ number, Number.ofNumeral? n = some number ∧ number.toSingle.isFinite = true ∧
      number.toSingle.value = n.value := by
  have hb : y.magnitude < Format.single.infinity := of_decide_eq_true hy
  have hsize : Format.single.value y.magnitude = n.size := by
    rw [← y.abs_value, hvalue, n.abs_value]
  rcases ofNumeral?_cases hn with ⟨i, hinteger, -, hi, hvalue'⟩ | hscaled
  · refine ⟨_, hinteger, Single.isFinite_ofInt hi, ?_⟩
    rw [hvalue'] at hvalue ⊢
    exact Single.value_ofInt_of_value hi hvalue
  · have hbound : n.size < 2 ^ 199 := by
      rw [← hsize]
      rcases Nat.eq_zero_or_pos y.magnitude with hzero | h0
      · rw [hzero, Format.value_zero]
        norm_num
      · exact ((reach_bounds h0 hb).2 _ (owns_value h0)).1.trans (by norm_num)
    obtain ⟨w, hw⟩ := exists_scaled?_gathered hn hbound
    obtain ⟨hwfinite, hnear⟩ := scaled?_gathered_near hn hw
    rw [← hsize] at hnear
    have hconvert := convert_of_owns hwfinite hb
      (owns_of_near hb (Format.value_nonneg _ _) hnear)
    refine ⟨_, by rw [hscaled, hw]; rfl, ?_, ?_⟩
    · change (Single.ofParts n.negative (Format.double.convert .single w)).isFinite = true
      rw [hconvert]
      exact (isFinite_ofParts hb.le).2 hb
    · change (Single.ofParts n.negative (Format.double.convert .single w)).value = n.value
      rw [hconvert, Single.value_ofParts _ hb.le, hsize]
      rfl

end Single

end SpoolTag.Json
