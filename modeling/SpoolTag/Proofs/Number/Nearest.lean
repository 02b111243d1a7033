import SpoolTag.Number.Single
import SpoolTag.Proofs.Number.Rounding

/-! # Rounding is to the nearest number

No number of a format is nearer to a quotient than the one to which it is rounded
(`Format.value_round_nearest`). Numbers of the same binade or of a later one are multiples of the same
unit, so the nearest multiple wins; what lies in an earlier binade loses to the power of two at which the
binade of the quotient begins. A quotient is rounded to a finite number exactly if it is below the limit of
the format (`Format.round_lt_infinity_iff`).

For single precision this says which integers are kept and what becomes of the others
(`Single.value_ofInt_eq_iff`, `Single.value_ofInt_nearest`), and that a number is the integer that it is taken
for (`Single.toInt?_eq_some_iff`). -/

namespace SpoolTag.Number

/-- A multiple of the unit that is half a unit away is the nearest one. -/
theorem nearest_multiple {x u : ℚ} (hu : 0 < u) {m : ℤ} (h : |m * u - x| ≤ u / 2) (n : ℤ) :
    |m * u - x| ≤ |n * u - x| := by
  rcases eq_or_ne n m with rfl | hne
  · exact le_rfl
  have hone : (1 : ℚ) ≤ |((n - m : ℤ) : ℚ)| := by
    rw [← Int.cast_abs]
    exact_mod_cast Int.one_le_abs (sub_ne_zero.2 hne)
  have hapart : u ≤ |n * u - m * u| := by
    rw [← sub_mul, abs_mul, abs_of_pos hu]
    push_cast at hone
    nlinarith
  have htriangle : |n * u - m * u| ≤ |n * u - x| + |m * u - x| := by
    rw [abs_sub_comm (m * u : ℚ) x]
    exact abs_sub_le _ _ _
  linarith

namespace Format

variable {f : Format}

/-- The number that a magnitude stands for, by its significand and its doublings. -/
theorem value_eq (f : Format) (b : Nat) :
    f.value b = f.significand b * 2 ^ f.doublings b / 2 ^ f.scale := by
  unfold value units
  rw [Nat.shiftLeft_eq]
  push_cast
  rfl

@[simp] theorem value_zero (f : Format) : f.value 0 = 0 := by
  rw [value_eq]
  simp [significand]

theorem round_le_infinity (f : Format) (num den : Nat) : f.round num den ≤ f.infinity :=
  Nat.min_le_right _ _

theorem value_nonneg (f : Format) (b : Nat) : 0 ≤ f.value b := by
  unfold value
  positivity

/-- **No number of the format is nearer** than the one to which a quotient is rounded. -/
theorem value_round_nearest {num den : Nat} (hden : 0 < den)
    (hfinite : f.round num den < f.infinity) (b : Nat) :
    |f.value (f.round num den) - num / den| ≤ |f.value b - num / den| := by
  obtain ⟨k, m, hvalue, hnear, hbinade⟩ := exists_of_value_round hden hfinite
  have hden' : (0 : ℚ) < den := by exact_mod_cast hden
  have hu : (0 : ℚ) < 2 ^ k / 2 ^ f.scale := by positivity
  have hm : f.value (f.round num den) = (m : ℤ) * (2 ^ k / 2 ^ f.scale) := by
    rw [hvalue, Int.cast_natCast, mul_div_assoc]
  rw [hm] at hnear ⊢
  obtain ⟨-, hs, -⟩ := f.compose b
  rcases le_or_gt k (f.doublings b) with hle | hlt
  · -- the competitor is a multiple of the unit
    obtain ⟨j, hj⟩ := Nat.exists_eq_add_of_le hle
    have hb : f.value b = (f.significand b * 2 ^ j : ℤ) * (2 ^ k / 2 ^ f.scale) := by
      rw [value_eq, hj]
      push_cast
      ring
    rw [hb]
    exact_mod_cast nearest_multiple hu hnear (f.significand b * 2 ^ j)
  · -- the competitor lies before the binade, which begins before the quotient
    have hbegin : ((2 ^ f.fractionBits : ℤ) : ℚ) * (2 ^ k / 2 ^ f.scale) ≤ num / den := by
      have hstart := hbinade.resolve_left (by omega)
      rw [Nat.shiftLeft_eq] at hstart
      have hstart' : (2 ^ (f.fractionBits + k) * den : ℚ) ≤ num * 2 ^ f.scale := by
        exact_mod_cast hstart
      rw [← mul_div_assoc, div_le_div_iff₀ (by positivity) hden']
      push_cast
      rwa [← pow_add]
    have hbefore : f.value b ≤ ((2 ^ f.fractionBits : ℤ) : ℚ) * (2 ^ k / 2 ^ f.scale) := by
      have hunits : f.significand b * 2 ^ f.doublings b ≤ 2 ^ f.fractionBits * 2 ^ k := by
        calc f.significand b * 2 ^ f.doublings b
            ≤ 2 ^ (f.fractionBits + 1) * 2 ^ f.doublings b := Nat.mul_le_mul_right _ hs.le
          _ = 2 ^ (f.fractionBits + (f.doublings b + 1)) := by ring
          _ ≤ 2 ^ (f.fractionBits + k) := Nat.pow_le_pow_right (by decide) (by omega)
          _ = 2 ^ f.fractionBits * 2 ^ k := Nat.pow_add _ _ _
      have hunits' : (f.significand b * 2 ^ f.doublings b : ℚ) ≤ 2 ^ f.fractionBits * 2 ^ k := by
        exact_mod_cast hunits
      rw [value_eq, ← mul_div_assoc, div_le_div_iff_of_pos_right (by positivity)]
      push_cast
      exact hunits'
    refine (nearest_multiple hu hnear (2 ^ f.fractionBits)).trans ?_
    rw [abs_of_nonpos (by linarith), abs_of_nonpos (by linarith)]
    linarith

/-- How far a rounding is off at most: half a unit of the last place, where there is no smaller unit than
the least positive number. -/
theorem value_round_error {num den : Nat} (hden : 0 < den)
    (hfinite : f.round num den < f.infinity) :
    |f.value (f.round num den) - num / den| ≤
      num / den / 2 ^ (f.fractionBits + 1) + 1 / 2 ^ (f.scale + 1) := by
  obtain ⟨k, -, -, hnear, hbinade⟩ := exists_of_value_round hden hfinite
  have hden' : (0 : ℚ) < den := by exact_mod_cast hden
  have hratio : (0 : ℚ) ≤ num / den := by positivity
  refine hnear.trans ?_
  rcases hbinade with rfl | hstart
  · rw [pow_zero, div_div, ← pow_succ]
    exact le_add_of_nonneg_left (by positivity)
  · refine le_add_of_le_of_nonneg ?_ (by positivity)
    rw [Nat.shiftLeft_eq] at hstart
    have hstart' : (2 ^ (f.fractionBits + k) * den : ℚ) ≤ num * 2 ^ f.scale := by
      exact_mod_cast hstart
    rw [div_div, div_div, div_le_div_iff₀ (by positivity) (by positivity)]
    calc (2 ^ k * (den * 2 ^ (f.fractionBits + 1)) : ℚ)
        = 2 ^ (f.fractionBits + k) * den * 2 := by ring
      _ ≤ num * 2 ^ f.scale * 2 := by gcongr
      _ = num * (2 ^ f.scale * 2) := by ring

/-- A rounding is finite exactly if the quotient lies below the middle between the largest finite number and
the next one that there would be. -/
theorem round_lt_infinity_iff_lt {num den K : Nat} (hden : 0 < den)
    (hK : K + 3 = 2 ^ f.exponentBits) :
    f.round num den < f.infinity ↔
      2 * num <<< f.scale < (2 ^ (f.fractionBits + 2) - 1) * (den * 2 ^ K) := by
  obtain ⟨k, ⟨hm, hk⟩, hbinade, hround⟩ := f.exists_nearest_of_round num hden
  have hinfinity : f.infinity = (K + 2) * 2 ^ f.fractionBits := by
    unfold infinity
    rw [Nat.one_shiftLeft, Nat.shiftLeft_eq, ← hK]
    rfl
  have hD : 0 < den * 2 ^ k := Nat.mul_pos hden (Nat.two_pow_pos k)
  have hF := Nat.two_pow_pos f.fractionBits
  obtain ⟨hlow, hhigh⟩ := nearest_bounds (num <<< f.scale) hD
  have hodd : nearest (num <<< f.scale) (den * 2 ^ k) % 2 = 1 → _ := nearest_odd hD
  have hmiddle : (2 ^ (f.fractionBits + 2) - 1) * (den * 2 ^ K) + den * 2 ^ K =
      4 * (2 ^ f.fractionBits * (den * 2 ^ K)) := by
    rw [← Nat.succ_mul, Nat.succ_eq_add_one, Nat.sub_add_cancel Nat.one_le_two_pow]
    ring
  rw [hround, hinfinity, min_lt_iff, or_iff_left (lt_irrefl _)]
  rw [pow_succ] at hm
  rw [pow_add] at hbinade
  generalize num <<< f.scale = whole at *
  generalize nearest whole (den * 2 ^ k) = m at *
  generalize (2 ^ (f.fractionBits + 2) - 1) * (den * 2 ^ K) = limit at *
  generalize 2 ^ f.fractionBits = F at *
  rcases lt_trichotomy k K with hlt | rfl | hgt
  · -- an earlier binade: both sides hold
    obtain ⟨r, rfl⟩ := Nat.exists_eq_add_of_lt hlt
    have hdouble : 2 * (den * 2 ^ k) ≤ den * 2 ^ (k + r + 1) := by
      calc 2 * (den * 2 ^ k) = den * 2 ^ (k + 1) := by ring
        _ ≤ den * 2 ^ (k + r + 1) :=
          Nat.mul_le_mul_left _ (Nat.pow_le_pow_right (by decide) (by omega))
    refine iff_of_true ?_ ?_
    · nlinarith
    · generalize den * 2 ^ k = D at *
      generalize den * 2 ^ (k + r + 1) = E at *
      have h1 : m * D ≤ F * 2 * D := Nat.mul_le_mul_right D hm
      have h2 : F * (2 * D) ≤ F * E := Nat.mul_le_mul_left F hdouble
      have h3 : 1 * E ≤ F * E := Nat.mul_le_mul_right E hF
      nlinarith
  · -- the last binade: its greatest significand is odd, so a tie goes to infinity
    have hsignificand : k * F + m < (k + 2) * F ↔ m < F * 2 := by
      rw [Nat.add_mul, Nat.add_lt_add_iff_left, Nat.mul_comm]
    rw [hsignificand]
    generalize den * 2 ^ k = D at *
    constructor
    · intro hlt
      rcases Nat.lt_or_eq_of_le (Nat.succ_le_of_lt hlt) with hbefore | hlast
      · have hnext : m.succ * D < F * 2 * D := Nat.mul_lt_mul_of_pos_right hbefore hD
        rw [Nat.succ_mul] at hnext
        linarith
      · have hstrict := (hodd (by omega)).2
        have hsame : m.succ * D = F * 2 * D := congrArg (· * D) hlast
        rw [Nat.succ_mul] at hsame
        linarith
    · intro hbelow
      by_contra hge
      obtain rfl : m = F * 2 := Nat.le_antisymm hm (Nat.not_lt.1 hge)
      linarith
  · -- a later binade: neither does
    obtain ⟨r, rfl⟩ := Nat.exists_eq_add_of_lt hgt
    have hstart := hbinade.resolve_left (by omega)
    have hleast := hk.resolve_left (by omega)
    have hdouble : F * (2 * (den * 2 ^ K)) ≤ whole := by
      refine le_trans ?_ hstart
      calc F * (2 * (den * 2 ^ K)) = F * 2 ^ (K + 1) * den := by ring
        _ ≤ F * 2 ^ (K + r + 1) * den := by
          gcongr
          · decide
          · omega
    refine iff_of_false ?_ ?_
    · nlinarith
    · have hE : 0 ≤ den * 2 ^ K := Nat.zero_le _
      linarith

/-- The number from which on roundings go to infinity: half a unit past the largest finite number. -/
def limit (f : Format) : ℚ :=
  (2 ^ (f.fractionBits + 2) - 1) * 2 ^ (2 ^ f.exponentBits - 3) / 2 ^ (f.scale + 1)

/-- **Which quotients are rounded to a finite number.** -/
theorem round_lt_infinity_iff {num den : Nat} (hden : 0 < den) (hf : 3 ≤ 2 ^ f.exponentBits) :
    f.round num den < f.infinity ↔ (num / den : ℚ) < f.limit := by
  have hden' : (0 : ℚ) < den := by exact_mod_cast hden
  have hcast : ((2 ^ (f.fractionBits + 2) - 1 : Nat) : ℚ) = 2 ^ (f.fractionBits + 2) - 1 := by
    push_cast [Nat.one_le_two_pow]
    rfl
  rw [round_lt_infinity_iff_lt hden (Nat.sub_add_cancel hf), limit,
    div_lt_div_iff₀ hden' (by positivity), ← hcast, Nat.shiftLeft_eq]
  generalize 2 ^ (f.fractionBits + 2) - 1 = odd
  generalize 2 ^ f.exponentBits - 3 = last
  have hleft : (num * 2 ^ (f.scale + 1) : ℚ) = (2 * (num * 2 ^ f.scale) : Nat) := by
    push_cast
    ring
  have hright : (odd * 2 ^ last * den : ℚ) = (odd * (den * 2 ^ last) : Nat) := by
    push_cast
    ring
  rw [hleft, hright, Nat.cast_lt]

theorem limit_double : Format.double.limit = 2 ^ 1024 - 2 ^ 970 := by
  have hlast : 2 ^ Format.double.exponentBits - 3 = 970 + 1075 := by decide
  have hscale : Format.double.scale + 1 = 1075 := by decide
  have hbits : Format.double.fractionBits + 2 = 54 := by decide
  rw [limit, hlast, hscale, hbits, pow_add, ← mul_assoc, mul_div_assoc, div_self (by positivity),
    mul_one, sub_mul, one_mul, ← pow_add]

/-- A magnitude is the integer that it is taken for. -/
theorem integer?_eq_some_iff {b n : Nat} :
    f.integer? b = some n ↔ b < f.infinity ∧ f.value b = n := by
  have hvalue : f.value b = n ↔ f.units b = n * 2 ^ f.scale := by
    unfold value
    rw [div_eq_iff (by positivity)]
    norm_cast
  rw [hvalue]
  unfold integer?
  rw [Nat.one_shiftLeft, Nat.shiftRight_eq_div_pow]
  have hP := Nat.two_pow_pos f.scale
  generalize f.units b = u
  generalize 2 ^ f.scale = P at *
  have hdiv := Nat.div_add_mod u P
  split
  · next hfits =>
    rw [hfits.2, Nat.add_zero, Nat.mul_comm] at hdiv
    simp only [Option.some.injEq, hfits.1, true_and]
    constructor
    · rintro rfl
      exact hdiv.symm
    · rintro rfl
      exact Nat.mul_div_cancel _ hP
  · next hnot =>
    simp only [reduceCtorEq, false_iff, not_and]
    rintro hfinite rfl
    exact hnot ⟨hfinite, Nat.mul_mod_left _ _⟩

end Format

/-! ### Single precision -/

namespace Single

/-- The number that a finite single-precision number stands for. -/
def value (x : Single) : ℚ :=
  if x.negative then -Format.single.value x.magnitude else Format.single.value x.magnitude

theorem value_zero : (⟨0⟩ : Single).value = 0 := by
  have hzero : (⟨0⟩ : Single).magnitude = 0 := by decide
  unfold value
  rw [hzero, Format.value_zero, neg_zero, ite_self]

theorem abs_value (x : Single) : |x.value| = Format.single.value x.magnitude := by
  unfold value
  split
  · rw [abs_neg, abs_of_nonneg (Format.value_nonneg _ _)]
  · rw [abs_of_nonneg (Format.value_nonneg _ _)]

theorem parts_ofParts (negative : Bool) {b : Nat} (hb : b ≤ Format.single.infinity) :
    (ofParts negative b).negative = negative ∧ (ofParts negative b).magnitude = b := by
  have hweight : Format.single.signWeight = 2 ^ 31 := by decide
  have hinfinity : Format.single.infinity = 255 * 2 ^ 23 := by decide
  unfold Single.negative Single.magnitude ofParts
  dsimp only
  rw [hweight, UInt32.toNat_ofNat']
  rcases negative with _ | _
  · simp only [Bool.false_eq_true, if_false]
    exact ⟨decide_eq_false (by omega), by omega⟩
  · simp only [if_true]
    exact ⟨decide_eq_true (by omega), by omega⟩

theorem value_ofParts (negative : Bool) {b : Nat} (hb : b ≤ Format.single.infinity) :
    (ofParts negative b).value =
      if negative then -Format.single.value b else Format.single.value b := by
  obtain ⟨hnegative, hmagnitude⟩ := parts_ofParts negative hb
  unfold value
  rw [hnegative, hmagnitude]

/-! ### Integers -/

section OfInt

variable {i : Int} (h : i.natAbs < 2 ^ 64)

include h

theorem round_natAbs_lt : Format.single.round i.natAbs 1 < Format.single.infinity := by
  refine Format.round_lt_infinity Nat.one_pos ?_
    (show 190 + 3 < 2 ^ Format.single.exponentBits by decide)
  have hwidth : Format.single.fractionBits + 190 = 64 + Format.single.scale := by decide
  rw [hwidth, Nat.shiftLeft_eq, Nat.mul_one, Nat.pow_add]
  exact Nat.mul_lt_mul_of_pos_right h (Nat.two_pow_pos _)

theorem isFinite_ofInt : (ofInt i).isFinite = true := by
  unfold isFinite ofInt
  rw [(parts_ofParts _ (Format.round_le_infinity _ _ _)).2]
  exact decide_eq_true (round_natAbs_lt h)

omit h in
theorem value_ofInt : (ofInt i).value =
    if i < 0 then -Format.single.value (Format.single.round i.natAbs 1)
    else Format.single.value (Format.single.round i.natAbs 1) := by
  unfold ofInt
  rw [value_ofParts _ (Format.round_le_infinity _ _ _)]
  simp only [decide_eq_true_eq]

omit h in
theorem cast_eq_sign (i : Int) :
    (i : ℚ) = if i < 0 then -((i.natAbs : Nat) : ℚ) else (i.natAbs : Nat) := by
  rw [Nat.cast_natAbs]
  split
  · next hi => rw [abs_of_neg hi, Int.cast_neg, neg_neg]
  · next hi => rw [abs_of_nonneg (not_lt.1 hi)]

omit h in
/-- The distance of an integer from what it becomes is that without the signs. -/
theorem abs_value_ofInt_sub : |(ofInt i).value - i| =
    |Format.single.value (Format.single.round i.natAbs 1) - (i.natAbs : Nat)| := by
  conv_lhs => rw [value_ofInt, cast_eq_sign i]
  split
  · rw [← abs_neg]
    ring_nf
  · rfl

/-- **An integer becomes the nearest number.** -/
theorem value_ofInt_nearest (y : Single) : |(ofInt i).value - i| ≤ |y.value - i| := by
  have hnear := Format.value_round_nearest Nat.one_pos (round_natAbs_lt h) y.magnitude
  rw [Nat.cast_one, div_one, ← abs_value y] at hnear
  rw [abs_value_ofInt_sub]
  refine hnear.trans ?_
  rw [Nat.cast_natAbs, Int.cast_abs]
  exact abs_abs_sub_abs_le _ _

/-- An integer that is a number is kept. -/
theorem value_ofInt_of_value {y : Single} (hy : y.value = i) : (ofInt i).value = i := by
  have hnear := value_ofInt_nearest h y
  rw [hy, sub_self, abs_zero] at hnear
  exact sub_eq_zero.1 (abs_nonpos_iff.1 hnear)

theorem value_ofInt_error : |(ofInt i).value - i| ≤ i.natAbs / 2 ^ 24 + 1 / 2 ^ 150 := by
  have herror := Format.value_round_error Nat.one_pos (round_natAbs_lt h)
  rw [Nat.cast_one, div_one] at herror
  rw [abs_value_ofInt_sub]
  exact herror

/-- **The integers that are kept** are those whose binary digits fit the significand. -/
theorem value_ofInt_eq_iff : (ofInt i).value = i ↔ ∃ m k : Nat, m < 2 ^ 24 ∧ i.natAbs = m * 2 ^ k := by
  constructor
  · intro heq
    have habs := congrArg abs heq
    rw [abs_value, Format.value_eq] at habs
    obtain ⟨-, hs, -⟩ := Format.single.compose (ofInt i).magnitude
    change Format.single.significand _ < 2 ^ 24 at hs
    generalize Format.single.significand (ofInt i).magnitude = s at *
    generalize Format.single.doublings (ofInt i).magnitude = d at *
    rw [div_eq_iff (by positivity), ← Int.cast_abs, ← Int.natCast_natAbs, Int.cast_natCast] at habs
    have hnat : s * 2 ^ d = i.natAbs * 2 ^ Format.single.scale := by exact_mod_cast habs
    rcases le_total Format.single.scale d with hle | hle
    · obtain ⟨j, rfl⟩ := Nat.exists_eq_add_of_le hle
      refine ⟨s, j, hs, Nat.eq_of_mul_eq_mul_right (Nat.two_pow_pos Format.single.scale) ?_⟩
      rw [← hnat]
      ring
    · obtain ⟨j, hj⟩ := Nat.exists_eq_add_of_le hle
      refine ⟨i.natAbs, 0, ?_, by simp⟩
      have hsmall : s = i.natAbs * 2 ^ j := by
        refine Nat.eq_of_mul_eq_mul_right (Nat.two_pow_pos d) ?_
        rw [hnat, hj]
        ring
      have := Nat.le_mul_of_pos_right i.natAbs (Nat.two_pow_pos j)
      omega
  · rintro ⟨m, k, hm, hi⟩
    have hvalue := Format.value_round_exact (f := .single) (t := m) (j := k + Format.single.scale)
      Nat.one_pos hm (by rw [hi]; ring) (round_natAbs_lt h)
    rw [Nat.cast_one, div_one, Nat.cast_natAbs] at hvalue
    unfold ofInt
    rw [value_ofParts _ (Format.round_le_infinity _ _ _), hvalue]
    rcases lt_or_ge i 0 with hi0 | hi0
    · rw [decide_eq_true hi0, if_pos rfl, abs_of_neg hi0]
      push_cast
      ring
    · rw [decide_eq_false (by omega), if_neg (by decide), abs_of_nonneg hi0]

end OfInt

/-- **A number is the integer that it is taken for**, and every finite number that is an integer is taken
for it. -/
theorem toInt?_eq_some_iff {x : Single} {i : Int} :
    x.toInt? = some i ↔ x.isFinite = true ∧ x.value = i := by
  have hfinite : x.isFinite = true ↔ x.magnitude < Format.single.infinity := decide_eq_true_iff
  have habs := x.abs_value
  have hnonneg := Format.value_nonneg .single x.magnitude
  have htaken : x.toInt? =
      (Format.single.integer? x.magnitude).map fun n : Nat => if x.negative then -(n : Int) else n := by
    unfold toInt?
    cases Format.single.integer? x.magnitude <;> rfl
  rw [htaken, Option.map_eq_some_iff, hfinite]
  constructor
  · rintro ⟨n, hn, rfl⟩
    obtain ⟨hlt, hvalue⟩ := Format.integer?_eq_some_iff.1 hn
    refine ⟨hlt, ?_⟩
    unfold value
    rw [hvalue]
    split <;> simp
  · rintro ⟨hlt, hvalue⟩
    rw [hvalue] at habs
    refine ⟨i.natAbs, Format.integer?_eq_some_iff.2 ⟨hlt, ?_⟩, ?_⟩
    · rw [← habs, Nat.cast_natAbs, Int.cast_abs]
    · rw [← habs] at hnonneg
      unfold value at hvalue
      split at hvalue
      · next hnegative =>
        have hi : i ≤ 0 := by
          have : (i : ℚ) ≤ 0 := by linarith
          exact_mod_cast this
        rw [if_pos hnegative]
        omega
      · next hpositive =>
        have hi : 0 ≤ i := by
          have : (0 : ℚ) ≤ i := by linarith
          exact_mod_cast this
        rw [if_neg hpositive]
        omega

end Single

end SpoolTag.Number
