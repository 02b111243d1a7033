import SpoolTag.Number.Numeral
import SpoolTag.Proofs.Number.Shortest

/-! # The shortest decimal has the fewest digits

The interval of a number holds exactly what is rounded to the number (`Format.round_eq_iff_owns`). On no
grid coarser than that of the shortest decimal is there a point in it: where the search passes a grid, both
neighbours of the number lie outside (`Interval.Sound.coarsest_shortest`). A decimal with fewer digits
lies beyond some power of ten as seen from the shortest one, so if both are in the interval then this
power is as well, and it would be such a point (`Format.length_digits_le`). -/

namespace SpoolTag.Number

/-! ### What is rounded to a number -/

namespace Format

variable {f : Format}

/-- The doublings and the significand of a magnitude that was put together from others. -/
theorem Fits.fields {k m : Nat} (h : f.Fits k m) :
    (f.doublings (k * 2 ^ f.fractionBits + m) = k ∧
        f.significand (k * 2 ^ f.fractionBits + m) = m) ∨
      f.doublings (k * 2 ^ f.fractionBits + m) = k + 1 ∧
        f.significand (k * 2 ^ f.fractionBits + m) = 2 ^ f.fractionBits ∧
          m = 2 * 2 ^ f.fractionBits := by
  obtain ⟨hm, hk⟩ := h
  have hpow : 2 ^ (f.fractionBits + 1) = 2 * 2 ^ f.fractionBits := by ring
  obtain ⟨hcompose, hs, hd⟩ := f.compose (k * 2 ^ f.fractionBits + m)
  have hP := Nat.two_pow_pos f.fractionBits
  rw [hpow] at hm hs
  generalize f.doublings _ = d at *
  generalize f.significand _ = s at *
  generalize 2 ^ f.fractionBits = P at *
  rcases lt_trichotomy d k with hlt | rfl | hlt
  · obtain ⟨j, rfl⟩ := Nat.exists_eq_add_of_lt hlt
    have hexpand : (d + j + 1) * P = d * P + j * P + P := by ring
    omega
  · exact .inl ⟨rfl, by omega⟩
  · obtain ⟨j, rfl⟩ := Nat.exists_eq_add_of_lt hlt
    have hexpand : (k + j + 1) * P = k * P + j * P + P := by ring
    rcases Nat.eq_zero_or_pos j with rfl | hj
    · exact .inr ⟨rfl, by omega, by omega⟩
    · have := Nat.le_mul_of_pos_left P hj
      omega

/-- The first number of a binade but the first one has the least significand. -/
theorem significand_eq_of_first {b : Nat} (h : b % 2 ^ f.fractionBits = 0) (hd : 0 < f.doublings b) :
    f.significand b = 2 ^ f.fractionBits := by
  obtain ⟨hcompose, hs, hnormal⟩ := f.compose b
  have hleast := hnormal.resolve_left hd.ne'
  have hmod : f.significand b % 2 ^ f.fractionBits = 0 := by
    rw [← hcompose, Nat.mul_add_mod'] at h
    exact h
  rw [pow_succ] at hs
  rw [← Nat.sub_add_cancel hleast, Nat.add_mod_right, Nat.mod_eq_of_lt (by omega)] at hmod
  omega

/-- What is rounded to a number lies in its interval. -/
theorem owns_of_round (hbits : 0 < f.fractionBits) {num den b : Nat} (hden : 0 < den)
    (hb : b < f.infinity) (h : f.round num den = b) : f.Owns b (num / den) := by
  have hcontains : (f.interval b).contains (num * 4 <<< f.scale) den = true := by
    obtain ⟨k, hfits, hbinade, hround⟩ := f.exists_nearest_of_round num hden
    have hD : 0 < den * 2 ^ k := Nat.mul_pos hden (Nat.two_pow_pos k)
    obtain ⟨hlow, hhigh⟩ := nearest_bounds (num <<< f.scale) hD
    have hodd := @nearest_odd (num <<< f.scale) _ hD
    refine (interval_contains_iff f b num hden).2 ?_
    rw [h] at hround
    generalize nearest (num <<< f.scale) (den * 2 ^ k) = m at *
    generalize num <<< f.scale = whole at *
    obtain rfl : b = k * 2 ^ f.fractionBits + m := by omega
    rcases hfits.fields with ⟨hdoublings, hsignificand⟩ | ⟨hdoublings, hsignificand, rfl⟩
    · rw [hdoublings, hsignificand]
      split
      · next hlowest =>
        -- the quotient does not lie before the binade that begins here
        have hfirst : m = 2 ^ f.fractionBits := by
          rw [← hsignificand]
          refine significand_eq_of_first hlowest.1 ?_
          rw [hdoublings]
          exact hlowest.2
        have hstart := hbinade.resolve_left hlowest.2.ne'
        have hsame : 2 ^ (f.fractionBits + k) * den = m * (den * 2 ^ k) := by
          rw [hfirst]
          ring
        omega
      · omega
    · -- the first number of the next binade, whose interval reaches down half as far
      have heven : 2 ^ f.fractionBits % 2 = 0 := by
        obtain ⟨j, hj⟩ := Nat.exists_eq_succ_of_ne_zero hbits.ne'
        rw [hj, Nat.succ_eq_add_one, Nat.pow_succ]
        omega
      have hlowest : (k * 2 ^ f.fractionBits + 2 * 2 ^ f.fractionBits) % 2 ^ f.fractionBits = 0 := by
        rw [← Nat.add_mul, Nat.mul_mod_left]
      rw [hdoublings, hsignificand, if_pos ⟨hlowest, Nat.succ_pos k⟩]
      have hdouble : den * 2 ^ (k + 1) = 2 * (den * 2 ^ k) := by ring
      have hsame : 2 ^ f.fractionBits * (2 * (den * 2 ^ k)) = 2 * 2 ^ f.fractionBits * (den * 2 ^ k) := by
        ring
      rw [hdouble, hsame]
      omega
  rw [Interval.contains_iff _ _ hden, Nat.shiftLeft_eq] at hcontains
  unfold Owns
  refine cast (congrArg _ ?_) hcontains
  push_cast
  ring

/-- **The interval of a number holds exactly what is rounded to it.** -/
theorem round_eq_iff_owns (hbits : 0 < f.fractionBits) {num den b : Nat} (hden : 0 < den)
    (hb : b < f.infinity) : f.round num den = b ↔ f.Owns b (num / den) :=
  ⟨owns_of_round hbits hden hb, round_of_owns hden hb⟩

end Format

/-! ### Digits -/

namespace Decimal

theorem lt_pow_digits (d : Decimal) : d.coefficient < 10 ^ d.digits.length :=
  (Nat.length_toDigits_le_iff (by decide) (List.length_pos_iff.2 Nat.toDigits_ne_nil)).1 le_rfl

theorem pow_digits_le {d : Decimal} (h : 1 < d.digits.length) :
    10 ^ (d.digits.length - 1) ≤ d.coefficient := by
  by_contra hlt
  have := (Nat.length_toDigits_le_iff (b := 10) (by decide) (by omega)).2 (not_le.1 hlt)
  unfold digits at h this
  omega

theorem digits_pos (d : Decimal) : 0 < d.digits.length :=
  List.length_pos_iff.2 Nat.toDigits_ne_nil

end Decimal

/-! ### Grids without a point -/

namespace Interval

variable {i : Interval} {x y z : ℚ}

theorem Holds.between (hx : i.Holds x) (hz : i.Holds z) (hxy : x ≤ y) (hyz : y ≤ z) : i.Holds y := by
  unfold Holds at *
  split
  · next hclosed =>
    rw [if_pos hclosed] at hx hz
    exact ⟨hx.1.trans hxy, hyz.trans hz.2⟩
  · next hopen =>
    rw [if_neg hopen] at hx hz
    exact ⟨hx.1.trans_le hxy, hyz.trans_lt hz.2⟩

theorem Sound.holds_center (hi : i.Sound) : i.Holds i.center := by
  refine hi.holds_of_near ?_
  have hdown : (i.lower : ℚ) < i.center := by exact_mod_cast hi.down
  rw [sub_self, abs_zero, reach]
  linarith

/-- A grid on which neither neighbour of the centre lies in the interval has no point there. -/
theorem Sound.not_holds_of_gridPoint? (hi : i.Sound) {tie : Tie} {step den : Nat} (hstep : 0 < step)
    (hden : 0 < den) (h : i.gridPoint? tie step den = none) (c : Nat) :
    ¬ i.Holds (c * (step / den : ℚ)) := by
  intro hc
  obtain ⟨hlow, hhigh⟩ := Interval.between (i := i) hstep hden
  have hgrid : (0 : ℚ) ≤ step / den := by positivity
  have hbelow := contains_gridPoint i (i.center * den / step) step hden
  have habove := contains_gridPoint i (i.center * den / step + 1) step hden
  unfold gridPoint? at h
  dsimp only at h
  generalize i.center * den / step = below at *
  have hneither : i.contains (below * step) den = false ∧ i.contains ((below + 1) * step) den = false := by
    revert h
    cases i.contains (below * step) den <;> cases i.contains ((below + 1) * step) den <;>
      cases tie <;> simp <;> split_ifs <;> simp
  rcases Nat.lt_or_ge below c with hlt | hle
  · have hnext : ((below + 1 : Nat) * (step / den) : ℚ) ≤ c * (step / den) :=
      mul_le_mul_of_nonneg_right (by exact_mod_cast hlt) hgrid
    refine Bool.false_ne_true (hneither.2 ▸ habove.2 ?_)
    refine hi.holds_center.between hc ?_ hnext
    push_cast
    exact hhigh.le
  · have hprevious : (c * (step / den) : ℚ) ≤ below * (step / den) :=
      mul_le_mul_of_nonneg_right (by exact_mod_cast hle) hgrid
    exact Bool.false_ne_true (hneither.1 ▸ hbelow.2 (hc.between hi.holds_center hprevious hlow))

/-- **On no coarser grid is there a point in the interval**, of those on which the search looks. -/
theorem Sound.coarsest_shortest (hi : i.Sound) (tie : Tie) {unit : Nat} (hunit : 0 < unit)
    {grids : Nat} {top e : ℤ} (he : e ≤ top) {c : Nat} (h : i.Holds (c * (10 ^ e * unit))) :
    e ≤ (i.shortest tie unit grids top).exponent := by
  induction grids generalizing top with
  | zero => exact he
  | succ grids ih =>
    rw [shortest]
    cases hpoint : i.gridPoint? tie (Nat.pow 10 top.toNat * unit) (Nat.pow 10 (-top).toNat) with
    | some _ => exact he
    | none =>
      have hpassed : ¬ i.Holds (c * (10 ^ top * unit)) := by
        rw [← ten_zpow]
        exact hi.not_holds_of_gridPoint? (Nat.mul_pos (Nat.pow_pos (by decide)) hunit)
          (Nat.pow_pos (by decide)) hpoint c
      have hne : e ≠ top := by
        rintro rfl
        exact hpassed h
      exact ih (by omega)

end Interval

namespace Format

variable {f : Format} {b : Nat} {tie : Tie}

theorem owns_value (h0 : 0 < b) : f.Owns b (f.value b) := by
  unfold Owns
  rw [← interval_center]
  exact (interval_sound h0).holds_center

/-- No grid coarser than that of the shortest decimal has a point in the interval. -/
theorem exponent_le_shortest (h0 : 0 < b)
    (htop : (f.interval b).upper < (10 : ℚ) ^ f.decimalBound b * (4 <<< f.scale : Nat)) {c : Nat}
    {e : ℤ} (h : f.Owns b (c * 10 ^ e)) : e ≤ (f.shortest tie b).exponent := by
  have hscale : ((4 <<< f.scale : Nat) : ℚ) = 4 * 2 ^ f.scale := by
    rw [Nat.shiftLeft_eq]
    push_cast
    rfl
  have hunit : 0 < 4 <<< f.scale := by
    rw [Nat.shiftLeft_eq]
    exact Nat.mul_pos (by decide) (Nat.two_pow_pos _)
  unfold Owns at h
  rw [mul_assoc, ← hscale] at h
  rcases le_or_gt e (f.decimalBound b) with hle | hgt
  · exact (interval_sound h0).coarsest_shortest tie hunit hle h
  · -- above the first grid there is nothing but zero before the interval ends
    exfalso
    have hlower : (0 : ℚ) < (f.interval b).lower := by exact_mod_cast interval_lower_pos h0
    have hpos : 0 < c := by
      refine Nat.pos_of_ne_zero fun hzero => ?_
      have := hlower.trans_le h.bounds.1
      rw [hzero, Nat.cast_zero, zero_mul] at this
      exact lt_irrefl _ this
    have hone : (1 : ℚ) ≤ c := by exact_mod_cast hpos
    have hcoarse : (10 : ℚ) ^ f.decimalBound b * (4 <<< f.scale : Nat) ≤
        (10 : ℚ) ^ e * (4 <<< f.scale : Nat) :=
      mul_le_mul_of_nonneg_right (zpow_le_zpow_right₀ (by norm_num) hgt.le) (by positivity)
    have hgrid : 0 < (10 : ℚ) ^ e * (4 <<< f.scale : Nat) := by positivity
    have hpoint := le_mul_of_one_le_left hgrid.le hone
    linarith [h.bounds.2]

/-- **No decimal in the interval of a number has fewer digits** than one on the coarsest grid. -/
theorem length_digits_le {d d' : Decimal} (hd : f.Owns b (d.coefficient * 10 ^ d.exponent))
    (hcoarsest : ∀ (c : Nat) (e : ℤ), f.Owns b (c * 10 ^ e) → e ≤ d.exponent)
    (hd' : f.Owns b (d'.coefficient * 10 ^ d'.exponent)) : d.digits.length ≤ d'.digits.length := by
  by_contra hfewer
  have hsome := d'.digits_pos
  have hgrid := hcoarsest _ _ hd'
  -- the power of ten with as many digits as the shortest decimal lies between the two
  have hbelow : (d'.coefficient * 10 ^ d'.exponent : ℚ) ≤
      10 ^ (d.digits.length - 1) * 10 ^ d.exponent := by
    have hlt : d'.coefficient ≤ 10 ^ (d.digits.length - 1) :=
      d'.lt_pow_digits.le.trans (Nat.pow_le_pow_right (by decide) (by omega))
    have hlt' : (d'.coefficient : ℚ) ≤ 10 ^ (d.digits.length - 1) := by exact_mod_cast hlt
    gcongr
    norm_num
  have habove : (10 ^ (d.digits.length - 1) * 10 ^ d.exponent : ℚ) ≤
      d.coefficient * 10 ^ d.exponent := by
    have hle : ((10 ^ (d.digits.length - 1) : Nat) : ℚ) ≤ d.coefficient := by
      exact_mod_cast Decimal.pow_digits_le (by omega)
    push_cast at hle
    gcongr
  have hbetween : f.Owns b ((1 : Nat) * 10 ^ ((d.digits.length - 1 : Nat) + d.exponent)) := by
    rw [Nat.cast_one, one_mul, zpow_add₀ (by norm_num), zpow_natCast]
    exact Interval.Holds.between hd' hd (mul_le_mul_of_nonneg_right hbelow (by positivity))
      (mul_le_mul_of_nonneg_right habove (by positivity))
  have := hcoarsest _ _ hbetween
  omega

end Format

end SpoolTag.Number
