import Mathlib.Algebra.Order.Field.Basic
import Mathlib.Algebra.Order.Field.Rat
import Mathlib.Tactic.FieldSimp
import Mathlib.Tactic.Linarith
import Mathlib.Tactic.Ring
import SpoolTag.Number.Shortest

/-! # What rounding does

Rounding picks a binade, that is a number of doublings, and then the nearest significand in it
(`Format.exists_nearest_of_round`). So it is off by half a unit of the last place at most, and exact where the
significand needs no rounding (`Format.value_round_exact`). Conversely a quotient in the interval of a
magnitude rounds to it (`round_of_contains`); that is what the interval is meant to say.

Everything is an inequality between natural numbers, with denominators multiplied out. -/

namespace SpoolTag.Number

/-! ### The nearest integer -/

theorem nearest_bounds (num : Nat) {den : Nat} (hden : 0 < den) :
    2 * (nearest num den * den) ≤ 2 * num + den ∧ 2 * num ≤ 2 * (nearest num den * den) + den := by
  have hnum := Nat.div_add_mod num den
  have hrem := Nat.mod_lt num hden
  rw [Nat.mul_comm] at hnum
  have hnext : (num / den + 1) * den = num / den * den + den := by ring
  have hbelow : 2 * (num % den) ≤ den → 2 * (num / den * den) ≤ 2 * num + den ∧
      2 * num ≤ 2 * (num / den * den) + den := by omega
  have habove : den ≤ 2 * (num % den) → 2 * ((num / den + 1) * den) ≤ 2 * num + den ∧
      2 * num ≤ 2 * ((num / den + 1) * den) + den := by omega
  unfold nearest
  dsimp only
  split
  · exact hbelow (by omega)
  split
  · exact habove (by omega)
  rcases Nat.mod_two_eq_zero_or_one (num / den) with hparity | hparity
  · rw [hparity]
    exact hbelow (by omega)
  · rw [hparity]
    exact habove (by omega)

/-- An odd integer is only the nearest one if it is less than half away. -/
theorem nearest_odd {num den : Nat} (hden : 0 < den) (h : nearest num den % 2 = 1) :
    2 * (nearest num den * den) < 2 * num + den ∧ 2 * num < 2 * (nearest num den * den) + den := by
  have hnum := Nat.div_add_mod num den
  have hrem := Nat.mod_lt num hden
  have hnext : (num / den + 1) * den = num / den * den + den := by ring
  rw [Nat.mul_comm] at hnum
  unfold nearest at h ⊢
  dsimp only at h ⊢
  split_ifs at h ⊢ <;> omega

/-- An integer at most half away is the nearest one; at exactly half it has to be even. -/
theorem nearest_eq {num den m : Nat} (hden : 0 < den) (hlow : 2 * (m * den) ≤ 2 * num + den)
    (hhigh : 2 * num ≤ 2 * (m * den) + den)
    (hodd : m % 2 = 1 → 2 * (m * den) < 2 * num + den ∧ 2 * num < 2 * (m * den) + den) :
    nearest num den = m := by
  have hnum := Nat.div_add_mod num den
  have hrem := Nat.mod_lt num hden
  rw [Nat.mul_comm] at hnum
  unfold nearest
  dsimp only
  generalize num / den = q at *
  generalize num % den = r at *
  have hq : q ≤ m := by
    by_contra h
    have hle : (m + 1) * den ≤ q * den := Nat.mul_le_mul_right den (by omega)
    rw [Nat.add_mul] at hle
    omega
  have hm : m ≤ q + 1 := by
    by_contra h
    have hle : (q + 2) * den ≤ m * den := Nat.mul_le_mul_right den (by omega)
    rw [Nat.add_mul] at hle
    omega
  rcases Nat.eq_or_lt_of_le hq with rfl | hlt
  · rw [if_neg (by omega : ¬ den < 2 * r)]
    split
    · rfl
    · rcases Nat.mod_two_eq_zero_or_one q with hparity | hparity
      · rw [hparity, Nat.add_zero]
      · have := hodd hparity
        omega
  · obtain rfl : m = q + 1 := by omega
    have hnext : (q + 1) * den = q * den + den := by ring
    rw [hnext] at hlow hhigh hodd
    rw [if_neg (by omega : ¬ 2 * r < den)]
    split
    · rfl
    · rcases Nat.mod_two_eq_zero_or_one q with hparity | hparity
      · have := hodd (by omega)
        omega
      · rw [hparity]

/-! ### Binary digits -/

theorem bitLength_eq {n k : Nat} (hlow : 2 ^ k ≤ n) (hhigh : n < 2 ^ (k + 1)) :
    bitLength n = k + 1 := by
  have hn : n ≠ 0 := by
    rintro rfl
    have := Nat.two_pow_pos k
    omega
  unfold bitLength
  rw [if_neg hn]
  congr 1
  refine Nat.le_antisymm ?_ ?_
  · have := (Nat.log2_lt hn).2 hhigh
    omega
  · exact (Nat.le_log2 hn).2 hlow

theorem bitLength_le {n k : Nat} (h : n < 2 ^ k) : bitLength n ≤ k := by
  unfold bitLength
  split
  · exact Nat.zero_le k
  · next hn => exact (Nat.log2_lt hn).2 h

theorem lt_two_pow_bitLength (n : Nat) : n < 2 ^ bitLength n := by
  unfold bitLength
  split
  · next hn =>
    subst hn
    decide
  · exact Nat.lt_log2_self

theorem two_pow_le_of_bitLength {n k : Nat} (h : bitLength n = k + 1) : 2 ^ k ≤ n := by
  unfold bitLength at h
  split at h
  · cases h
  · next hn => exact (Nat.le_log2 hn).1 (by omega)

namespace Format

variable {f : Format}

/-! ### Magnitudes by doublings and significand -/

/-- A significand of a binade, or of the lowest one, where it need not have its leading bit. The
significand one past the last stands for the first of the next binade. -/
def Fits (f : Format) (k m : Nat) : Prop :=
  m ≤ 2 ^ (f.fractionBits + 1) ∧ (k = 0 ∨ 2 ^ f.fractionBits ≤ m)

theorem fields_of_div {b t r : Nat} (hb : b = t * 2 ^ f.fractionBits + r)
    (hr : r < 2 ^ f.fractionBits) :
    f.doublings b = t - 1 ∧
      f.significand b = if t = 0 then r else 2 ^ f.fractionBits + r := by
  have hdiv : b >>> f.fractionBits = t := by
    rw [Nat.shiftRight_eq_div_pow, hb, Nat.mul_comm, Nat.mul_add_div (Nat.two_pow_pos _),
      Nat.div_eq_of_lt hr, Nat.add_zero]
  have hmod : b % 2 ^ f.fractionBits = r := by
    rw [hb, Nat.mul_comm, Nat.mul_add_mod, Nat.mod_eq_of_lt hr]
  unfold doublings significand
  rw [hdiv, Nat.one_shiftLeft, hmod]
  refine ⟨rfl, ?_⟩
  by_cases ht : t = 0
  · rw [if_pos ht, if_pos ht, hb, ht, Nat.zero_mul, Nat.zero_add]
  · rw [if_neg ht, if_neg ht]

theorem units_compose {k m : Nat} (h : f.Fits k m) :
    f.units (k * 2 ^ f.fractionBits + m) = m * 2 ^ k := by
  obtain ⟨hm, hk⟩ := h
  have hpow : 2 ^ (f.fractionBits + 1) = 2 * 2 ^ f.fractionBits := by ring
  rw [hpow] at hm
  unfold units
  rw [Nat.shiftLeft_eq]
  by_cases hlow : m < 2 ^ f.fractionBits
  · obtain rfl : k = 0 := by omega
    obtain ⟨hdoublings, hsignificand⟩ := fields_of_div (f := f) (t := 0) rfl hlow
    rw [hdoublings, hsignificand, if_pos rfl]
  by_cases hnext : m = 2 * 2 ^ f.fractionBits
  · have hb : k * 2 ^ f.fractionBits + m = (k + 2) * 2 ^ f.fractionBits + 0 := by
      rw [hnext]
      ring
    obtain ⟨hdoublings, hsignificand⟩ := fields_of_div (f := f) hb (Nat.two_pow_pos _)
    rw [hdoublings, hsignificand, if_neg (by omega), hnext]
    change (2 ^ f.fractionBits + 0) * 2 ^ (k + 1) = _
    ring
  · obtain ⟨r, rfl⟩ := Nat.exists_eq_add_of_le (Nat.le_of_not_lt hlow)
    have hb : k * 2 ^ f.fractionBits + (2 ^ f.fractionBits + r) =
        (k + 1) * 2 ^ f.fractionBits + r := by ring
    obtain ⟨hdoublings, hsignificand⟩ := fields_of_div (f := f) hb (by omega)
    rw [hdoublings, hsignificand, if_neg (by omega)]
    rfl

/-- Every magnitude is composed of its doublings and its significand. -/
theorem compose (b : Nat) :
    f.doublings b * 2 ^ f.fractionBits + f.significand b = b ∧
      f.significand b < 2 ^ (f.fractionBits + 1) ∧
        (f.doublings b = 0 ∨ 2 ^ f.fractionBits ≤ f.significand b) := by
  have hpow : 2 ^ (f.fractionBits + 1) = 2 * 2 ^ f.fractionBits := by ring
  have hdiv := Nat.div_add_mod b (2 ^ f.fractionBits)
  have hmod := Nat.mod_lt b (Nat.two_pow_pos f.fractionBits)
  rw [Nat.mul_comm] at hdiv
  obtain ⟨hdoublings, hsignificand⟩ := fields_of_div (f := f) hdiv.symm hmod
  rw [hdoublings, hsignificand, hpow]
  generalize b / 2 ^ f.fractionBits = t at *
  rcases t with _ | t
  · rw [if_pos rfl]
    omega
  · rw [if_neg (by omega)]
    have hcarry : (t + 1) * 2 ^ f.fractionBits = t * 2 ^ f.fractionBits + 2 ^ f.fractionBits := by
      ring
    rw [Nat.add_sub_cancel]
    omega

/-! ### Rounding -/

/-- **What rounding does**: some number of doublings, the least that leaves the significand short
enough, and the nearest significand. -/
theorem exists_nearest_of_round (f : Format) (num : Nat) {den : Nat} (hden : 0 < den) :
    ∃ k, f.Fits k (nearest (num <<< f.scale) (den * 2 ^ k)) ∧
      (k = 0 ∨ 2 ^ (f.fractionBits + k) * den ≤ num <<< f.scale) ∧
        f.round num den =
          min (k * 2 ^ f.fractionBits + nearest (num <<< f.scale) (den * 2 ^ k)) f.infinity := by
  generalize hwhole : num <<< f.scale = whole
  generalize hk : bitLength (whole / den) - (f.fractionBits + 1) = k
  have hD : 0 < den * 2 ^ k := Nat.mul_pos hden (Nat.two_pow_pos k)
  obtain ⟨hlow, hhigh⟩ := nearest_bounds whole hD
  have hround : f.round num den =
      min (k * 2 ^ f.fractionBits + nearest whole (den * 2 ^ k)) f.infinity := by
    unfold round
    dsimp only
    rw [hwhole, hk, Nat.shiftLeft_eq, Nat.shiftLeft_eq]
  have hlt : whole < 2 ^ (f.fractionBits + 1) * (den * 2 ^ k) := by
    have hbits : whole / den < 2 ^ (f.fractionBits + 1 + k) :=
      lt_of_lt_of_le (lt_two_pow_bitLength _) (Nat.pow_le_pow_right (by decide) (by omega))
    rw [Nat.div_lt_iff_lt_mul hden] at hbits
    calc whole < 2 ^ (f.fractionBits + 1 + k) * den := hbits
      _ = 2 ^ (f.fractionBits + 1) * (den * 2 ^ k) := by ring
  have hbinade : k = 0 ∨ 2 ^ (f.fractionBits + k) * den ≤ whole := by
    rcases k with _ | k
    · exact .inl rfl
    · have hbits : bitLength (whole / den) = f.fractionBits + (k + 1) + 1 := by omega
      exact .inr ((Nat.le_div_iff_mul_le hden).1 (two_pow_le_of_bitLength hbits))
  refine ⟨k, ?_, hbinade, hround⟩
  generalize nearest whole (den * 2 ^ k) = m at *
  generalize hE : den * 2 ^ k = D at *
  constructor
  · by_contra h
    have hle : (2 ^ (f.fractionBits + 1) + 1) * D ≤ m * D := Nat.mul_le_mul_right D (by omega)
    rw [Nat.add_mul] at hle
    omega
  · refine hbinade.imp_right fun hle => ?_
    have hsame : 2 ^ (f.fractionBits + k) * den = 2 ^ f.fractionBits * D := by
      rw [← hE]
      ring
    rw [hsame] at hle
    by_contra h
    have hnext : (m + 1) * D ≤ 2 ^ f.fractionBits * D := Nat.mul_le_mul_right D (by omega)
    rw [Nat.add_mul] at hnext
    omega

/-- The same with bounds of the significand. -/
theorem exists_of_round (f : Format) (num : Nat) {den : Nat} (hden : 0 < den) :
    ∃ k m, f.Fits k m ∧ (k = 0 ∨ 2 ^ (f.fractionBits + k) * den ≤ num <<< f.scale) ∧
      f.round num den = min (k * 2 ^ f.fractionBits + m) f.infinity ∧
        2 * (m * (den * 2 ^ k)) ≤ 2 * num <<< f.scale + den * 2 ^ k ∧
          2 * num <<< f.scale ≤ 2 * (m * (den * 2 ^ k)) + den * 2 ^ k := by
  obtain ⟨k, hfits, hbinade, hround⟩ := f.exists_nearest_of_round num hden
  exact ⟨k, _, hfits, hbinade, hround, nearest_bounds _ (Nat.mul_pos hden (Nat.two_pow_pos k))⟩

/-- The doublings and the significand to which a quotient rounds. -/
theorem round_eq {num den k m : Nat} (hden : 0 < den)
    (hlow : k = 0 ∨ 2 ^ f.fractionBits * (den * 2 ^ k) ≤ num <<< f.scale)
    (hhigh : num <<< f.scale < 2 ^ (f.fractionBits + 1) * (den * 2 ^ k))
    (hm : nearest (num <<< f.scale) (den * 2 ^ k) = m) :
    f.round num den = min (k * 2 ^ f.fractionBits + m) f.infinity := by
  unfold round
  dsimp only
  generalize num <<< f.scale = whole at *
  have hlt : whole / den < 2 ^ (f.fractionBits + k + 1) := by
    rw [Nat.div_lt_iff_lt_mul hden]
    calc whole < 2 ^ (f.fractionBits + 1) * (den * 2 ^ k) := hhigh
      _ = 2 ^ (f.fractionBits + k + 1) * den := by ring
  have hk : bitLength (whole / den) - (f.fractionBits + 1) = k := by
    rcases hlow with rfl | hle
    · have := bitLength_le hlt
      omega
    · have hsame : 2 ^ f.fractionBits * (den * 2 ^ k) = 2 ^ (f.fractionBits + k) * den := by ring
      rw [hsame] at hle
      rw [bitLength_eq ((Nat.le_div_iff_mul_le hden).2 hle) hlt]
      omega
  rw [hk, Nat.shiftLeft_eq, Nat.shiftLeft_eq, hm]

/-- How far below and above its number the interval of a magnitude reaches, in units of a quarter of
the last place; the bounds belong to it only if the significand is even. -/
theorem interval_contains_iff (f : Format) (b num : Nat) {den : Nat} (hden : 0 < den) :
    let whole := num <<< f.scale
    let D := den * 2 ^ f.doublings b
    let s := f.significand b
    let below := if b % 2 ^ f.fractionBits = 0 ∧ 0 < f.doublings b then D else 2 * D
    (f.interval b).contains (num * 4 <<< f.scale) den = true ↔
      4 * (s * D) ≤ 4 * whole + below ∧ 2 * whole ≤ 2 * (s * D) + D ∧
        (s % 2 = 1 → 4 * (s * D) < 4 * whole + below ∧ 2 * whole < 2 * (s * D) + D) := by
  intro whole D s below
  have hlowest : (b % (1 <<< f.fractionBits) = 0 ∧ 0 < f.doublings b) =
      (b % 2 ^ f.fractionBits = 0 ∧ 0 < f.doublings b) := by rw [Nat.one_shiftLeft]
  have hnum : num * 4 <<< f.scale = 4 * whole := by
    change num * 4 <<< f.scale = 4 * num <<< f.scale
    rw [Nat.shiftLeft_eq, Nat.shiftLeft_eq]
    ring
  have hcenter : 4 * f.units b * den = 4 * (s * D) := by
    change 4 * (s <<< f.doublings b) * den = _
    rw [Nat.shiftLeft_eq]
    ring
  have hhalf : 2 <<< f.doublings b * den = 2 * D := by
    rw [Nat.shiftLeft_eq]
    ring
  have hquarter : 2 <<< f.doublings b / 2 * den = D := by
    rw [Nat.shiftLeft_eq, Nat.mul_div_cancel_left _ (by decide)]
    ring
  have hlower : (f.interval b).lower * den = 4 * (s * D) - below := by
    unfold interval
    dsimp only
    rw [Nat.sub_mul, hcenter]
    simp only [hlowest]
    split
    · next hlow => rw [hquarter, show below = D from if_pos hlow]
    · next hlow => rw [hhalf, show below = 2 * D from if_neg hlow]
  have hupper : (f.interval b).upper * den = 4 * (s * D) + 2 * D := by
    unfold interval
    dsimp only
    rw [Nat.add_mul, hcenter, hhalf]
  have hclosed : (f.interval b).closed = decide (s % 2 = 0) := rfl
  have hbelow : below ≤ 2 * D := by
    change (if _ then D else 2 * D) ≤ 2 * D
    split
    · exact Nat.le_mul_of_pos_left D (by decide)
    · exact le_rfl
  have hD : 0 < D := Nat.mul_pos hden (Nat.two_pow_pos _)
  have hodd : s % 2 = 1 → D ≤ s * D := fun h => Nat.le_mul_of_pos_left D (by omega)
  unfold Interval.contains
  rw [hlower, hupper, hnum, hclosed]
  clear_value whole D s below
  by_cases hparity : s % 2 = 0
  · rw [decide_eq_true hparity, if_pos rfl, Bool.and_eq_true, decide_eq_true_eq,
      decide_eq_true_eq]
    omega
  · rw [decide_eq_false hparity, if_neg (by decide), Bool.and_eq_true, decide_eq_true_eq,
      decide_eq_true_eq]
    omega

section Contains

variable {b num den : Nat} (hden : 0 < den) (hb : b < f.infinity)
  (h : (f.interval b).contains (num * 4 <<< f.scale) den = true)

include hden hb h

/-- A quotient in the interval and in the binade of a magnitude is rounded to it. -/
theorem round_of_contains_binade (hbinade : f.doublings b = 0 ∨
    2 ^ f.fractionBits * (den * 2 ^ f.doublings b) ≤ num <<< f.scale) : f.round num den = b := by
  obtain ⟨hbelow, habove, hodd⟩ := (interval_contains_iff f b num hden).1 h
  obtain ⟨hcompose, hs, -⟩ := f.compose b
  generalize f.significand b = s at *
  generalize f.doublings b = d at *
  have hD : 0 < den * 2 ^ d := Nat.mul_pos hden (Nat.two_pow_pos d)
  have hhigh : num <<< f.scale < 2 ^ (f.fractionBits + 1) * (den * 2 ^ d) := by
    have hle : (s + 1) * (den * 2 ^ d) ≤ 2 ^ (f.fractionBits + 1) * (den * 2 ^ d) :=
      Nat.mul_le_mul_right _ hs
    rw [Nat.add_mul] at hle
    omega
  have hm : nearest (num <<< f.scale) (den * 2 ^ d) = s := by
    refine nearest_eq hD ?_ habove fun hparity => ⟨?_, (hodd hparity).2⟩
    · split at hbelow <;> omega
    · have := (hodd hparity).1
      split at this <;> omega
  rw [round_eq hden hbinade hhigh hm, hcompose]
  exact Nat.min_eq_left (Nat.le_of_lt hb)

/-- The interval of a power of two reaches into the binade before, and what lies there is rounded to
the power of two as well. -/
theorem round_of_contains_before (hd0 : f.doublings b ≠ 0)
    (hlt : num <<< f.scale < 2 ^ f.fractionBits * (den * 2 ^ f.doublings b)) :
    f.round num den = b := by
  obtain ⟨hbelow, habove, -⟩ := (interval_contains_iff f b num hden).1 h
  obtain ⟨hcompose, -, hd⟩ := f.compose b
  have hpow : 2 ^ (f.fractionBits + 1) = 2 * 2 ^ f.fractionBits := by ring
  generalize f.significand b = s at *
  generalize f.doublings b = d at *
  obtain ⟨d, rfl⟩ := Nat.exists_eq_succ_of_ne_zero hd0
  simp only [Nat.succ_eq_add_one] at *
  have hhalf : den * 2 ^ (d + 1) = 2 * (den * 2 ^ d) := by ring
  have hfirst : 2 ^ f.fractionBits * (den * 2 ^ (d + 1)) =
      2 * (2 ^ f.fractionBits * (den * 2 ^ d)) := by ring
  have hnext : 2 ^ (f.fractionBits + 1) * (den * 2 ^ d) =
      2 * (2 ^ f.fractionBits * (den * 2 ^ d)) := by ring
  have hone : den * 2 ^ d ≤ 2 ^ f.fractionBits * (den * 2 ^ d) :=
    Nat.le_mul_of_pos_left _ (Nat.two_pow_pos _)
  obtain rfl : s = 2 ^ f.fractionBits := by
    refine Nat.le_antisymm ?_ (hd.resolve_left hd0)
    by_contra hlarge
    have hle : (2 ^ f.fractionBits + 1) * (den * 2 ^ (d + 1)) ≤ s * (den * 2 ^ (d + 1)) :=
      Nat.mul_le_mul_right _ (by omega)
    rw [Nat.add_mul] at hle
    split at hbelow <;> omega
  have hlowest : b % 2 ^ f.fractionBits = 0 ∧ 0 < d + 1 := by
    refine ⟨?_, Nat.succ_pos d⟩
    rw [← hcompose, Nat.mul_add_mod', Nat.mod_self]
  rw [if_pos hlowest] at hbelow
  have hm : nearest (num <<< f.scale) (den * 2 ^ d) = 2 ^ (f.fractionBits + 1) := by
    refine nearest_eq (Nat.mul_pos hden (Nat.two_pow_pos d)) ?_ ?_ fun hparity => ?_
    · omega
    · omega
    · rw [hpow] at hparity
      omega
  have hlow : 2 ^ f.fractionBits * (den * 2 ^ d) ≤ num <<< f.scale := by omega
  have hhigh : num <<< f.scale < 2 ^ (f.fractionBits + 1) * (den * 2 ^ d) := by omega
  rw [round_eq hden (.inr hlow) hhigh hm]
  have hmagnitude : d * 2 ^ f.fractionBits + 2 ^ (f.fractionBits + 1) = b := by
    rw [← hcompose]
    ring
  rw [hmagnitude]
  exact Nat.min_eq_left (Nat.le_of_lt hb)

/-- **What lies in the interval of a magnitude is rounded to it.** -/
theorem round_of_contains : f.round num den = b := by
  by_cases hbinade : f.doublings b = 0 ∨
      2 ^ f.fractionBits * (den * 2 ^ f.doublings b) ≤ num <<< f.scale
  · exact round_of_contains_binade hden hb h hbinade
  · obtain ⟨hd0, hlt⟩ := not_or.1 hbinade
    exact round_of_contains_before hden hb h hd0 (Nat.not_le.1 hlt)

end Contains

/-- A quotient that is small enough is rounded to a finite magnitude. -/
theorem round_lt_infinity {num den K : Nat} (hden : 0 < den)
    (h : num <<< f.scale < 2 ^ (f.fractionBits + K) * den) (hK : K + 3 < 2 ^ f.exponentBits) :
    f.round num den < f.infinity := by
  obtain ⟨k, m, ⟨hm, -⟩, hbinade, hround, -⟩ := f.exists_of_round num hden
  have hk : k ≤ K := by
    rcases hbinade with rfl | hle
    · exact Nat.zero_le K
    · have hlt : 2 ^ (f.fractionBits + k) < 2 ^ (f.fractionBits + K) :=
        Nat.lt_of_mul_lt_mul_right (lt_of_le_of_lt hle h)
      have := (Nat.pow_lt_pow_iff_right (by decide)).1 hlt
      omega
  have hinfinity : f.infinity = (2 ^ f.exponentBits - 1) * 2 ^ f.fractionBits := by
    unfold infinity
    rw [Nat.one_shiftLeft, Nat.shiftLeft_eq]
  have hle : k * 2 ^ f.fractionBits + m ≤ (K + 2) * 2 ^ f.fractionBits := by
    calc k * 2 ^ f.fractionBits + m ≤ K * 2 ^ f.fractionBits + 2 ^ (f.fractionBits + 1) :=
          Nat.add_le_add (Nat.mul_le_mul_right _ hk) hm
      _ = (K + 2) * 2 ^ f.fractionBits := by ring
  have hlt : (K + 2) * 2 ^ f.fractionBits < f.infinity := by
    rw [hinfinity]
    exact Nat.mul_lt_mul_of_pos_right (by omega) (Nat.two_pow_pos _)
  rw [hround]
  exact lt_of_le_of_lt (Nat.min_le_left _ _) (lt_of_le_of_lt hle hlt)

/-! ### As rational numbers -/

/-- The number that a finite magnitude stands for. -/
def value (f : Format) (b : Nat) : ℚ := f.units b / 2 ^ f.scale

/-- The number that a rounding comes to, with what is known about its last place. -/
theorem exists_of_value_round {num den : Nat} (hden : 0 < den)
    (hfinite : f.round num den < f.infinity) :
    ∃ k m : Nat, f.value (f.round num den) = m * 2 ^ k / 2 ^ f.scale ∧
      |f.value (f.round num den) - num / den| ≤ 2 ^ k / 2 ^ f.scale / 2 ∧
        (k = 0 ∨ 2 ^ (f.fractionBits + k) * den ≤ num <<< f.scale) := by
  obtain ⟨k, m, hfits, hbinade, hround, hbelow, habove⟩ := f.exists_of_round num hden
  have hmagnitude : f.round num den = k * 2 ^ f.fractionBits + m := by
    rw [hround] at hfinite ⊢
    omega
  have hvalue : f.value (f.round num den) = m * 2 ^ k / 2 ^ f.scale := by
    rw [hmagnitude, value, units_compose hfits]
    push_cast
    rfl
  refine ⟨k, m, hvalue, ?_, hbinade⟩
  rw [Nat.shiftLeft_eq] at hbelow habove
  have hbelow' : (2 * (m * (den * 2 ^ k)) : ℚ) ≤ 2 * (num * 2 ^ f.scale) + den * 2 ^ k := by
    exact_mod_cast hbelow
  have habove' : (2 * (num * 2 ^ f.scale) : ℚ) ≤ 2 * (m * (den * 2 ^ k)) + den * 2 ^ k := by
    exact_mod_cast habove
  have hden' : (0 : ℚ) < den := by exact_mod_cast hden
  have hdifference : (m * 2 ^ k / 2 ^ f.scale - num / den : ℚ) =
      (2 * (m * (den * 2 ^ k)) - 2 * (num * 2 ^ f.scale)) / (2 * den * 2 ^ f.scale) := by
    field_simp
  have hbound : (2 ^ k / 2 ^ f.scale / 2 : ℚ) = den * 2 ^ k / (2 * den * 2 ^ f.scale) := by
    field_simp
  rw [hvalue, hdifference, hbound, abs_div, abs_of_pos (by positivity : (0 : ℚ) < 2 * den * _)]
  gcongr
  rw [abs_le]
  constructor <;> linarith

/-- **A rounding is off by half a unit of the last place at most**, which is little beside the number
itself unless that is tiny. -/
theorem value_round_near {num den : Nat} (hden : 0 < den)
    (hlow : 2 ^ f.fractionBits * den ≤ num <<< f.scale) (hfinite : f.round num den < f.infinity) :
    |f.value (f.round num den) - num / den| ≤ num / den / 2 ^ (f.fractionBits + 1) := by
  obtain ⟨k, m, -, hnear, hbinade⟩ := exists_of_value_round hden hfinite
  have hlast : 2 ^ (f.fractionBits + k) * den ≤ num <<< f.scale := by
    rcases hbinade with rfl | h
    · exact hlow
    · exact h
  rw [Nat.shiftLeft_eq] at hlast
  have hlast' : (2 ^ (f.fractionBits + k) * den : ℚ) ≤ num * 2 ^ f.scale := by exact_mod_cast hlast
  have hden' : (0 : ℚ) < den := by exact_mod_cast hden
  refine hnear.trans ?_
  rw [div_div, div_div, div_le_div_iff₀ (by positivity) (by positivity)]
  calc (2 ^ k * (den * 2 ^ (f.fractionBits + 1)) : ℚ)
      = 2 ^ (f.fractionBits + k) * den * 2 := by ring
    _ ≤ num * 2 ^ f.scale * 2 := by gcongr
    _ = num * (2 ^ f.scale * 2) := by ring

/-- A number that needs no more digits than a significand has is not changed by rounding. -/
theorem value_round_exact {num den t j : Nat} (hden : 0 < den) (ht : t < 2 ^ (f.fractionBits + 1))
    (h : num * 2 ^ f.scale = t * 2 ^ j * den) (hfinite : f.round num den < f.infinity) :
    f.value (f.round num den) = num / den := by
  obtain ⟨k, m, hvalue, hnear, hbinade⟩ := exists_of_value_round hden hfinite
  have hk : k ≤ j := by
    rcases hbinade with rfl | hle
    · exact Nat.zero_le j
    · rw [Nat.shiftLeft_eq, h] at hle
      have hlt : 2 ^ (f.fractionBits + k) < 2 ^ (f.fractionBits + 1 + j) := by
        calc 2 ^ (f.fractionBits + k) ≤ t * 2 ^ j := Nat.le_of_mul_le_mul_right hle hden
          _ < 2 ^ (f.fractionBits + 1) * 2 ^ j :=
            Nat.mul_lt_mul_of_pos_right ht (Nat.two_pow_pos j)
          _ = 2 ^ (f.fractionBits + 1 + j) := by ring
      have := (Nat.pow_lt_pow_iff_right (by decide)).1 hlt
      omega
  obtain ⟨i, rfl⟩ := Nat.exists_eq_add_of_le hk
  -- both are multiples of a unit of the last place, and no more than half of one apart
  have hden' : (0 : ℚ) < den := by exact_mod_cast hden
  have hnum : (num / den : ℚ) = t * 2 ^ i * 2 ^ k / 2 ^ f.scale := by
    have h' : (num * 2 ^ f.scale : ℚ) = t * 2 ^ (k + i) * den := by exact_mod_cast h
    rw [div_eq_div_iff (by positivity) (by positivity), h']
    ring
  rw [hvalue, hnum] at hnear ⊢
  have hdifference : (m * 2 ^ k / 2 ^ f.scale - t * 2 ^ i * 2 ^ k / 2 ^ f.scale : ℚ) =
      ((m - t * 2 ^ i : ℤ) : ℚ) * (2 ^ k / 2 ^ f.scale) := by
    push_cast
    ring
  have hunit : (0 : ℚ) < 2 ^ k / 2 ^ f.scale := by positivity
  rw [hdifference, abs_mul, abs_of_pos hunit, div_eq_mul_one_div _ (2 : ℚ), mul_comm _ (1 / 2 : ℚ),
    mul_le_mul_iff_left₀ hunit] at hnear
  have hzero : (m - t * 2 ^ i : ℤ) = 0 := by
    have hlt : |((m - t * 2 ^ i : ℤ) : ℚ)| < 1 := lt_of_le_of_lt hnear (by norm_num)
    rw [← Int.cast_abs] at hlt
    have hlt' : |(m - t * 2 ^ i : ℤ)| < 1 := by exact_mod_cast hlt
    exact Int.abs_lt_one_iff.1 hlt'
  have hm : (m : ℚ) = t * 2 ^ i := by
    have : (m : ℤ) = t * 2 ^ i := by linarith
    exact_mod_cast this
  rw [hm]

end Format

end SpoolTag.Number
