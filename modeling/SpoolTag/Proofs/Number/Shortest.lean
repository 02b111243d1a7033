import Mathlib.Algebra.Order.Field.Power
import Mathlib.Tactic.LinearCombination
import SpoolTag.Proofs.Number.Rounding

/-! # The shortest decimal is one of the number

The search for the shortest decimal goes from coarse grids to fine ones and takes a neighbour of the
number on the first grid on which there is one in the interval of the number. So what it finds rounds
to the number (`Shortest.owned`). On a grid no coarser than the interval reaches down, the nearer
neighbour is at most half a step away; so the decimal is either well inside the interval or has few
digits (`Shortest.inside`), and it never has many (`Shortest.fine`). -/

namespace SpoolTag.Number

namespace Interval

/-- The rational number lies in the interval. -/
def Holds (i : Interval) (x : ℚ) : Prop :=
  if i.closed then (i.lower : ℚ) ≤ x ∧ x ≤ i.upper else (i.lower : ℚ) < x ∧ x < i.upper

theorem contains_iff (i : Interval) (num : Nat) {den : Nat} (hden : 0 < den) :
    i.contains num den = true ↔ i.Holds (num / den) := by
  have hden' : (0 : ℚ) < den := by exact_mod_cast hden
  unfold contains Holds
  split
  · rw [Bool.and_eq_true, decide_eq_true_eq, decide_eq_true_eq, le_div_iff₀ hden',
      div_le_iff₀ hden']
    norm_cast
  · rw [Bool.and_eq_true, decide_eq_true_eq, decide_eq_true_eq, lt_div_iff₀ hden',
      div_lt_iff₀ hden']
    norm_cast

theorem Holds.bounds {i : Interval} {x : ℚ} (h : i.Holds x) :
    (i.lower : ℚ) ≤ x ∧ x ≤ i.upper := by
  unfold Holds at h
  split at h
  · exact h
  · exact ⟨h.1.le, h.2.le⟩

/-- What is known of the interval of a number: it reaches down, and up at least as far. -/
structure Sound (i : Interval) : Prop where
  down : i.lower < i.center
  up : 2 * i.center ≤ i.lower + i.upper

variable {i : Interval} {x : ℚ}

/-- How far the interval reaches down. -/
def reach (i : Interval) : ℚ := i.center - i.lower

theorem Sound.reach_le (hi : i.Sound) : i.reach ≤ i.upper - i.center := by
  have h : (2 * i.center : ℚ) ≤ i.lower + i.upper := by exact_mod_cast hi.up
  unfold reach
  linarith

/-- Up to the reach of the interval everything lies in it. -/
theorem Sound.holds_of_near (hi : i.Sound) (h : |x - i.center| < i.reach) : i.Holds x := by
  have hle := hi.reach_le
  unfold reach at h hle
  rw [abs_lt] at h
  unfold Holds
  split <;> constructor <;> linarith

/-- What does not lie in the interval is as far away as the interval reaches. -/
theorem Sound.reach_le_of_not_holds (hi : i.Sound) (h : ¬ i.Holds x) : i.reach ≤ |x - i.center| := by
  by_contra hlt
  exact h (hi.holds_of_near (not_le.1 hlt))

/-! ### Grids -/

theorem contains_gridPoint (i : Interval) (c step : Nat) {den : Nat} (hden : 0 < den) :
    i.contains (c * step) den = true ↔ i.Holds (c * (step / den : ℚ)) := by
  rw [contains_iff i (c * step) hden, ← mul_div_assoc]
  push_cast
  rfl

/-- Which neighbour of the centre is taken on a grid, and why not the other one. -/
theorem gridPoint?_cases {tie : Tie} {step den c : Nat}
    (h : i.gridPoint? tie step den = some c) :
    (c = i.center * den / step ∧ i.contains (i.center * den / step * step) den = true ∧
        (i.contains ((i.center * den / step + 1) * step) den = false ∨
          ¬ step < 2 * (i.center * den % step))) ∨
      c = i.center * den / step + 1 ∧
        i.contains ((i.center * den / step + 1) * step) den = true ∧
          (i.contains (i.center * den / step * step) den = false ∨
            ¬ 2 * (i.center * den % step) < step) := by
  unfold gridPoint? at h
  dsimp only at h
  generalize i.center * den / step = below at *
  generalize 2 * (i.center * den % step) = twice at *
  cases hlower : i.contains (below * step) den <;>
    cases hupper : i.contains ((below + 1) * step) den <;> rw [hlower, hupper] at h
  · cases h
  · cases h
    exact .inr ⟨rfl, rfl, .inl rfl⟩
  · cases h
    exact .inl ⟨rfl, rfl, .inl rfl⟩
  · have taken : (c = below ∧ ¬ step < twice) ∨ c = below + 1 ∧ ¬ twice < step := by
      dsimp only at h
      split at h
      · cases h
        exact .inl ⟨rfl, by omega⟩
      · split at h
        · cases h
          exact .inr ⟨rfl, by omega⟩
        · cases tie with
          | up =>
            cases h
            exact .inr ⟨rfl, by omega⟩
          | even =>
            cases h
            rcases Nat.mod_two_eq_zero_or_one below with hparity | hparity
            · exact .inl ⟨by omega, by omega⟩
            · exact .inr ⟨by omega, by omega⟩
    exact taken.imp (fun h => ⟨h.1, rfl, .inr h.2⟩) fun h => ⟨h.1, rfl, .inr h.2⟩

section Grid

variable {tie : Tie} {step den : Nat} (hstep : 0 < step) (hden : 0 < den)

include hstep hden

/-- The neighbours of the centre on a grid. -/
theorem between :
    (i.center * den / step : Nat) * (step / den : ℚ) ≤ i.center ∧
      (i.center : ℚ) < ((i.center * den / step : Nat) + 1) * (step / den : ℚ) := by
  have hden' : (0 : ℚ) < den := by exact_mod_cast hden
  have hlow : i.center * den / step * step ≤ i.center * den := Nat.div_mul_le_self _ _
  have hhigh : i.center * den < (i.center * den / step + 1) * step := by
    rw [← Nat.div_lt_iff_lt_mul hstep]
    exact Nat.lt_succ_self _
  rw [← mul_div_assoc, ← mul_div_assoc, div_le_iff₀ hden', lt_div_iff₀ hden']
  exact ⟨by exact_mod_cast hlow, by exact_mod_cast hhigh⟩

/-- A grid that is no coarser than the interval reaches down has a point in it. -/
theorem Sound.gridPoint?_ne_none (hi : i.Sound) (h : (step / den : ℚ) ≤ i.reach) :
    i.gridPoint? tie step den ≠ none := by
  obtain ⟨hlow, hhigh⟩ := between (i := i) hstep hden
  have hholds : i.contains (i.center * den / step * step) den = true := by
    rw [contains_gridPoint i _ step hden]
    refine hi.holds_of_near ?_
    rw [abs_lt]
    constructor <;> linarith
  unfold gridPoint?
  dsimp only
  rw [hholds]
  cases i.contains ((i.center * den / step + 1) * step) den with
  | false => exact Option.some_ne_none _
  | true =>
    dsimp only
    split
    · exact Option.some_ne_none _
    split
    · exact Option.some_ne_none _
    cases tie <;> exact Option.some_ne_none _

/-- Twice the distance from the lower neighbour, in parts of the step. -/
theorem twice_mod : (2 * (i.center * den % step : Nat) : ℚ) =
    2 * (i.center - (i.center * den / step : Nat) * (step / den : ℚ)) * den := by
  have hden' : (0 : ℚ) < den := by exact_mod_cast hden
  have hdiv : (step * (i.center * den / step : Nat) + (i.center * den % step : Nat) : ℚ) =
      i.center * den := by exact_mod_cast Nat.div_add_mod (i.center * den) step
  have hgrid : (i.center * den / step : Nat) * (step / den : ℚ) * den =
      step * (i.center * den / step : Nat) := by
    field_simp
  linear_combination 2 * hdiv + 2 * hgrid

theorem twice_lt_step : 2 * (i.center * den % step) < step ↔
    i.center - (i.center * den / step : Nat) * (step / den : ℚ) < step / den / 2 := by
  have hden' : (0 : ℚ) < den := by exact_mod_cast hden
  have hcast : 2 * (i.center * den % step) < step ↔
      (2 * (i.center * den % step : Nat) : ℚ) < step := by exact_mod_cast Iff.rfl
  have hstep' : (step : ℚ) = step / den * den := by field_simp
  rw [hcast, twice_mod hstep hden]
  nth_rewrite 2 [hstep']
  rw [mul_lt_mul_iff_left₀ hden']
  constructor <;> intro _ <;> linarith

theorem step_lt_twice : step < 2 * (i.center * den % step) ↔
    step / den / 2 < i.center - (i.center * den / step : Nat) * (step / den : ℚ) := by
  have hden' : (0 : ℚ) < den := by exact_mod_cast hden
  have hcast : step < 2 * (i.center * den % step) ↔
      (step : ℚ) < 2 * (i.center * den % step : Nat) := by exact_mod_cast Iff.rfl
  have hstep' : (step : ℚ) = step / den * den := by field_simp
  rw [hcast, twice_mod hstep hden]
  nth_rewrite 1 [hstep']
  rw [mul_lt_mul_iff_left₀ hden']
  constructor <;> intro _ <;> linarith

/-- A point that was taken lies in the interval, and it is half a step away at most unless the grid is
coarse. -/
theorem Sound.gridPoint?_spec (hi : i.Sound) {c : Nat} (h : i.gridPoint? tie step den = some c) :
    i.Holds (c * (step / den : ℚ)) ∧
      (|c * (step / den : ℚ) - i.center| ≤ step / den / 2 ∨ i.reach ≤ (step / den : ℚ)) := by
  obtain ⟨hlow, hhigh⟩ := between (i := i) hstep hden
  rcases gridPoint?_cases h with ⟨rfl, hlower, hother⟩ | ⟨rfl, hupper, hother⟩
  · have hholds := (contains_gridPoint i _ step hden).1 hlower
    refine ⟨hholds, hother.symm.imp (fun hnear => ?_) fun hupper => ?_⟩
    · rw [step_lt_twice hstep hden, not_lt] at hnear
      rw [abs_sub_comm, abs_of_nonneg (by linarith)]
      exact hnear
    · have hnot := mt (contains_gridPoint i _ step hden).2 (Bool.eq_false_iff.1 hupper)
      have hfar := hi.reach_le_of_not_holds hnot
      push_cast at hfar
      rw [abs_of_pos (by linarith)] at hfar
      linarith
  · have hholds := (contains_gridPoint i _ step hden).1 hupper
    refine ⟨hholds, hother.symm.imp (fun hnear => ?_) fun hlower => ?_⟩
    · rw [twice_lt_step hstep hden, not_lt] at hnear
      push_cast
      rw [abs_of_pos (by linarith)]
      linarith
    · have hnot := mt (contains_gridPoint i _ step hden).2 (Bool.eq_false_iff.1 hlower)
      have hfar := hi.reach_le_of_not_holds hnot
      rw [abs_of_nonpos (by linarith)] at hfar
      linarith

end Grid

/-! ### The search -/

/-- The step of the grid of a power of ten. -/
theorem ten_zpow (e : ℤ) (unit : Nat) :
    ((Nat.pow 10 e.toNat * unit : Nat) / (Nat.pow 10 (-e).toNat : Nat) : ℚ) = 10 ^ e * unit := by
  have hsplit : e = e.toNat - (-e).toNat := by omega
  have hpow : (10 : ℚ) ^ e = 10 ^ e.toNat / 10 ^ (-e).toNat := by
    conv_lhs => rw [hsplit]
    rw [zpow_sub₀ (by norm_num), zpow_natCast, zpow_natCast]
  rw [hpow]
  change ((10 ^ e.toNat * unit : Nat) / (10 ^ (-e).toNat : Nat) : ℚ) = _
  push_cast
  ring

theorem ten_zpow_le {e : ℤ} {unit bound : Nat}
    (h : 10 ^ e.toNat * unit ≤ bound * 10 ^ (-e).toNat) : (10 : ℚ) ^ e * unit ≤ bound := by
  have hden : (0 : ℚ) < (Nat.pow 10 (-e).toNat : Nat) := by
    exact_mod_cast Nat.pow_pos (n := (-e).toNat) (show 0 < 10 by decide)
  rw [← ten_zpow, div_le_iff₀ hden]
  exact_mod_cast h

theorem le_ten_zpow {e : ℤ} {unit bound : Nat}
    (h : bound * 10 ^ (-e).toNat ≤ 10 ^ e.toNat * unit) : (bound : ℚ) ≤ 10 ^ e * unit := by
  have hden : (0 : ℚ) < (Nat.pow 10 (-e).toNat : Nat) := by
    exact_mod_cast Nat.pow_pos (n := (-e).toNat) (show 0 < 10 by decide)
  rw [← ten_zpow, le_div_iff₀ hden]
  exact_mod_cast h

/-- What the search finds on a grid of some power of ten, the unit being that many parts of the
interval. -/
structure Found (i : Interval) (top : ℤ) (unit : Nat) (d : Decimal) : Prop where
  holds : i.Holds (d.coefficient * (10 ^ d.exponent * unit))
  inside : |d.coefficient * (10 ^ d.exponent * unit) - (i.center : ℚ)| ≤ 10 ^ d.exponent * unit / 2 ∨
    i.reach ≤ 10 ^ d.exponent * unit
  fine : d.exponent = top ∨ i.reach < 10 ^ (d.exponent + 1) * unit

/-- **The search finds something** when it gets to a grid that is no coarser than the interval reaches
down. -/
theorem Sound.found_shortest (hi : i.Sound) (tie : Tie) {unit : Nat} (hunit : 0 < unit)
    {grids : Nat} {top : ℤ} (h : ∃ n < grids, (10 : ℚ) ^ (top - n) * unit ≤ i.reach) :
    i.Found top unit (i.shortest tie unit grids top) := by
  induction grids generalizing top with
  | zero =>
    obtain ⟨n, hn, -⟩ := h
    exact absurd hn (Nat.not_lt_zero n)
  | succ grids ih =>
    have hstep : 0 < Nat.pow 10 top.toNat * unit :=
      Nat.mul_pos (Nat.pow_pos (by decide)) hunit
    have hden : 0 < Nat.pow 10 (-top).toNat := Nat.pow_pos (by decide)
    rw [shortest]
    cases hpoint : i.gridPoint? tie (Nat.pow 10 top.toNat * unit) (Nat.pow 10 (-top).toNat) with
    | some c =>
      have hspec := hi.gridPoint?_spec hstep hden hpoint
      rw [ten_zpow] at hspec
      exact ⟨hspec.1, hspec.2, .inl rfl⟩
    | none =>
      have hcoarse : i.reach < 10 ^ top * unit := by
        by_contra hle
        refine hi.gridPoint?_ne_none hstep hden ?_ hpoint
        rw [ten_zpow]
        exact not_lt.1 hle
      have hrest : ∃ n < grids, (10 : ℚ) ^ (top - 1 - n) * unit ≤ i.reach := by
        obtain ⟨n, hn, hle⟩ := h
        rcases n with _ | n
        · rw [Nat.cast_zero, sub_zero] at hle
          exact absurd hle (not_le.2 hcoarse)
        · refine ⟨n, Nat.lt_of_succ_lt_succ hn, ?_⟩
          rw [sub_sub, add_comm]
          exact_mod_cast hle
      obtain ⟨hholds, hinside, hfine⟩ := ih hrest
      refine ⟨hholds, hinside, .inr ?_⟩
      rcases hfine with heq | hlt
      · dsimp only
        rw [heq, sub_add_cancel]
        exact hcoarse
      · exact hlt

end Interval

/-! ### The numbers of a format -/

namespace Format

variable {f : Format} {b : Nat}

/-- The number rounds to the magnitude. -/
def Owns (f : Format) (b : Nat) (x : ℚ) : Prop := (f.interval b).Holds (x * (4 * 2 ^ f.scale))

/-- How far below its number a magnitude owns everything. -/
def reach (f : Format) (b : Nat) : ℚ := (f.interval b).reach / (4 * 2 ^ f.scale)

theorem round_of_owns {num den : Nat} (hden : 0 < den) (hb : b < f.infinity)
    (h : f.Owns b (num / den)) : f.round num den = b := by
  refine round_of_contains hden hb ?_
  rw [Interval.contains_iff _ _ hden, Nat.shiftLeft_eq]
  refine cast (congrArg _ ?_) h
  push_cast
  ring

theorem significand_pos (hb : 0 < b) : 0 < f.significand b := by
  obtain ⟨hcompose, -, hd⟩ := f.compose b
  have hP := Nat.two_pow_pos f.fractionBits
  rcases Nat.eq_zero_or_pos (f.significand b) with hs | hs
  · rw [hs] at hcompose hd
    have hzero : f.doublings b = 0 := hd.resolve_right (by omega)
    rw [hzero] at hcompose
    omega
  · exact hs

/-- The reach of an interval, in its quarters: half a unit of the last place, or half of that below a
power of two. -/
theorem interval_reach (hb : 0 < b) :
    (f.interval b).center = 4 * (f.significand b * 2 ^ f.doublings b) ∧
      (f.interval b).upper = (f.interval b).center + 2 * 2 ^ f.doublings b ∧
        ((f.interval b).lower + 2 * 2 ^ f.doublings b = (f.interval b).center ∨
          f.significand b = 2 ^ f.fractionBits ∧ 0 < f.doublings b ∧
            (f.interval b).lower + 2 ^ f.doublings b = (f.interval b).center) := by
  obtain ⟨hcompose, hs, hd⟩ := f.compose b
  have hpos := f.significand_pos hb
  have hpow : 2 ^ (f.fractionBits + 1) = 2 * 2 ^ f.fractionBits := by ring
  have hcenter : 4 * f.units b = 4 * (f.significand b * 2 ^ f.doublings b) := by
    unfold units
    rw [Nat.shiftLeft_eq]
  have hhalf : 2 <<< f.doublings b = 2 * 2 ^ f.doublings b := Nat.shiftLeft_eq _ _
  have hle : 2 ^ f.doublings b ≤ f.significand b * 2 ^ f.doublings b := Nat.le_mul_of_pos_left _ hpos
  unfold interval
  dsimp only
  rw [hcenter, hhalf]
  refine ⟨rfl, rfl, ?_⟩
  split
  · next hlowest =>
    rw [Nat.one_shiftLeft] at hlowest
    refine .inr ⟨?_, hlowest.2, by omega⟩
    have hP := hd.resolve_left (by omega)
    have hmod : f.significand b % 2 ^ f.fractionBits = 0 := by
      have h := hlowest.1
      rwa [← hcompose, Nat.mul_add_mod'] at h
    obtain ⟨r, hr⟩ := Nat.exists_eq_add_of_le hP
    rw [hr, Nat.add_mod_left, Nat.mod_eq_of_lt (by omega)] at hmod
    omega
  · exact .inl (by omega)

theorem interval_sound (hb : 0 < b) : (f.interval b).Sound := by
  obtain ⟨hcenter, hupper, hlower⟩ := f.interval_reach hb
  have hD := Nat.two_pow_pos (f.doublings b)
  constructor <;> omega

theorem interval_lower_pos (hb : 0 < b) : 0 < (f.interval b).lower := by
  obtain ⟨hcenter, -, hlower⟩ := f.interval_reach hb
  have hD := Nat.two_pow_pos (f.doublings b)
  have hle : 2 ^ f.doublings b ≤ f.significand b * 2 ^ f.doublings b :=
    Nat.le_mul_of_pos_left _ (f.significand_pos hb)
  omega

/-- The centre of the interval is the number, in quarters. -/
theorem interval_center (f : Format) (b : Nat) :
    ((f.interval b).center : ℚ) = f.value b * (4 * 2 ^ f.scale) := by
  change ((4 * f.units b : Nat) : ℚ) = f.units b / 2 ^ f.scale * (4 * 2 ^ f.scale)
  push_cast
  field_simp

/-- What is known of the shortest decimal of a positive finite number. -/
structure Shortest (f : Format) (b : Nat) (d : Decimal) : Prop where
  pos : 0 < d.coefficient
  owned : f.Owns b (d.coefficient * 10 ^ d.exponent)
  inside : |d.coefficient * 10 ^ d.exponent - f.value b| ≤ 10 ^ d.exponent / 2 ∨
    f.reach b ≤ 10 ^ d.exponent
  fine : f.reach b < 10 ^ (d.exponent + 1)

/-- **The shortest decimal of a number** is in its interval, and the grid on which it was found is the
first one with a point there, if the search begins above the interval and gets to a grid that is fine
enough. -/
theorem shortest_of_bounds (tie : Tie) (h0 : 0 < b)
    (htop : (f.interval b).upper < (10 : ℚ) ^ f.decimalBound b * (4 <<< f.scale : Nat))
    (hend : ∃ n < f.fractionBits + 8,
      (10 : ℚ) ^ (f.decimalBound b - n) * (4 <<< f.scale : Nat) ≤ (f.interval b).reach) :
    f.Shortest b (f.shortest tie b) := by
  have hscale : ((4 <<< f.scale : Nat) : ℚ) = 4 * 2 ^ f.scale := by
    rw [Nat.shiftLeft_eq]
    push_cast
    rfl
  have hunit : 0 < 4 <<< f.scale := by
    rw [Nat.shiftLeft_eq]
    exact Nat.mul_pos (by decide) (Nat.two_pow_pos _)
  have hquarter : (0 : ℚ) < 4 * 2 ^ f.scale := by positivity
  have hfound : (f.interval b).Found (f.decimalBound b) (4 <<< f.scale) (f.shortest tie b) :=
    (f.interval_sound h0).found_shortest tie hunit hend
  generalize f.shortest tie b = d at *
  obtain ⟨hholds, hinside, hfine⟩ := hfound
  rw [hscale] at htop hholds hinside hfine
  obtain ⟨hlower, hupper⟩ := hholds.bounds
  have hstep : 0 < (10 : ℚ) ^ d.exponent * (4 * 2 ^ f.scale) := by positivity
  have hpos : 0 < d.coefficient := by
    have hlower' : (0 : ℚ) < (f.interval b).lower := by exact_mod_cast interval_lower_pos h0
    refine Nat.pos_of_ne_zero fun hzero => ?_
    rw [hzero, Nat.cast_zero, zero_mul] at hlower
    exact absurd hlower' (not_lt.2 hlower)
  have hnotTop : d.exponent ≠ f.decimalBound b := by
    intro heq
    have hone : (1 : ℚ) ≤ d.coefficient := by exact_mod_cast hpos
    rw [← heq] at htop
    exact absurd (hupper.trans_lt htop) (not_lt.2 (le_mul_of_one_le_left hstep.le hone))
  refine ⟨hpos, ?_, hinside.imp (fun h => ?_) fun h => ?_, ?_⟩
  · unfold Owns
    rwa [mul_assoc]
  · rw [interval_center, ← mul_assoc, ← sub_mul, abs_mul, abs_of_pos hquarter,
      mul_div_right_comm] at h
    exact le_of_mul_le_mul_right h hquarter
  · unfold reach
    rwa [div_le_iff₀ hquarter]
  · unfold reach
    rw [div_lt_iff₀ hquarter]
    exact hfine.resolve_left hnotTop

/-! ### Single precision -/

/-- A single-precision number has no more than 253 doublings. -/
theorem doublings_single_le (hb : b < single.infinity) : single.doublings b ≤ 253 := by
  obtain ⟨hcompose, -, hd⟩ := single.compose b
  have hinfinity : single.infinity = 255 * 2 ^ 23 := by decide
  rw [hinfinity] at hb
  change single.doublings b * 2 ^ 23 + single.significand b = b at hcompose
  change single.doublings b = 0 ∨ 2 ^ 23 ≤ single.significand b at hd
  omega

/-- The length of a number in units, and how far its interval reaches. -/
theorem reach_single (h0 : 0 < b) (hb : b < single.infinity) :
    bitLength (single.units b) < 278 ∧
      (2 : ℚ) ^ (bitLength (single.units b) - 24) ≤ (single.interval b).reach ∧
        (single.interval b).upper < 2 ^ (bitLength (single.units b) + 3) := by
  obtain ⟨hcompose, hs, hd⟩ := single.compose b
  obtain ⟨hcenter, hupper, hlower⟩ := single.interval_reach h0
  have hdoublings := doublings_single_le hb
  have hpos := single.significand_pos h0
  have hunits : single.units b = single.significand b * 2 ^ single.doublings b := by
    unfold units
    rw [Nat.shiftLeft_eq]
  rw [← hunits] at hcenter
  change single.significand b < 2 ^ 24 at hs
  change single.doublings b = 0 ∨ 2 ^ 23 ≤ single.significand b at hd
  have hlt := lt_two_pow_bitLength (single.units b)
  have hle : 2 ^ single.doublings b ≤ single.units b := by
    rw [hunits]
    exact Nat.le_mul_of_pos_left _ hpos
  have hlength : bitLength (single.units b) ≤ 24 + single.doublings b := by
    refine bitLength_le ?_
    rw [hunits, Nat.pow_add]
    exact Nat.mul_lt_mul_of_pos_right hs (Nat.two_pow_pos _)
  generalize bitLength (single.units b) = length at *
  refine ⟨by omega, ?_, ?_⟩
  · have hshort : 2 ^ (length - 24) ≤ 2 ^ single.doublings b :=
      Nat.pow_le_pow_right (by decide) (by omega)
    have hreach : 2 ^ (length - 24) + (single.interval b).lower ≤ (single.interval b).center := by
      omega
    have hreach' : (2 ^ (length - 24) + (single.interval b).lower : ℚ) ≤
        (single.interval b).center := by exact_mod_cast hreach
    unfold Interval.reach
    linarith
  · rw [Nat.pow_add]
    omega

/-- The search begins above the number and ends on a grid that is fine enough. -/
theorem decimalBound_fits : ∀ length : Nat, length < 278 →
    let bound : ℤ := ((length : ℤ) - 149) * 30103 / 100000 + 2
    2 ^ (length + 3) * 10 ^ (-bound).toNat ≤ 10 ^ bound.toNat * 4 <<< 149 ∧
      10 ^ (bound - 30).toNat * 4 <<< 149 ≤ 2 ^ (length - 24) * 10 ^ (-(bound - 30)).toNat := by
  decide +kernel

/-- The search for the shortest decimal of a number begins above its interval and gets to a grid that
is fine enough. -/
theorem search_single (h0 : 0 < b) (hb : b < single.infinity) :
    (single.interval b).upper < (10 : ℚ) ^ single.decimalBound b * (4 <<< single.scale : Nat) ∧
      ∃ n < single.fractionBits + 8, (10 : ℚ) ^ (single.decimalBound b - n) *
        (4 <<< single.scale : Nat) ≤ (single.interval b).reach := by
  obtain ⟨hlength, hreach, hupper⟩ := reach_single h0 hb
  obtain ⟨htop, hend⟩ := decimalBound_fits _ hlength
  refine ⟨?_, 30, by decide, ?_⟩
  · refine lt_of_lt_of_le ?_ (Interval.le_ten_zpow htop)
    exact_mod_cast hupper
  · refine le_trans ?_ hreach
    refine le_trans (Interval.ten_zpow_le hend) ?_
    push_cast
    rfl

theorem shortest_single (tie : Tie) (h0 : 0 < b) (hb : b < single.infinity) :
    single.Shortest b (single.shortest tie b) := by
  obtain ⟨htop, hend⟩ := search_single h0 hb
  exact shortest_of_bounds tie h0 htop hend

end Format

end SpoolTag.Number
