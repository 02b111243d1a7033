import Mathlib.Tactic.Linarith
import Mathlib.Tactic.LinearCombination
import Mathlib.Tactic.Positivity
import Mathlib.Tactic.Ring

/-! # Fractions on both sides of a ratio

Two fractions with determinant one enclose a ratio (`Bracket.Encloses`). A fraction whose denominator
is smaller than the sum of theirs is a multiple of one of them, or it misses the ratio by as much as
both of them together (`Encloses.near`). So the fractions that come very close to a ratio can be
listed: they are multiples of the ends of a bracket that is narrow enough. `Bracket.search` narrows
one, end by end, as the algorithm of Euclid does. -/

namespace SpoolTag.Number

/-- A lower fraction `p / q` and an upper one `r / s`. -/
structure Bracket where
  p : Nat
  q : Nat
  r : Nat
  s : Nat
  deriving DecidableEq, Repr

namespace Bracket

/-- The ratio `a / b` lies between the fractions, which are as close as fractions can be. -/
structure Encloses (x : Bracket) (a b : Nat) : Prop where
  det : x.r * x.q = x.p * x.s + 1
  lower : x.p * b ≤ x.q * a
  upper : x.s * a ≤ x.r * b

section Near

variable {x : Bracket} {a b : Nat}

/-- By how much the lower fraction falls short, with both denominators multiplied out. -/
def below (x : Bracket) (a b : Nat) : Nat := x.q * a - x.p * b

/-- By how much the upper fraction is too large. -/
def above (x : Bracket) (a b : Nat) : Nat := x.r * b - x.s * a

theorem Encloses.cast_below (h : x.Encloses a b) : (x.below a b : ℤ) = x.q * a - x.p * b := by
  unfold below
  push_cast [h.lower]
  ring

theorem Encloses.cast_above (h : x.Encloses a b) : (x.above a b : ℤ) = x.r * b - x.s * a := by
  unfold above
  push_cast [h.upper]
  ring

/-- A fraction has whole coordinates in the lattice that the ends span, and they say by how much it
misses the ratio. -/
theorem Encloses.exists_coordinates (h : x.Encloses a b) (c m : Nat) :
    ∃ u v : ℤ, (c : ℤ) = u * x.q + v * x.s ∧ (m : ℤ) = u * x.p + v * x.r ∧
      (c * a - m * b : ℤ) = u * x.below a b - v * x.above a b := by
  have hdet : (x.r * x.q : ℤ) = x.p * x.s + 1 := by exact_mod_cast h.det
  have hc : (c : ℤ) = (c * x.r - m * x.s) * x.q + (m * x.q - c * x.p) * x.s := by
    linear_combination (-c : ℤ) * hdet
  have hm : (m : ℤ) = (c * x.r - m * x.s) * x.p + (m * x.q - c * x.p) * x.r := by
    linear_combination (-m : ℤ) * hdet
  refine ⟨_, _, hc, hm, ?_⟩
  rw [h.cast_below, h.cast_above]
  linear_combination (a : ℤ) * hc - (b : ℤ) * hm

/-- **What comes close to a ratio**: a fraction with a small denominator is a multiple of one end of
the bracket, or no closer than both ends together. -/
theorem Encloses.near (h : x.Encloses a b) {c m : Nat} (hc : 0 < c) (hsmall : c < x.q + x.s) :
    (∃ k, c = k * x.q ∧ m = k * x.p) ∨ (∃ k, c = k * x.s ∧ m = k * x.r) ∨
      (x.below a b + x.above a b : ℤ) ≤ |(c * a - m * b : ℤ)| := by
  obtain ⟨u, v, hcuv, hmuv, hmiss⟩ := h.exists_coordinates c m
  have hq : (0 : ℤ) ≤ x.q := Int.natCast_nonneg _
  have hs : (0 : ℤ) ≤ x.s := Int.natCast_nonneg _
  have hb : (0 : ℤ) ≤ x.below a b := Int.natCast_nonneg _
  have ha : (0 : ℤ) ≤ x.above a b := Int.natCast_nonneg _
  have hc' : (0 : ℤ) < c := by exact_mod_cast hc
  have hsmall' : (c : ℤ) < x.q + x.s := by exact_mod_cast hsmall
  have atLeast {k y : ℤ} (hy : 0 ≤ y) (hk : 0 < k) : y ≤ k * y := le_mul_of_one_le_left hy hk
  have atMost {k y : ℤ} (hy : 0 ≤ y) (hk : k < 0) : k * y ≤ -y := by
    have := mul_le_mul_of_nonneg_right (show k ≤ -1 by omega) hy
    linarith
  -- on a ray the fraction is a multiple of an end; coordinates of one sign make the denominator too
  -- large, and those of different signs add up the misses of both ends
  rcases lt_trichotomy v 0 with hneg | rfl | hpos
  · have hupos : 0 < u := by
      by_contra hle
      have := mul_nonpos_of_nonpos_of_nonneg (not_lt.1 hle) hq
      have := atMost hs hneg
      linarith
    have h1 := atLeast hb hupos
    have h2 := atMost ha hneg
    refine .inr (.inr ?_)
    rw [hmiss, abs_of_nonneg (by linarith)]
    linarith
  · rw [zero_mul, add_zero] at hcuv hmuv
    have hupos : 0 ≤ u := by
      by_contra hlt
      have := atMost hq (not_le.1 hlt)
      linarith
    obtain ⟨k, rfl⟩ := Int.eq_ofNat_of_zero_le hupos
    exact .inl ⟨k, by exact_mod_cast hcuv, by exact_mod_cast hmuv⟩
  · rcases lt_trichotomy u 0 with huneg | rfl | hupos
    · have h1 := atMost hb huneg
      have h2 := atLeast ha hpos
      refine .inr (.inr ?_)
      rw [hmiss, abs_of_nonpos (by linarith)]
      linarith
    · rw [zero_mul, zero_add] at hcuv hmuv
      obtain ⟨k, rfl⟩ := Int.eq_ofNat_of_zero_le hpos.le
      exact .inr (.inl ⟨k, by exact_mod_cast hcuv, by exact_mod_cast hmuv⟩)
    · have h1 := atLeast hq hupos
      have h2 := atLeast hs hpos
      linarith

/-- The denominators whose multiples may come closer to the ratio than one part in `parts`, without
meeting it. -/
def suspects (x : Bracket) (a b parts : Nat) : List Nat :=
  (if 0 < x.below a b ∧ x.below a b * parts ≤ x.q * a then [x.q] else []) ++
    if 0 < x.above a b ∧ x.above a b * parts ≤ x.s * a then [x.s] else []

/-- A multiple of an end misses by a multiple of what the end does; so where it is close without
meeting the ratio, the end is. -/
theorem end_of_multiple {parts c m k y n : Nat} (hk : 0 < k) (hmiss : c * a ≠ m * b)
    (hclose : |(c * a - m * b : ℤ)| * parts ≤ c * a) (hy : |(c * a - m * b : ℤ)| = k * y)
    (hn : c = k * n) : 0 < y ∧ y * parts ≤ n * a := by
  constructor
  · refine Nat.pos_of_ne_zero fun hzero => hmiss ?_
    rw [hzero, Nat.cast_zero, mul_zero, abs_eq_zero] at hy
    have hsame : (c * a : ℤ) = m * b := by linarith
    exact_mod_cast hsame
  · rw [hy, hn] at hclose
    have hclose' : k * y * parts ≤ k * n * a := by exact_mod_cast hclose
    rw [Nat.mul_assoc, Nat.mul_assoc] at hclose'
    exact Nat.le_of_mul_le_mul_left hclose' hk

/-- **Whatever comes that close is a suspect's multiple**, if the bracket is narrow enough for the
limit. -/
theorem Encloses.exists_suspect (h : x.Encloses a b) {parts limit c m : Nat}
    (hlimit : limit < x.q + x.s)
    (hwide : limit * a < (x.below a b + x.above a b) * parts) (hc : 0 < c) (hcl : c ≤ limit)
    (hmiss : c * a ≠ m * b) (hclose : |(c * a - m * b : ℤ)| * parts ≤ c * a) :
    ∃ d ∈ x.suspects a b parts, ∃ k, c = k * d := by
  unfold suspects
  rcases h.near (m := m) hc (lt_of_le_of_lt hcl hlimit) with ⟨k, hck, hmk⟩ | ⟨k, hck, hmk⟩ | hfar
  · have hk : 0 < k := Nat.pos_of_mul_pos_right (hck ▸ hc)
    have hsame : (c * a - m * b : ℤ) = k * x.below a b := by
      rw [h.cast_below, hck, hmk]
      push_cast
      ring
    have hy : |(c * a - m * b : ℤ)| = k * x.below a b := by
      rw [hsame]
      exact abs_of_nonneg (by positivity)
    refine ⟨x.q, ?_, k, hck⟩
    rw [if_pos (end_of_multiple hk hmiss hclose hy hck)]
    exact List.mem_append_left _ List.mem_cons_self
  · have hk : 0 < k := Nat.pos_of_mul_pos_right (hck ▸ hc)
    have hsame : (c * a - m * b : ℤ) = -(k * x.above a b) := by
      rw [h.cast_above, hck, hmk]
      push_cast
      ring
    have hy : |(c * a - m * b : ℤ)| = k * x.above a b := by
      rw [hsame, abs_neg]
      exact abs_of_nonneg (by positivity)
    refine ⟨x.s, ?_, k, hck⟩
    rw [if_pos (end_of_multiple hk hmiss hclose hy hck)]
    exact List.mem_append_right _ List.mem_cons_self
  · have hparts : (0 : ℤ) ≤ parts := Int.natCast_nonneg _
    have hle := mul_le_mul_of_nonneg_right hfar hparts
    have hwide' : (limit * a : ℤ) < (x.below a b + x.above a b) * parts := by exact_mod_cast hwide
    have hca : (c * a : ℤ) ≤ limit * a := by exact_mod_cast Nat.mul_le_mul_right a hcl
    linarith

end Near

/-! ### Narrowing -/

section Search

variable (a b limit : Nat)

/-- How many steps by a denominator lead past the limit. -/
def room (x : Bracket) (step : Nat) : Nat := (limit - (x.q + x.s)) / step + 1

/-- Moves the lower end towards the ratio. -/
def raise (x : Bracket) : Bracket :=
  let k := if x.above a b = 0 then x.room limit x.s
    else min (x.below a b / x.above a b) (x.room limit x.s)
  { x with p := x.p + k * x.r, q := x.q + k * x.s }

/-- Moves the upper end towards the ratio. -/
def sink (x : Bracket) : Bracket :=
  let k := if x.below a b = 0 then x.room limit x.q
    else min (x.above a b / x.below a b) (x.room limit x.q)
  { x with r := x.r + k * x.p, s := x.s + k * x.q }

/-- Moves the ends in turn until the denominators add up to more than the limit. -/
def search : Nat → Bool → Bracket → Bracket
  | 0, _, x => x
  | fuel + 1, low, x =>
    if limit < x.q + x.s then x
    else search fuel (!low) (if low then x.raise a b limit else x.sink a b limit)

/-- The bracket of everything. -/
def start : Bracket := ⟨0, 1, 1, 0⟩

variable {a b limit} {x : Bracket}

theorem encloses_start : start.Encloses a b := ⟨rfl, by simp [start], by simp [start]⟩

/-- An end moves no further than the other one allows. -/
theorem steps_mul_le (far step room : Nat) :
    (if step = 0 then room else min (far / step) room) * step ≤ far := by
  split
  · next hzero =>
    rw [hzero, Nat.mul_zero]
    exact Nat.zero_le _
  · exact (Nat.mul_le_mul_right _ (Nat.min_le_left _ _)).trans (Nat.div_mul_le_self _ _)

theorem Encloses.raise (h : x.Encloses a b) : (x.raise a b limit).Encloses a b := by
  obtain ⟨hdet, hlower, hupper⟩ := h
  unfold Bracket.raise
  have hle := steps_mul_le (x.below a b) (x.above a b) (x.room limit x.s)
  generalize (if x.above a b = 0 then x.room limit x.s
    else min (x.below a b / x.above a b) (x.room limit x.s)) = k at *
  unfold above below at hle
  rw [Nat.mul_sub] at hle
  refine ⟨?_, ?_, hupper⟩
  · dsimp only
    rw [Nat.mul_add, Nat.add_mul, hdet]
    ring
  · dsimp only
    rw [Nat.add_mul, Nat.add_mul, Nat.mul_assoc, Nat.mul_assoc]
    have := Nat.mul_le_mul_left k hupper
    omega

theorem Encloses.sink (h : x.Encloses a b) : (x.sink a b limit).Encloses a b := by
  obtain ⟨hdet, hlower, hupper⟩ := h
  unfold Bracket.sink
  have hle := steps_mul_le (x.above a b) (x.below a b) (x.room limit x.q)
  generalize (if x.below a b = 0 then x.room limit x.q
    else min (x.above a b / x.below a b) (x.room limit x.q)) = k at *
  unfold above below at hle
  rw [Nat.mul_sub] at hle
  refine ⟨?_, hlower, ?_⟩
  · dsimp only
    rw [Nat.add_mul, Nat.mul_add, hdet]
    ring
  · dsimp only
    rw [Nat.add_mul, Nat.add_mul, Nat.mul_assoc, Nat.mul_assoc]
    have := Nat.mul_le_mul_left k hlower
    omega

theorem Encloses.search (fuel : Nat) (low : Bool) (h : x.Encloses a b) :
    (search a b limit fuel low x).Encloses a b := by
  induction fuel generalizing low x with
  | zero => exact h
  | succ fuel ih =>
    unfold Bracket.search
    split
    · exact h
    · cases low with
      | true => exact ih _ h.raise
      | false => exact ih _ h.sink

end Search

end Bracket

end SpoolTag.Number
