import SpoolTag.Proofs.Json.Numbers
import SpoolTag.Proofs.Number.Shortest

/-! # Which digits of a number count

The digits of a number are gathered while they fit 64 bits, and those that do not fit are dropped. What is
gathered is the number as it is spelled, or it has 60 binary digits at least and differs from the number
by less than one unit of its last decimal place (`Numeral.gathered_near`). That holds as well where digits
before the point are dropped and later ones, after the point, are taken in their places. -/

namespace SpoolTag

open SpoolTag.Json

namespace Number.Numeral

/-- The number that the digits and the exponent of a numeral spell. -/
def size (n : Numeral) : ℚ :=
  Nat.ofDigitChars 10 (n.whole ++ n.fraction) 0 * 10 ^ (exponentValue n.exponent - n.fraction.length)

/-- The number that a numeral spells. -/
def value (n : Numeral) : ℚ := if n.negative then -n.size else n.size

/-- The digits that are gathered, with the power of ten that goes with them. -/
def gathered (n : Numeral) : Decimal :=
  let whole := Gathered.extend ⟨0, 0⟩ n.whole
  let all := whole.extend n.fraction
  ⟨all.total, (n.whole.length - whole.count : Nat) - (all.count - whole.count : Nat) +
    exponentValue n.exponent⟩

theorem size_nonneg (n : Numeral) : 0 ≤ n.size := by
  unfold size
  positivity

theorem abs_value (n : Numeral) : |n.value| = n.size := by
  unfold value
  split
  · rw [abs_neg, abs_of_nonneg n.size_nonneg]
  · exact abs_of_nonneg n.size_nonneg

end Number.Numeral

namespace Json

open SpoolTag.Number

/-! ### Digits -/

theorem digit_le {c : Char} (h : c.isDigit = true) : c.toNat - '0'.toNat ≤ 9 := by
  unfold Char.isDigit at h
  simp only [Bool.and_eq_true, decide_eq_true_eq] at h
  have h' : c.toNat ≤ 57 := h.2
  have h0 : '0'.toNat = 48 := rfl
  omega

/-- More digits make a number of that many places more, between two neighbours. -/
theorem ofDigitChars_bounds {digits : List Char} (h : ∀ c ∈ digits, c.isDigit = true) (start : Nat) :
    start * 10 ^ digits.length ≤ Nat.ofDigitChars 10 digits start ∧
      Nat.ofDigitChars 10 digits start < (start + 1) * 10 ^ digits.length := by
  induction digits generalizing start with
  | nil =>
    rw [Nat.ofDigitChars_nil, List.length_nil]
    omega
  | cons c rest ih =>
    have hc := digit_le (h c List.mem_cons_self)
    obtain ⟨hlow, hhigh⟩ := ih (fun c hc => h c (List.mem_cons_of_mem _ hc))
      (10 * start + (c.toNat - '0'.toNat))
    rw [Nat.ofDigitChars_cons, List.length_cons, pow_succ]
    generalize c.toNat - '0'.toNat = digit at *
    have hP := Nat.pow_pos (n := rest.length) (show 0 < 10 by decide)
    constructor
    · refine le_trans ?_ hlow
      nlinarith
    · refine hhigh.trans_le ?_
      nlinarith

/-- **Digits are gathered up to one that does not fit.** -/
theorem Gathered.exists_extend {digits : List Char} (h : ∀ c ∈ digits, c.isDigit = true)
    {g : Gathered} (hg : g.total < UInt64.size) :
    ∃ taken dropped, digits = taken ++ dropped ∧
      g.extend digits = ⟨Nat.ofDigitChars 10 taken g.total, g.count + taken.length⟩ ∧
        Nat.ofDigitChars 10 taken g.total < UInt64.size ∧
          (dropped ≠ [] → 2 ^ 60 ≤ Nat.ofDigitChars 10 taken g.total) := by
  induction digits generalizing g with
  | nil => exact ⟨[], [], rfl, rfl, hg, fun h => absurd rfl h⟩
  | cons c rest ih =>
    have hc := digit_le (h c List.mem_cons_self)
    unfold extend
    dsimp only
    split
    · next hfits =>
      obtain ⟨taken, dropped, hsplit, hextend, hsize, hlarge⟩ :=
        ih (fun c hc => h c (List.mem_cons_of_mem _ hc)) (g := ⟨_, g.count + 1⟩) hfits
      refine ⟨c :: taken, dropped, by rw [hsplit, List.cons_append], ?_, ?_, ?_⟩
      · rw [hextend, Nat.ofDigitChars_cons, Nat.mul_comm 10, List.length_cons]
        simp only [Gathered.mk.injEq, true_and]
        omega
      · rw [Nat.ofDigitChars_cons, Nat.mul_comm 10]
        exact hsize
      · rw [Nat.ofDigitChars_cons, Nat.mul_comm 10]
        exact hlarge
    · next hlarge =>
      refine ⟨[], c :: rest, rfl, rfl, hg, fun _ => ?_⟩
      have hlimit : UInt64.size = 2 ^ 64 := rfl
      rw [Nat.ofDigitChars_nil]
      omega

/-- Two numbers between the same neighbours on a grid far below them are near each other. -/
theorem near_of_between {start m a b : Nat} (hstart : 2 ^ 60 ≤ start)
    (ha : start * 10 ^ m ≤ a ∧ a < (start + 1) * 10 ^ m)
    (hb : start * 10 ^ m ≤ b ∧ b < (start + 1) * 10 ^ m) : |(a - b : ℚ)| ≤ b / 2 ^ 60 := by
  obtain ⟨hlow, hhigh⟩ := ha
  obtain ⟨hlow', hhigh'⟩ := hb
  have hlarge : 2 ^ 60 * 10 ^ m ≤ b := (Nat.mul_le_mul_right _ hstart).trans hlow'
  rw [Nat.add_mul, Nat.one_mul] at hhigh hhigh'
  have hbelow : a ≤ b + 10 ^ m := by omega
  have habove : b ≤ a + 10 ^ m := by omega
  have hbelow' : (a : ℚ) ≤ b + 10 ^ m := by exact_mod_cast hbelow
  have habove' : (b : ℚ) ≤ a + 10 ^ m := by exact_mod_cast habove
  have hlarge' : (2 ^ 60 * 10 ^ m : ℚ) ≤ b := by exact_mod_cast hlarge
  rw [le_div_iff₀ (by positivity)]
  have hdistance : |(a - b : ℚ)| ≤ 10 ^ m := by
    rw [abs_le]
    constructor <;> linarith
  linarith

/-- Digits that are cut off at the end, with or without others before the last ones that are left. -/
theorem cut_near {dropped taken' dropped' : List Char} {start : Nat}
    (hdigits : ∀ c ∈ dropped ++ (taken' ++ dropped'), c.isDigit = true)
    (hlarge : dropped ≠ [] → 2 ^ 60 ≤ start)
    (hlarge' : dropped' ≠ [] → 2 ^ 60 ≤ Nat.ofDigitChars 10 taken' start) :
    |((Nat.ofDigitChars 10 taken' start * 10 ^ (dropped.length + dropped'.length) : Nat) -
        Nat.ofDigitChars 10 (dropped ++ (taken' ++ dropped')) start : ℚ)| ≤
      Nat.ofDigitChars 10 (dropped ++ (taken' ++ dropped')) start / 2 ^ 60 := by
  rcases eq_or_ne dropped [] with rfl | hdropped
  · rw [List.nil_append] at hdigits ⊢
    rw [Nat.ofDigitChars_append, List.length_nil, Nat.zero_add]
    rcases eq_or_ne dropped' [] with rfl | hdropped'
    · rw [List.length_nil, Nat.pow_zero, Nat.mul_one, Nat.ofDigitChars_nil, sub_self, abs_zero]
      positivity
    · refine near_of_between (hlarge' hdropped') ⟨le_rfl, ?_⟩ (ofDigitChars_bounds
        (fun c hc => hdigits c (List.mem_append_right _ hc)) _)
      exact Nat.mul_lt_mul_of_pos_right (Nat.lt_succ_self _) (Nat.pow_pos (by decide))
  · obtain ⟨hlow, hhigh⟩ := ofDigitChars_bounds
      (fun c hc => hdigits c (List.mem_append_right _ (List.mem_append_left _ hc))) start
    have hplaces : 10 ^ (dropped ++ (taken' ++ dropped')).length =
        10 ^ taken'.length * 10 ^ (dropped.length + dropped'.length) := by
      rw [List.length_append, List.length_append, ← pow_add]
      congr 1
      omega
    refine near_of_between (hlarge hdropped) (m := (dropped ++ (taken' ++ dropped')).length) ?_
      (ofDigitChars_bounds hdigits _)
    rw [hplaces, ← Nat.mul_assoc, ← Nat.mul_assoc]
    exact ⟨Nat.mul_le_mul_right _ hlow, Nat.mul_lt_mul_of_pos_right hhigh (Nat.pow_pos (by decide))⟩

/-- **What is gathered is near the number that is spelled.** -/
theorem gathered_near {n : Numeral} (h : Spelled n) :
    n.gathered.coefficient < 2 ^ 64 ∧
      |n.gathered.coefficient * 10 ^ n.gathered.exponent - n.size| ≤ n.size / 2 ^ 60 := by
  obtain ⟨taken, dropped, hwhole, hextend, hsize, hlarge⟩ :=
    Gathered.exists_extend h.whole.2 (g := ⟨0, 0⟩) (by decide)
  obtain ⟨taken', dropped', hfraction, hextend', hsize', hlarge'⟩ :=
    Gathered.exists_extend h.fraction (g := ⟨Nat.ofDigitChars 10 taken 0, 0 + taken.length⟩) hsize
  have hunit : (0 : ℚ) < 10 ^ (exponentValue n.exponent - n.fraction.length) := by positivity
  have hgathered : n.gathered = ⟨Nat.ofDigitChars 10 taken' (Nat.ofDigitChars 10 taken 0),
      dropped.length - taken'.length + exponentValue n.exponent⟩ := by
    unfold Numeral.gathered
    dsimp only
    rw [hextend]
    dsimp only
    rw [hextend', hwhole, List.length_append]
    simp only [Decimal.mk.injEq, true_and]
    omega
  have hvalue : (n.gathered.coefficient * 10 ^ n.gathered.exponent : ℚ) =
      (Nat.ofDigitChars 10 taken' (Nat.ofDigitChars 10 taken 0) *
        10 ^ (dropped.length + dropped'.length) : Nat) *
          10 ^ (exponentValue n.exponent - n.fraction.length) := by
    rw [hgathered, hfraction, List.length_append]
    push_cast
    rw [mul_assoc, ← zpow_natCast, ← zpow_add₀ (by norm_num)]
    congr 2
    push_cast
    ring
  rw [hgathered] at hvalue ⊢
  refine ⟨hsize', ?_⟩
  rw [hvalue]
  unfold Numeral.size
  rw [← sub_mul, abs_mul, abs_of_pos hunit, mul_div_right_comm]
  refine mul_le_mul_of_nonneg_right ?_ hunit.le
  have hdigits : ∀ c ∈ dropped ++ (taken' ++ dropped'), c.isDigit = true := by
    intro c hc
    rcases List.mem_append.1 hc with hc | hc
    · exact h.whole.2 c (hwhole ▸ List.mem_append_right _ hc)
    · exact h.fraction c (hfraction ▸ hc)
  rw [hwhole, hfraction, List.append_assoc, Nat.ofDigitChars_append]
  exact cut_near hdigits hlarge hlarge'

/-! ### What is read -/

/-- A number without a point and an exponent. -/
def Bare (n : Numeral) : Prop := n.fraction = [] ∧ n.exponent = none

theorem Bare.size_eq {n : Numeral} (h : Bare n) : n.size = Nat.ofDigitChars 10 n.whole 0 := by
  unfold Numeral.size
  rw [h.1, h.2, List.append_nil, exponentValue, List.length_nil, Nat.cast_zero, sub_zero, zpow_zero,
    mul_one]

theorem Bare.value_eq {n : Numeral} (h : Bare n) :
    n.value = ((if n.negative then -(Nat.ofDigitChars 10 n.whole 0 : ℤ)
      else Nat.ofDigitChars 10 n.whole 0 : ℤ) : ℚ) := by
  unfold Numeral.value
  rw [h.size_eq]
  split <;> push_cast <;> rfl

/-- **A number is read as the integer that it is**, or it is what was gathered times the power of
ten. -/
theorem ofNumeral?_cases {n : Numeral} (h : Spelled n) :
    (∃ i, Number.ofNumeral? n = some (.integer i) ∧ Bare n ∧ i.natAbs < 2 ^ 64 ∧ n.value = i) ∨
      Number.ofNumeral? n = (scaled? n.gathered.coefficient n.gathered.exponent).map
        (.float n.negative) := by
  unfold Number.ofNumeral?
  dsimp only
  by_cases hinteger : n.fraction = [] ∧ n.exponent = none ∧
      (Gathered.extend ⟨0, 0⟩ n.whole).count = n.whole.length ∧
        if n.negative then 0 < (Gathered.extend ⟨0, 0⟩ n.whole).total ∧
          2 * (Gathered.extend ⟨0, 0⟩ n.whole).total ≤ UInt64.size else True
  · rw [if_pos hinteger]
    obtain ⟨hfraction, hexponent, hcount, -⟩ := hinteger
    obtain ⟨taken, dropped, hwhole, hextend, hsize, -⟩ :=
      Gathered.exists_extend h.whole.2 (g := ⟨0, 0⟩) (by decide)
    rw [hextend] at hcount ⊢
    dsimp only at hcount
    obtain rfl : dropped = [] := by
      rw [hwhole, List.length_append] at hcount
      exact List.length_eq_zero_iff.1 (by omega)
    rw [List.append_nil] at hwhole
    have hbare : Bare n := ⟨hfraction, hexponent⟩
    have hlimit : UInt64.size = 2 ^ 64 := rfl
    refine .inl ⟨_, rfl, hbare, ?_, ?_⟩
    · dsimp only at hsize ⊢
      split <;> omega
    · rw [hbare.value_eq, hwhole]
  · rw [if_neg hinteger]
    exact .inr rfl

/-- A small integer is read as itself, unless it is a zero with a sign. -/
theorem Bare.ofNumeral?_of_signed {n : Numeral} (h : Bare n) {i : Int} (hvalue : n.value = i)
    (hi : i.natAbs < 2 ^ 63) (hsign : n.negative = true → i ≠ 0) :
    Number.ofNumeral? n = some (.integer i) := by
  have hi' : i = if n.negative then -(Nat.ofDigitChars 10 n.whole 0 : ℤ)
      else Nat.ofDigitChars 10 n.whole 0 := by
    rw [h.value_eq] at hvalue
    exact_mod_cast hvalue.symm
  have hsmall : Nat.ofDigitChars 10 n.whole 0 < 2 ^ 63 := by
    split at hi' <;> omega
  have hlimit : UInt64.size = 2 ^ 64 := rfl
  have hextend : Gathered.extend ⟨0, 0⟩ n.whole = ⟨_, 0 + n.whole.length⟩ :=
    Gathered.extend_eq (by dsimp only; omega)
  have hbounds : if n.negative then 0 < Nat.ofDigitChars 10 n.whole 0 ∧
      2 * Nat.ofDigitChars 10 n.whole 0 ≤ UInt64.size else True := by
    split
    · next hnegative =>
      have hne := hsign hnegative
      rw [if_pos hnegative] at hi'
      omega
    · trivial
  unfold Number.ofNumeral?
  dsimp only
  rw [hextend, if_pos ⟨h.1, h.2, Nat.zero_add _, hbounds⟩, hi']

theorem Bare.ofNumeral? {n : Numeral} (h : Bare n) {i : Int} (hvalue : n.value = i)
    (hi : i.natAbs < 2 ^ 63) : Number.ofNumeral? n = some (.integer i) ∨ i = 0 :=
  or_iff_not_imp_right.2 fun hne => h.ofNumeral?_of_signed hvalue hi fun _ => hne

/-- What is read as zero has no sign. -/
theorem negative_of_ofNumeral?_zero {n : Numeral} (h : Number.ofNumeral? n = some (.integer 0)) :
    n.negative = false := by
  rw [← Bool.not_eq_true]
  intro hnegative
  unfold Number.ofNumeral? at h
  simp only [hnegative, if_true] at h
  split at h
  · next hinteger =>
    have hpositive := hinteger.2.2.2.1
    have hzero := Number.integer.inj (Option.some.inj h)
    omega
  · obtain ⟨_, -, ⟨⟩⟩ := Option.map_eq_some_iff.1 h

end Json

end SpoolTag
