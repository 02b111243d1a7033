import Mathlib.Algebra.Group.Nat.Defs
import Mathlib.Data.List.Basic
import SpoolTag.Json.Number
import SpoolTag.Proofs.Json.Scalars

/-! # Numbers that were written are read

An integer of 63 bits is read as itself (`ofNumeral?_ofInt`). A decimal is spelled in one of two ways,
and both are read alike: its coefficient, perhaps with zeros up to the point, is multiplied or divided
by a power of ten (`spells_decimal`, `Spells.ofNumeral?`). -/

namespace SpoolTag.Json

open SpoolTag.Number

/-! ### Digits -/

theorem digits_toDigits (n : Nat) : Digits (Nat.toDigits 10 n) :=
  ⟨Nat.toDigits_ne_nil, fun _ h => Nat.isDigit_of_mem_toDigits (by decide) (by decide) h⟩

/-- A positive number has no zero in front. -/
theorem head_toDigits {n : Nat} (h : 0 < n) : (Nat.toDigits 10 n).head? ≠ some '0' := by
  induction n using Nat.strong_induction_on with
  | _ n ih =>
    rw [Nat.toDigits_eq_if (by decide)]
    split
    · rw [List.head?_cons]
      intro hzero
      exact absurd (Nat.digitChar_eq_zero.1 (Option.some.inj hzero)) (by omega)
    · rw [List.head?_append_of_ne_nil _ Nat.toDigits_ne_nil]
      exact ih (n / 10) (by omega) (by omega)

theorem le_ofDigitChars (digits : List Char) (n : Nat) : n ≤ Nat.ofDigitChars 10 digits n := by
  rw [Nat.ofDigitChars_eq_ofDigitChars_zero]
  have := Nat.le_mul_of_pos_left n (Nat.pow_pos (n := digits.length) (show 0 < 10 by decide))
  omega

theorem Gathered.extend_eq {g : Gathered} {digits : List Char}
    (h : Nat.ofDigitChars 10 digits g.total < UInt64.size) :
    g.extend digits = ⟨Nat.ofDigitChars 10 digits g.total, g.count + digits.length⟩ := by
  induction digits generalizing g with
  | nil => rfl
  | cons c rest ih =>
    rw [Nat.ofDigitChars_cons, Nat.mul_comm] at h ⊢
    have hfits : g.total * 10 + (c.toNat - '0'.toNat) < UInt64.size :=
      lt_of_le_of_lt (le_ofDigitChars rest _) h
    unfold extend
    dsimp only
    rw [if_pos hfits, ih h, List.length_cons]
    simp only [Gathered.mk.injEq, true_and]
    omega

/-! ### Integers -/

theorem spelled_ofInt (i : Int) : Spelled (.ofInt i) where
  whole := digits_toDigits _
  bare h := by
    rcases Nat.eq_zero_or_pos i.natAbs with hzero | hpos
    · change (Nat.toDigits 10 i.natAbs).length = 1
      rw [hzero]
      rfl
    · exact absurd h (head_toDigits hpos)
  fraction _ h := nomatch h
  exponent _ h := nomatch h

/-- **An integer is read back.** -/
theorem ofNumeral?_ofInt {i : Int} (h : i.natAbs < 2 ^ 63) :
    Number.ofNumeral? (.ofInt i) = some (.integer i) := by
  have hvalue : Nat.ofDigitChars 10 (Nat.toDigits 10 i.natAbs) 0 = i.natAbs :=
    Nat.ofDigitChars_ten_toDigits
  have hsize : UInt64.size = 2 * 2 ^ 63 := by decide
  have hwhole : Gathered.extend ⟨0, 0⟩ (Nat.toDigits 10 i.natAbs) =
      ⟨i.natAbs, (Nat.toDigits 10 i.natAbs).length⟩ := by
    rw [Gathered.extend_eq (by rw [hvalue]; omega)]
    simp only [hvalue, Nat.zero_add]
  unfold Number.ofNumeral? Numeral.ofInt
  dsimp only
  rw [hwhole]
  by_cases hneg : i < 0
  · have hrange : 0 < i.natAbs ∧ 2 * i.natAbs ≤ UInt64.size := by omega
    have hback : -(i.natAbs : ℤ) = i := by omega
    simp only [hneg, hrange, hback, decide_true, if_true, and_self]
  · have hback : (i.natAbs : ℤ) = i := by omega
    simp only [hneg, hback, decide_false, Bool.false_eq_true, if_false, and_self, if_true]

/-! ### Numbers with a point or an exponent -/

/-- The magnitude as which a whole number times a power of ten is read. -/
def scaled? (total : Nat) (exponent : Int) : Option Nat :=
  scale? 4 (Format.double.round total 1) exponent

/-- A numeral with a point or an exponent is its digits without the point, times a power of ten. -/
theorem ofNumeral?_pointed {n : Numeral} (h : n.fraction ≠ [] ∨ n.exponent ≠ none)
    (hfits : Nat.ofDigitChars 10 (n.whole ++ n.fraction) 0 < UInt64.size) :
    Number.ofNumeral? n = (scaled? (Nat.ofDigitChars 10 (n.whole ++ n.fraction) 0)
      (exponentValue n.exponent - n.fraction.length)).map (.float n.negative) := by
  rw [Nat.ofDigitChars_append] at hfits ⊢
  have hwhole : Gathered.extend ⟨0, 0⟩ n.whole =
      ⟨Nat.ofDigitChars 10 n.whole 0, 0 + n.whole.length⟩ :=
    Gathered.extend_eq (lt_of_le_of_lt (le_ofDigitChars _ _) hfits)
  have hall : Gathered.extend ⟨Nat.ofDigitChars 10 n.whole 0, 0 + n.whole.length⟩ n.fraction = _ :=
    Gathered.extend_eq hfits
  unfold Number.ofNumeral?
  dsimp only
  rw [hwhole, hall, if_neg (by tauto)]
  unfold scaled?
  dsimp only
  congr 2
  omega

/-- The numeral spells the decimal: its digits without the point make up the coefficient. -/
structure Spells (n : Numeral) (d : Decimal) : Prop where
  spelled : Spelled n
  pointed : n.fraction ≠ [] ∨ n.exponent ≠ none
  coefficient : Nat.ofDigitChars 10 (n.whole ++ n.fraction) 0 = d.coefficient
  exponent : exponentValue n.exponent - n.fraction.length = d.exponent

theorem Spells.ofNumeral? {n : Numeral} {d : Decimal} (h : Spells n d)
    (hfits : d.coefficient < UInt64.size) :
    Number.ofNumeral? n = (scaled? d.coefficient d.exponent).map (.float n.negative) := by
  rw [← h.coefficient, ← h.exponent] at *
  exact ofNumeral?_pointed h.pointed hfits

theorem Spells.withSign {n : Numeral} {d : Decimal} (h : Spells n d) (negative : Bool) :
    Spells { n with negative } d :=
  ⟨⟨h.spelled.whole, h.spelled.bare, h.spelled.fraction, h.spelled.exponent⟩, h.pointed,
    h.coefficient, h.exponent⟩

theorem exponentValue_toDigits (i : Int) :
    exponentValue (some ⟨i < 0, Nat.toDigits 10 i.natAbs⟩) = i := by
  unfold exponentValue
  dsimp only
  rw [Nat.ofDigitChars_ten_toDigits]
  by_cases hneg : i < 0
  · rw [decide_eq_true hneg, if_pos rfl]
    omega
  · rw [decide_eq_false hneg, if_neg Bool.false_ne_true]
    omega

/-- A whole number that is written with a fraction gets a zero behind the point. -/
def padded (d : Decimal) : Decimal :=
  if 0 ≤ d.exponent then ⟨d.coefficient * 10 ^ (d.exponent.toNat + 1), -1⟩ else d

section Decimal

variable {d : Decimal}

theorem digits_decimal (d : Decimal) : Digits d.digits := digits_toDigits _

theorem ofDigitChars_digits (d : Decimal) : Nat.ofDigitChars 10 d.digits 0 = d.coefficient :=
  Nat.ofDigitChars_ten_toDigits

theorem spells_scientific (hd : 0 < d.coefficient) : Spells d.scientific d := by
  obtain ⟨hne, hdigits⟩ := digits_decimal d
  have hhead : d.digits.head? ≠ some '0' := head_toDigits hd
  have hlength := List.length_pos_iff.2 hne
  refine ⟨⟨⟨?_, ?_⟩, ?_, ?_, ?_⟩, .inr (Option.some_ne_none _), ?_, ?_⟩
  · simp [Decimal.scientific, hne]
  · exact fun c hc => hdigits c (List.mem_of_mem_take hc)
  · intro h
    refine absurd ?_ hhead
    rwa [Decimal.scientific, List.head?_take, if_neg (by decide)] at h
  · exact fun c hc => hdigits c (List.mem_of_mem_drop hc)
  · rintro e ⟨⟩
    exact digits_toDigits _
  · rw [← ofDigitChars_digits d]
    exact congrArg (Nat.ofDigitChars 10 · 0) (List.take_append_drop 1 d.digits)
  · unfold Decimal.scientific
    dsimp only
    rw [exponentValue_toDigits, List.length_drop, Decimal.leading]
    omega

theorem isDigit_of_mem_replicate {n : Nat} {c : Char} (h : c ∈ List.replicate n '0') :
    c.isDigit = true := by
  rw [List.eq_of_mem_replicate h]
  rfl

/-- A whole number: zeros up to the point, and one behind it. -/
theorem spells_whole (hd : 0 < d.coefficient) (zeros : Nat) :
    Spells { whole := d.digits ++ List.replicate zeros '0', fraction := ['0'] }
      ⟨d.coefficient * 10 ^ (zeros + 1), -1⟩ := by
  obtain ⟨hne, hdigits⟩ := digits_decimal d
  refine ⟨⟨⟨?_, ?_⟩, ?_, ?_, fun _ h => nomatch h⟩, .inl (List.cons_ne_nil _ _), ?_, rfl⟩
  · simp [hne]
  · intro c hc
    rcases List.mem_append.1 hc with h | h
    · exact hdigits c h
    · exact isDigit_of_mem_replicate h
  · intro h
    dsimp only at h
    rw [List.head?_append_of_ne_nil _ hne] at h
    exact absurd h (head_toDigits hd)
  · rintro c (_ | ⟨_, ⟨⟩⟩)
    rfl
  · dsimp only
    rw [Nat.ofDigitChars_append, Nat.ofDigitChars_append, ofDigitChars_digits,
      Nat.ofDigitChars_replicate_zero, Nat.ofDigitChars_cons]
    change 10 * _ + 0 = _
    rw [Nat.add_zero, Nat.pow_succ, Nat.mul_comm d.coefficient, Nat.mul_right_comm, Nat.mul_comm 10]

/-- A point among the digits. -/
theorem spells_split (hd : 0 < d.coefficient) {places : Nat} (hpos : 0 < places)
    (hlt : places < d.digits.length) :
    Spells { whole := d.digits.take (d.digits.length - places)
             fraction := d.digits.drop (d.digits.length - places) } ⟨d.coefficient, -places⟩ := by
  obtain ⟨-, hdigits⟩ := digits_decimal d
  refine ⟨⟨⟨?_, fun c hc => hdigits c (List.mem_of_mem_take hc)⟩, ?_,
    fun c hc => hdigits c (List.mem_of_mem_drop hc), fun _ h => nomatch h⟩, .inl ?_, ?_, ?_⟩
  · refine List.ne_nil_of_length_pos ?_
    dsimp only
    rw [List.length_take]
    omega
  · intro h
    refine absurd ?_ (head_toDigits hd)
    rwa [List.head?_take, if_neg (by omega)] at h
  · refine List.ne_nil_of_length_pos ?_
    dsimp only
    rw [List.length_drop]
    omega
  · dsimp only
    rw [List.take_append_drop, ofDigitChars_digits]
  · dsimp only [exponentValue]
    rw [List.length_drop]
    omega

/-- A number below one: zeros behind the point before the first digit. -/
theorem spells_small (d : Decimal) {places : Nat} (hle : d.digits.length ≤ places) :
    Spells { whole := ['0']
             fraction := List.replicate (places - d.digits.length) '0' ++ d.digits }
      ⟨d.coefficient, -places⟩ := by
  obtain ⟨hne, hdigits⟩ := digits_decimal d
  refine ⟨⟨⟨List.cons_ne_nil _ _, ?_⟩, fun _ => rfl, ?_, fun _ h => nomatch h⟩, .inl ?_, ?_, ?_⟩
  · rintro c (_ | ⟨_, ⟨⟩⟩)
    rfl
  · intro c hc
    rcases List.mem_append.1 hc with h | h
    · exact isDigit_of_mem_replicate h
    · exact hdigits c h
  · simp [hne]
  · dsimp only
    rw [Nat.ofDigitChars_append, Nat.ofDigitChars_append, Nat.ofDigitChars_replicate_zero]
    change Nat.ofDigitChars 10 d.digits (_ * 0) = _
    rw [Nat.mul_zero, ofDigitChars_digits]
  · dsimp only [exponentValue]
    rw [List.length_append, List.length_replicate]
    omega

theorem spells_positional (hd : 0 < d.coefficient) :
    Spells (d.positional true) (padded d) := by
  unfold Decimal.positional padded
  dsimp only
  by_cases hwhole : 0 ≤ d.exponent
  · rw [if_pos (by omega), if_pos hwhole]
    exact spells_whole hd _
  · have hplaces : (⟨d.coefficient, -((-d.exponent).toNat : Nat)⟩ : Decimal) = d := by
      rw [Int.toNat_of_nonneg (by omega), Int.neg_neg]
    rw [if_neg (by omega), if_neg hwhole]
    split
    · next hlt =>
      have h := spells_split hd (by omega) hlt
      rwa [hplaces] at h
    · next hle =>
      have h := spells_small d (not_lt.1 hle)
      rwa [hplaces] at h

/-- The decimal as which the spelling of a decimal is read. -/
def readAs (s : Style) (d : Decimal) : Decimal :=
  if s.plain d.leading then padded d else d

theorem spells_decimal {s : Style} (hpointed : s.pointed = true) (hd : 0 < d.coefficient) :
    Spells (s.decimal d) (readAs s d) := by
  unfold Style.decimal readAs
  rw [hpointed]
  split
  · exact spells_positional hd
  · exact spells_scientific hd

end Decimal

end SpoolTag.Json
