import SpoolTag.Proofs.Json.Accuracy
import SpoolTag.Proofs.Value.Documents

/-! # How a single-precision number is spelled

The text of a finite single-precision number spells the decimal with the fewest digits among those
that are nearest to it, and it always has a point or an exponent, so that it is not taken for an integer.
Reading the text gives back all 32 bits (`Value.finite_read_back`). -/

namespace SpoolTag

open SpoolTag.Json
open SpoolTag.Number

namespace Json

/-- A numeral that spells a decimal spells its number. -/
theorem Spells.size_eq {n : Numeral} {d : Decimal} (h : Spells n d) :
    n.size = d.coefficient * 10 ^ d.exponent := by
  unfold Numeral.size
  rw [h.coefficient, h.exponent]

/-- The decimal of the number has the fewest digits among those that are nearest to it. -/
structure Identifies (d : Decimal) (b : Nat) : Prop where
  nearest : nearestSingle d = b
  fewest : ∀ d' : Decimal, nearestSingle d' = b → d.digits.length ≤ d'.digits.length

theorem identifies_shortest {b : Nat} (h0 : 0 < b) (hb : b < Format.single.infinity) :
    Identifies (Format.single.shortest .even b) b := by
  have howned := (Format.shortest_single .even h0 hb).owned
  refine ⟨nearestSingle_shortest h0 hb .even, fun d' hd' => ?_⟩
  refine Format.length_digits_le howned (fun c e h => ?_) ((nearestSingle_eq_iff hb).1 hd')
  exact Format.exponent_le_shortest h0 (Format.search_single h0 hb).1 h

/-- A number and a zero of either sign are spelled in the same way. -/
theorem exists_spelled (negative : Bool) {b : Nat} (hb : b < Format.single.infinity) :
    ∃ d d' : Decimal, Identifies d b ∧ Spells { Style.documentSingle.decimal d with negative } d' ∧
      (d'.coefficient * 10 ^ d'.exponent : ℚ) = d.coefficient * 10 ^ d.exponent ∧
        Style.documentSingle.numeral .single negative b =
          { Style.documentSingle.decimal d with negative } := by
  rcases Nat.eq_zero_or_pos b with rfl | h0
  · have hzero : Style.documentSingle.decimal ⟨0, 0⟩ = { whole := ['0'], fraction := ['0'] } := by
      decide
    refine ⟨⟨0, 0⟩, ⟨0, -1⟩, ⟨by decide +kernel, fun d' _ => d'.digits_pos⟩, ?_, by simp, rfl⟩
    rw [hzero]
    exact spells_zero.withSign negative
  · have hd := Format.shortest_single .even h0 hb
    refine ⟨_, _, identifies_shortest h0 hb,
      (spells_decimal (s := .documentSingle) rfl hd.pos).withSign negative,
      (readAs_shortest h0 hb hd).2.2.2, ?_⟩
    unfold Style.numeral
    rw [if_neg h0.ne']
    rfl

end Json

namespace Value

/-- **Finite numbers survive documents.** The text spells the shortest decimal of the number, with a
point or an exponent, and it is read as the number with the same bits, by itself and as a field of a
record. -/
theorem finite_read_back (x : Single) (h : x.isFinite = true) :
    ∃ d : Decimal, Identifies d x.magnitude ∧
      let n : Numeral := { Style.documentSingle.decimal d with negative := x.negative }
      (Value.float32 x).document.text = n.text ∧ (n.fraction ≠ [] ∨ n.exponent ≠ none) ∧
        n.size = d.coefficient * 10 ^ d.exponent ∧
          Value.ofText (Value.float32 x).document.text = .ok (.float32 x) ∧
            Value.ofEvent? (.number n) = some (.float32 x) := by
  obtain ⟨d, d', hidentifies, hspells, hsame, hnumeral⟩ :=
    exists_spelled x.negative (of_decide_eq_true h)
  have hwritten : x.numeral? = some { Style.documentSingle.decimal d with negative := x.negative } := by
    rw [← hnumeral]
    exact if_pos h
  have hread : Value.ofEvent? (Value.float32 x).event = some (.float32 x) :=
    (ofEvent?_event _).trans (if_pos h)
  refine ⟨d, hidentifies, ?_, hspells.pointed, hspells.size_eq.trans hsame,
    ofText_of_kept (if_pos h), ?_⟩
  · change (Document.single x).text = _
    unfold Document.single
    rw [hwritten]
    rfl
  · unfold event at hread
    dsimp only at hread
    rwa [hwritten] at hread

/-- The negative zero and the least negative number. -/
theorem finite_read_back_least :
    (Value.float32 ⟨0x80000000⟩).document.text = ['-', '0', '.', '0'] ∧
      Value.ofText ['-', '0', '.', '0'] = .ok (.float32 ⟨0x80000000⟩) ∧
      (Value.float32 ⟨0x80000001⟩).document.text = ['-', '1', 'e', '-', '4', '5'] ∧
      Value.ofText ['-', '1', 'e', '-', '4', '5'] = .ok (.float32 ⟨0x80000001⟩) := by
  have hzero : (Value.float32 ⟨0x80000000⟩).document.text = ['-', '0', '.', '0'] := by decide +kernel
  have hleast : (Value.float32 ⟨0x80000001⟩).document.text = ['-', '1', 'e', '-', '4', '5'] := by
    decide +kernel
  obtain ⟨-, -, -, -, -, hback, -⟩ := finite_read_back ⟨0x80000000⟩ (by decide)
  obtain ⟨-, -, -, -, -, hback', -⟩ := finite_read_back ⟨0x80000001⟩ (by decide)
  rw [hzero] at hback
  rw [hleast] at hback'
  exact ⟨hzero, hback, hleast, hback'⟩

end Value

end SpoolTag
