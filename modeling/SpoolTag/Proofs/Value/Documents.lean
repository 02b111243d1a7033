import SpoolTag.Proofs.Json.Documents
import SpoolTag.Proofs.Json.Narrowing
import SpoolTag.Value.Reading

/-! # Values that were written are read

The document of a value brings one event, and the text of the value is read as what that event stands
for (`ofText_document`). Little is lost on the way (`kept?`): a byte comes back as an integer, and a
single-precision number that is not finite does not come back, since it is written as null. -/

namespace SpoolTag

open SpoolTag.Json
open SpoolTag.Number

theorem ofParts_magnitude (x : Single) : Single.ofParts x.negative x.magnitude = x := by
  obtain ⟨bits⟩ := x
  have hweight : Format.single.signWeight = 2 ^ 31 := by decide
  have hbits := bits.toNat_lt
  have hparts : (if decide (2 ^ 31 ≤ bits.toNat) then 2 ^ 31 else 0) + bits.toNat % 2 ^ 31 =
      bits.toNat := by
    by_cases hsign : 2 ^ 31 ≤ bits.toNat
    · rw [decide_eq_true hsign, if_pos rfl]
      omega
    · rw [decide_eq_false hsign, if_neg (by decide)]
      omega
  unfold Single.ofParts Single.negative Single.magnitude
  dsimp only
  rw [hweight, hparts, UInt32.ofNat_toNat]

namespace Value

/-- What the text of a value is read as. -/
def kept? : Value → Option Value
  | .bool b => some (.bool b)
  | .int32 i => some (.int32 i)
  | .float32 x => if x.isFinite then some (.float32 x) else none
  | .byte b => some (.int32 (Int32.ofNat b.toNat))

/-- The one event of the document of a value. -/
def event : Value → Event
  | .bool b => .bool b
  | .int32 i => .number (.ofInt i.toInt)
  | .float32 x => (x.numeral?.map Event.number).getD .null
  | .byte b => .number (.ofInt b.toNat)

theorem events_document (v : Value) : v.document.events = [v.event] := by
  cases v with
  | bool b => rfl
  | int32 i => rfl
  | byte b => rfl
  | float32 x =>
    unfold document Document.single event
    dsimp only
    cases x.numeral? <;> rfl

theorem sound_document (v : Value) : v.document.Sound := by
  cases v with
  | bool b => trivial
  | int32 i => exact spelled_ofInt i.toInt
  | byte b => exact spelled_ofInt b.toNat
  | float32 x =>
    unfold document Document.single Single.numeral?
    dsimp only
    by_cases hfinite : x.isFinite = true
    · rw [if_pos hfinite]
      exact (ofNumeral?_single x.negative (of_decide_eq_true hfinite)).1
    · rw [if_neg hfinite]
      trivial

theorem ofEvent?_integer {i : Int} (h : inInt32 i = true) :
    ofEvent? (.number (.ofInt i)) = some (.int32 (Int32.ofInt i)) := by
  have hrange := h
  simp only [inInt32, Bool.and_eq_true, decide_eq_true_eq] at hrange
  unfold ofEvent?
  dsimp only
  rw [ofNumeral?_ofInt (by omega), Option.map_some, ofNumber, if_pos h]

theorem inInt32_toInt (i : Int32) : inInt32 i.toInt = true := by
  have hlow := i.le_toInt
  have hhigh := i.toInt_lt
  simp only [inInt32, Bool.and_eq_true, decide_eq_true_eq]
  omega

theorem ofEvent?_event (v : Value) : ofEvent? v.event = v.kept? := by
  cases v with
  | bool b => rfl
  | int32 i =>
    rw [event, ofEvent?_integer (inInt32_toInt i), Int32.ofInt_toInt]
    rfl
  | byte b =>
    have hb := b.toNat_lt
    rw [event, ofEvent?_integer]
    · rfl
    · simp only [inInt32, Bool.and_eq_true, decide_eq_true_eq]
      omega
  | float32 x =>
    unfold event kept? Single.numeral?
    dsimp only
    by_cases hfinite : x.isFinite = true
    · obtain ⟨-, w, hw, hconvert⟩ := ofNumeral?_single x.negative (of_decide_eq_true hfinite)
      rw [if_pos hfinite, if_pos hfinite]
      change (Number.ofNumeral? _).map ofNumber = _
      rw [hw, Option.map_some, ofNumber, Number.toSingle, hconvert, ofParts_magnitude]
      · rintro i ⟨⟩
    · rw [if_neg hfinite, if_neg hfinite]
      rfl

/-- What is not kept was written as null. -/
theorem event_of_lost {v : Value} (h : v.kept? = none) : v.event = .null := by
  cases v with
  | bool b => cases h
  | int32 i => cases h
  | byte b => cases h
  | float32 x =>
    unfold kept? at h
    unfold event Single.numeral?
    dsimp only at h ⊢
    by_cases hfinite : x.isFinite = true
    · rw [if_pos hfinite] at h
      cases h
    · rw [if_neg hfinite]
      rfl

theorem ofText_of_kept {v w : Value} (h : v.kept? = some w) : ofText v.document.text = .ok w := by
  unfold ofText
  rw [events_text v.sound_document, events_document]
  dsimp only [List.singleton_append]
  rw [ofEvent?_event, h]
  exact if_pos rfl

/-- **A value is read back from its text**, as far as that keeps it. -/
theorem ofText_document (v : Value) : (ofText v.document.text).toOption = v.kept? := by
  cases hkept : v.kept? with
  | some w =>
    rw [ofText_of_kept hkept]
    rfl
  | none =>
    unfold ofText
    rw [events_text v.sound_document, events_document, event_of_lost hkept]
    rfl

end Value

end SpoolTag
