import SpoolTag.Fault
import SpoolTag.Proofs.Number.Nearest
import SpoolTag.Proofs.Value.Codec

/-! # What a conversion keeps

A conversion ends in the kind that was asked for and keeps a value that already has it. The number is kept
by every conversion but one: an integer for a single-precision register is rounded, without an error,
where its binary digits do not fit the significand (`coerced_number`). -/

namespace SpoolTag

open SpoolTag.Number

namespace Value

/-- The number that a value stands for: truth values are 0 and 1, and infinities and values that are no
number stand for none. -/
def number? : Value → Option ℚ
  | .bool b => some (if b then 1 else 0)
  | .int32 i => some i.toInt
  | .float32 x => if x.isFinite then some x.value else none
  | .byte b => some b.toNat

/-- The integer does not fit the significand of the kind to which it is to be converted. -/
def Overfills (v : Value) (kind : Kind) : Prop :=
  ∃ i, v = .int32 i ∧ kind = .float32 ∧ ¬ ∃ m k : Nat, m < 2 ^ 24 ∧ i.toInt.natAbs = m * 2 ^ k

variable {v w : Value} {kind : Kind}

theorem coerce_eq_ok_iff {register : String} :
    v.coerce kind register = .ok w ↔ v.coerce? kind = some w := by
  unfold coerce
  cases v.coerce? kind <;> simp

theorem natAbs_toInt_lt (i : Int32) : i.toInt.natAbs < 2 ^ 64 := by
  have hle := i.toInt_lt
  have hge := i.le_toInt
  omega

/-! ### Numbers that are kept -/

theorem number?_single_ofInt {i : Int} (h : i.natAbs < 2 ^ 64) :
    (float32 (.ofInt i)).number? = some (i : ℚ) ↔
      ∃ m k : Nat, m < 2 ^ 24 ∧ i.natAbs = m * 2 ^ k := by
  rw [← Single.value_ofInt_eq_iff h]
  simp [number?, Single.isFinite_ofInt h]

theorem number?_single_byte (b : UInt8) :
    (float32 (.ofInt b.toNat)).number? = (byte b).number? := by
  have hb := b.toNat_lt
  have hkept := (number?_single_ofInt (i := b.toNat) (by omega)).2 ⟨b.toNat, 0, by omega, by simp⟩
  rw [hkept]
  simp [number?]

/-- A number in range that is an integer becomes that integer. -/
theorem number?_int32_of_toInt? {x : Single} {i : Int} (hx : x.toInt? = some i)
    (hrange : inInt32 i = true) : (int32 (Int32.ofInt i)).number? = (float32 x).number? := by
  obtain ⟨hfinite, hvalue⟩ := Single.toInt?_eq_some_iff.1 hx
  simp only [inInt32, Bool.and_eq_true, decide_eq_true_eq] at hrange
  have hi : (Int32.ofInt i).toInt = i := Int32.toInt_ofInt_of_le hrange.1 hrange.2
  simp [number?, hfinite, hvalue, hi]

theorem number?_int32_ofByte (b : UInt8) :
    (int32 (Int32.ofNat b.toNat)).number? = (byte b).number? := by
  have hb := b.toNat_lt
  have hi : (Int32.ofNat b.toNat).toInt = b.toNat := Int32.toInt_ofNat_of_lt (by omega)
  simp [number?, hi]

theorem number?_byte_ofInt32 {i : Int32} (h : 0 ≤ i.toInt ∧ i.toInt < 256) :
    (byte (UInt8.ofNat i.toInt.toNat)).number? = (int32 i).number? := by
  have hb : (UInt8.ofNat i.toInt.toNat).toNat = i.toInt.toNat :=
    UInt8.toNat_ofNat_of_lt (by simp only [UInt8.size]; omega)
  have hi : ((i.toInt.toNat : ℕ) : ℤ) = i.toInt := Int.toNat_of_nonneg h.1
  simp only [number?, hb, Option.some.injEq]
  exact_mod_cast hi

/-- **The number is kept** unless an integer overfills a significand. -/
theorem number?_of_coerce? (h : v.coerce? kind = some w) (hfits : ¬ v.Overfills kind) :
    w.number? = v.number? := by
  rcases eq_or_ne v.kind kind with rfl | hne
  · rw [coerce?_self] at h
    rw [Option.some.inj h]
  cases v with
  | bool b =>
    cases kind <;> simp [coerce?, Value.kind] at h hne <;> subst h <;> cases b <;> rfl
  | byte b =>
    cases kind with
    | float32 =>
      obtain rfl := Option.some.inj h
      exact number?_single_byte b
    | int32 =>
      obtain rfl := Option.some.inj h
      exact number?_int32_ofByte b
    | _ => simp [coerce?, Value.kind] at h hne
  | float32 x =>
    cases kind with
    | int32 =>
      simp only [coerce?] at h
      split at h
      · next i hi =>
        split at h
        · next hrange =>
          obtain rfl := Option.some.inj h
          exact number?_int32_of_toInt? hi hrange
        · cases h
      · cases h
    | _ => simp [coerce?, Value.kind] at h hne
  | int32 i =>
    cases kind with
    | float32 =>
      obtain rfl := Option.some.inj h
      have hdigits : ∃ m k : Nat, m < 2 ^ 24 ∧ i.toInt.natAbs = m * 2 ^ k :=
        not_not.1 fun hnot => hfits ⟨i, rfl, rfl, hnot⟩
      exact (number?_single_ofInt (natAbs_toInt_lt i)).2 hdigits
    | byte =>
      simp only [coerce?] at h
      split at h
      · next hrange =>
        obtain rfl := Option.some.inj h
        exact number?_byte_ofInt32 hrange
      · cases h
    | bool =>
      simp only [coerce?] at h
      split at h
      · next hzero =>
        obtain rfl := Option.some.inj h
        simp [number?, hzero]
      · split at h
        · next hone =>
          obtain rfl := Option.some.inj h
          simp [number?, hone]
        · cases h
    | _ => simp [coerce?, Value.kind] at h hne

/-! ### Numbers that are rounded -/

/-- **A conversion keeps the number exactly if no integer overfills a significand.** It ends in the kind
that was asked for, keeps what is of this kind already, and an integer that overfills the significand is
replaced by the nearest number that does not. -/
theorem coerced_number {register : String} (h : v.coerce kind register = .ok w) :
    w.kind = kind ∧ (v.kind = kind → w = v) ∧ (w.number? = v.number? ↔ ¬ v.Overfills kind) ∧
      ∀ i, v = .int32 i → kind = .float32 → ∃ x : Single, w = .float32 x ∧ x.isFinite = true ∧
        ∀ y : Single, |x.value - i.toInt| ≤ |y.value - i.toInt| := by
  rw [coerce_eq_ok_iff] at h
  refine ⟨kind_of_coerce? h, fun hkind => ?_, ⟨fun hkept => ?_, number?_of_coerce? h⟩, ?_⟩
  · subst hkind
    rw [coerce?_self] at h
    exact (Option.some.inj h).symm
  · rintro ⟨i, rfl, rfl, hnot⟩
    obtain rfl := Option.some.inj h
    exact hnot ((number?_single_ofInt (natAbs_toInt_lt i)).1 hkept)
  · rintro i rfl rfl
    obtain rfl := Option.some.inj h
    exact ⟨_, rfl, Single.isFinite_ofInt (natAbs_toInt_lt i),
      Single.value_ofInt_nearest (natAbs_toInt_lt i)⟩

/-- The least integer, a power of two, is kept, although one more than it is not. -/
theorem coerced_number_least :
    (int32 (-2147483648)).coerce .float32 "gauge" = .ok (.float32 ⟨0xCF000000⟩) ∧
      (float32 ⟨0xCF000000⟩).number? = (int32 (-2147483648)).number? ∧
      (int32 (-2147483647)).coerce .float32 "gauge" = .ok (.float32 ⟨0xCF000000⟩) ∧
      (float32 ⟨0xCF000000⟩).number? ≠ (int32 (-2147483647)).number? := by
  have hleast : (int32 (-2147483648)).coerce .float32 "gauge" = .ok (.float32 ⟨0xCF000000⟩) := by
    decide +kernel
  have hnext : (int32 (-2147483647)).coerce .float32 "gauge" = .ok (.float32 ⟨0xCF000000⟩) := by
    decide +kernel
  have hfits : ¬ (int32 (-2147483648)).Overfills .float32 := by
    rintro ⟨i, hi, -, hnot⟩
    cases hi
    exact hnot ⟨1, 31, by decide, by decide⟩
  have hkept := (coerced_number hleast).2.2.1.2 hfits
  refine ⟨hleast, hkept, hnext, ?_⟩
  rw [hkept]
  simp [number?]

/-- The first integer that a single-precision number cannot hold is rounded, without an error. -/
theorem rounded_by_coercion :
    (int32 16777217).coerce .float32 "gauge" = .ok (.float32 ⟨0x4B800000⟩) ∧
      (int32 16777217).number? = some 16777217 ∧
      (float32 ⟨0x4B800000⟩).number? = some 16777216 := by
  have hlast : Single.ofInt 16777216 = ⟨0x4B800000⟩ := by decide +kernel
  have hkept := (number?_single_ofInt (i := 16777216) (by decide)).2 ⟨1, 24, by decide, by decide⟩
  rw [hlast] at hkept
  refine ⟨by decide +kernel, by simp [number?], ?_⟩
  exact_mod_cast hkept

end Value

end SpoolTag
