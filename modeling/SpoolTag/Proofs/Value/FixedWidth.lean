import Mathlib.Algebra.Group.Nat.Defs
import Mathlib.Algebra.Ring.Int.Defs
import SpoolTag.Proofs.Value.Codec

/-! # Coding is exact both ways

A register takes exactly the values of its kind, and every string of as many bytes as the kind is wide
spells one of them. The bytes of a value are the digits of one number to the base 256, the lowest first:
the value of an integer modulo `2 ^ 32`, or the bits of a single-precision number (`map_toNat_bytes`).
Strings have no width and no values, and this is told before the kind of a value or the number of the
bytes is looked at.

So a value and its bytes determine each other, except that a truth value has one byte of the many that
spell it (`Register.coded_exactly`). -/

namespace SpoolTag

/-- The lowest digits of a number to the base 256, the lowest first. -/
def base256 (count n : Nat) : List Nat := (List.range count).map fun k => n / 256 ^ k % 256

namespace Value

/-- The number that goes on the wire for a value: truth values are 0 and 1, integers are taken modulo
`2 ^ 32`, and single-precision numbers go by their bits. -/
def wireNumber : Value → Nat
  | .bool b => if b then 1 else 0
  | .int32 i => (i.toInt % 2 ^ 32).toNat
  | .float32 x => x.bits.toNat
  | .byte b => b.toNat

/-! ### Bytes as digits -/

theorem map_toNat_wordBytes (w : UInt32) : (wordBytes w).map UInt8.toNat = base256 4 w.toNat := by
  unfold wordBytes base256
  rw [List.map_map]
  refine List.map_congr_left fun k _ => ?_
  rw [Function.comp_apply, UInt8.toNat_ofNat', Nat.shiftRight_eq_div_pow, Nat.pow_mul]

theorem base256_one {n : Nat} (h : n < 256) : base256 1 n = [n] := by
  simp [base256, Nat.mod_eq_of_lt h]

/-- The two's complement of an integer is the integer modulo `2 ^ 32`. -/
theorem toNat_toUInt32 (i : Int32) : i.toUInt32.toNat = (i.toInt % 2 ^ 32).toNat := by
  have hlt := i.toUInt32.toNat_lt
  have hcomplement : i.toInt = if 2 * i.toUInt32.toNat < 2 ^ 32 then (i.toUInt32.toNat : Int)
      else i.toUInt32.toNat - 2 ^ 32 := BitVec.toInt_eq_toNat_cond i.toUInt32.toBitVec
  split at hcomplement <;> omega

/-- **The bytes of a value are the digits of its number.** -/
theorem map_toNat_bytes (v : Value) :
    v.bytes.map UInt8.toNat = base256 v.bytes.length v.wireNumber := by
  cases v with
  | bool b => cases b <;> rfl
  | byte b => exact (base256_one b.toNat_lt).symm
  | int32 i =>
    change (wordBytes i.toUInt32).map UInt8.toNat = base256 4 _
    rw [map_toNat_wordBytes, toNat_toUInt32]
    rfl
  | float32 x => exact map_toNat_wordBytes x.bits

end Value

namespace Register

variable {r : Register} {v : Value} {bytes : List UInt8}

/-! ### Which values and which bytes a register takes -/

theorem encode_eq_ok_iff : r.encode v = .ok bytes ↔ v.kind = r.kind ∧ bytes = v.bytes := by
  constructor
  · intro h
    have hkind : v.kind = r.kind := by
      unfold encode at h
      split at h
      · cases h
      · split at h
        · assumption
        · cases h
    exact ⟨hkind, eq_bytes_of_encode h⟩
  · rintro ⟨hkind, rfl⟩
    exact encode_of_kind hkind

theorem encode_of_kind_ne (hr : r.kind ≠ .utf8String) (h : v.kind ≠ r.kind) :
    r.encode v = .error (.kindMismatch r.name r.kind) := by
  rw [encode, if_neg hr, if_neg h]

theorem width?_eq_none_iff {kind : Kind} : kind.width? = none ↔ kind = .utf8String := by
  cases kind <;> decide

theorem decode_of_string (hr : r.kind = .utf8String) :
    r.decode bytes = .error (.unsupportedKind r.name r.kind) := by
  unfold decode
  rw [width?_eq_none_iff.2 hr]

theorem decode_of_length_ne {width : Nat} (hr : r.kind.width? = some width)
    (h : bytes.length ≠ width) :
    r.decode bytes = .error (.malformedResponse r.name width bytes.length) := by
  unfold decode
  rw [hr]
  exact if_pos h

/-- Every string of bytes that is as long as a register is wide spells a value of its kind. -/
theorem exists_decode (h : r.kind.width? = some bytes.length) :
    ∃ v, r.decode bytes = .ok v ∧ v.kind = r.kind := by
  unfold decode
  rw [h]
  dsimp only
  rw [if_neg (Decidable.not_not.2 rfl)]
  cases hkind : r.kind with
  | utf8String =>
    rw [hkind] at h
    cases h
  | bool => exact ⟨_, rfl, rfl⟩
  | int32 => exact ⟨_, rfl, rfl⟩
  | float32 => exact ⟨_, rfl, rfl⟩
  | byte => exact ⟨_, rfl, rfl⟩

theorem width_of_decode (h : r.decode bytes = .ok v) : r.kind.width? = some bytes.length := by
  cases hwidth : r.kind.width? with
  | none =>
    rw [decode_of_string (width?_eq_none_iff.1 hwidth)] at h
    cases h
  | some width =>
    by_cases hlength : bytes.length = width
    · rw [hlength]
    · rw [decode_of_length_ne hwidth hlength] at h
      cases h

theorem kind_of_decode (h : r.decode bytes = .ok v) : v.kind = r.kind := by
  obtain ⟨w, hw, hkind⟩ := exists_decode (width_of_decode h)
  rw [h] at hw
  exact Except.ok.inj hw ▸ hkind

/-- Bytes that spell a value are the bytes of this value, except that true has the byte one. -/
theorem encode_of_decode (h : r.decode bytes = .ok v) :
    r.encode v = .ok (if r.kind = .bool ∧ bytes ≠ [0] then [1] else bytes) := by
  refine encode_eq_ok_iff.2 ⟨kind_of_decode h, ?_⟩
  rw [bytes_of_decode h]
  by_cases hbool : r.kind = .bool
  · by_cases hzero : bytes = [0]
    · simp [hzero]
    · simp [hbool, hzero]
  · simp [hbool]

/-- **Coding is exact both ways.** A register takes a value exactly if it holds no string and the value
is of its kind; the bytes are as many as the kind is wide, they are the digits of the number of the value,
and they spell it. Bytes spell a value exactly if the register holds no string and they are as many as it
is wide; the value has these bytes again, except that there is one byte for true. What is wrong with a
value or with bytes is told, a string register before anything else. -/
theorem coded_exactly (r : Register) :
    (∀ v : Value,
      ((∃ bytes, r.encode v = .ok bytes) ↔ r.kind ≠ .utf8String ∧ v.kind = r.kind) ∧
      (r.kind = .utf8String → r.encode v = .error (.unsupportedKind r.name r.kind)) ∧
      (r.kind ≠ .utf8String → v.kind ≠ r.kind →
        r.encode v = .error (.kindMismatch r.name r.kind)) ∧
      ∀ bytes, r.encode v = .ok bytes → r.kind.width? = some bytes.length ∧
        bytes.map UInt8.toNat = base256 bytes.length v.wireNumber ∧ r.decode bytes = .ok v) ∧
    ∀ bytes : List UInt8,
      ((∃ v, r.decode bytes = .ok v) ↔
        r.kind ≠ .utf8String ∧ r.kind.width? = some bytes.length) ∧
      (r.kind = .utf8String → r.decode bytes = .error (.unsupportedKind r.name r.kind)) ∧
      (∀ width, r.kind.width? = some width → bytes.length ≠ width →
        r.decode bytes = .error (.malformedResponse r.name width bytes.length)) ∧
      ∀ v, r.decode bytes = .ok v → v.kind = r.kind ∧
        r.encode v = .ok (if r.kind = .bool ∧ bytes ≠ [0] then [1] else bytes) := by
  refine ⟨fun v => ⟨⟨?_, ?_⟩, fun hr => if_pos hr, encode_of_kind_ne, ?_⟩,
    fun bytes => ⟨⟨?_, ?_⟩, decode_of_string, fun _ => decode_of_length_ne, ?_⟩⟩
  · rintro ⟨bytes, hbytes⟩
    have hkind := (encode_eq_ok_iff.1 hbytes).1
    exact ⟨hkind ▸ v.kind_ne_utf8String, hkind⟩
  · rintro ⟨-, hkind⟩
    exact ⟨v.bytes, encode_of_kind hkind⟩
  · intro bytes hbytes
    obtain ⟨hkind, rfl⟩ := encode_eq_ok_iff.1 hbytes
    exact ⟨hkind ▸ v.width_kind, v.map_toNat_bytes, decode_bytes hkind⟩
  · rintro ⟨v, hv⟩
    exact ⟨kind_of_decode hv ▸ v.kind_ne_utf8String, width_of_decode hv⟩
  · rintro ⟨-, hwidth⟩
    exact (exists_decode hwidth).imp fun v hv => hv.1
  · exact fun v hv => ⟨kind_of_decode hv, encode_of_decode hv⟩

/-- The least integer, a signalling value that is no number, a truth value that was not written as one,
and bytes for a string, of which it does not matter how many they are. -/
theorem coded_exactly_extremes :
    let weight : Register := ⟨"total_weight", 0x06, .int32⟩
    let advance : Register := ⟨"pressure_advance", 0x09, .float32⟩
    let flag : Register := ⟨"present", 0x00, .bool⟩
    let name : Register := ⟨"filament_name", 0x04, .utf8String⟩
    (weight.encode (.int32 (-2147483648)) = .ok [0x00, 0x00, 0x00, 0x80] ∧
      weight.decode [0x00, 0x00, 0x00, 0x80] = .ok (.int32 (-2147483648))) ∧
    (∃ x, advance.decode [0x01, 0x00, 0xA0, 0x7F] = .ok x ∧
      advance.encode x = .ok [0x01, 0x00, 0xA0, 0x7F]) ∧
    (∃ b, flag.decode [0x02] = .ok b ∧ flag.encode b = .ok [0x01]) ∧
    weight.decode [0x00, 0x00] = .error (.malformedResponse "total_weight" 4 2) ∧
    name.decode [0x50, 0x4C, 0x41] = .error (.unsupportedKind "filament_name" .utf8String) := by
  intro weight advance flag name
  have hleast : weight.encode (.int32 (-2147483648)) = .ok [0x00, 0x00, 0x00, 0x80] := rfl
  obtain ⟨x, hx⟩ := ((coded_exactly advance).2 [0x01, 0x00, 0xA0, 0x7F]).1.2 (by decide)
  obtain ⟨b, hb⟩ := ((coded_exactly flag).2 [0x02]).1.2 (by decide)
  refine ⟨⟨hleast, (((coded_exactly weight).1 _).2.2.2 _ hleast).2.2⟩, ⟨x, hx, ?_⟩, ⟨b, hb, ?_⟩,
    ((coded_exactly weight).2 _).2.2.1 4 rfl (by decide), ((coded_exactly name).2 _).2.1 rfl⟩
  · exact (((coded_exactly advance).2 _).2.2.2 x hx).2
  · exact (((coded_exactly flag).2 _).2.2.2 b hb).2

end Register

end SpoolTag
