import SpoolTag.Value.Wire

/-! # Values on the wire and back

The bytes of a value spell the value in every register of its kind (`decode_bytes`), so nothing is
lost on the wire, the bits of a single-precision number included. A conversion ends in the kind that
was asked for (`kind_of_coerce?`), which is why converted values can always be encoded.

The other way around, a value that bytes spell has these bytes, except that there is one byte for true
while every byte but zero spells it (`bytes_of_decode`). -/

namespace SpoolTag

/-! ### Words -/

@[simp] theorem length_wordBytes (w : UInt32) : (wordBytes w).length = 4 := by simp [wordBytes]

theorem littleEndian_wordBytes (w : UInt32) : littleEndian (wordBytes w) = w.toNat := by
  have hw := w.toNat_lt
  have hbytes : wordBytes w = [UInt8.ofNat (w.toNat >>> 0), UInt8.ofNat (w.toNat >>> 8),
      UInt8.ofNat (w.toNat >>> 16), UInt8.ofNat (w.toNat >>> 24)] := rfl
  rw [hbytes]
  simp only [littleEndian, UInt8.toNat_ofNat', Nat.shiftRight_eq_div_pow]
  omega

theorem wordBytes_littleEndian {bytes : List UInt8} (h : bytes.length = 4) :
    wordBytes (UInt32.ofNat (littleEndian bytes)) = bytes := by
  obtain ⟨a, b, c, d, rfl⟩ : ∃ a b c d, bytes = [a, b, c, d] := by
    match bytes, h with
    | [a, b, c, d], _ => exact ⟨a, b, c, d, rfl⟩
  have ha := a.toNat_lt
  have hb := b.toNat_lt
  have hc := c.toNat_lt
  have hd := d.toNat_lt
  have hsmall : littleEndian [a, b, c, d] < 2 ^ 32 := by
    simp only [littleEndian]
    omega
  have hbytes : ∀ w : UInt32, wordBytes w = [UInt8.ofNat (w.toNat >>> 0),
      UInt8.ofNat (w.toNat >>> 8), UInt8.ofNat (w.toNat >>> 16), UInt8.ofNat (w.toNat >>> 24)] :=
    fun w => rfl
  rw [hbytes, UInt32.toNat_ofNat_of_lt' hsmall]
  simp only [littleEndian, Nat.shiftRight_eq_div_pow, List.cons.injEq, and_true,
    ← UInt8.toNat_inj, UInt8.toNat_ofNat']
  omega

namespace Value

/-! ### Kinds -/

theorem kind_ne_utf8String (v : Value) : v.kind ≠ .utf8String := by
  cases v <;> simp [kind]

/-- A conversion ends in the kind that was asked for. -/
theorem kind_of_coerce? {v w : Value} {kind : Kind} (h : v.coerce? kind = some w) :
    w.kind = kind := by
  unfold coerce? at h
  split at h <;> (try split at h) <;> (try split at h) <;> cases h <;> rfl

theorem coerce_eq_ok {v w : Value} {kind : Kind} (register : String)
    (h : v.coerce? kind = some w) : v.coerce kind register = .ok w := by
  rw [coerce, h]

/-- A value is one of its own kind. -/
theorem coerce?_self (v : Value) : v.coerce? v.kind = some v := by
  cases v <;> rfl

theorem width_kind (v : Value) : v.kind.width? = some v.bytes.length := by
  cases v <;> simp [kind, Kind.width?, bytes]

theorem littleEndian_bytes_ofNat {n : Nat} (h : n < UInt32.size) :
    littleEndian (Value.int32 (Int32.ofNat n)).bytes = n := by
  change littleEndian (wordBytes (UInt32.ofNat n)) = n
  rw [littleEndian_wordBytes, UInt32.toNat_ofNat_of_lt' h]

theorem length_bytes_le (v : Value) : v.bytes.length ≤ 4 := by
  cases v <;> simp [bytes]

end Value

namespace Register

variable {r : Register} {v : Value}

theorem encode_of_kind (h : v.kind = r.kind) : r.encode v = .ok v.bytes := by
  have hr : r.kind ≠ .utf8String := h ▸ v.kind_ne_utf8String
  rw [encode, if_neg hr, if_pos h]

theorem eq_bytes_of_encode {bytes : List UInt8} (h : r.encode v = .ok bytes) : bytes = v.bytes := by
  unfold encode at h
  split at h
  · cases h
  · split at h
    · exact (Except.ok.inj h).symm
    · cases h

/-- **The bytes of a value spell it in every register of its kind.** -/
theorem decode_bytes (h : v.kind = r.kind) : r.decode v.bytes = .ok v := by
  unfold decode
  rw [← h, v.width_kind]
  dsimp only
  rw [if_neg (by simp)]
  cases v with
  | bool b => cases b <;> rfl
  | int32 i =>
    simp only [Value.kind, Value.bytes, littleEndian_wordBytes, UInt32.ofNat_toNat]
    rfl
  | float32 x => simp only [Value.kind, Value.bytes, littleEndian_wordBytes, UInt32.ofNat_toNat]
  | byte b => simp [Value.kind, Value.bytes, littleEndian]

/-- **A value that bytes spell has these bytes**, and the one byte for true if it is a truth value that
any other byte than zero spells. -/
theorem bytes_of_decode {bytes : List UInt8} (h : r.decode bytes = .ok v) :
    v.bytes = if r.kind = .bool then [if bytes = [0] then 0 else 1] else bytes := by
  unfold decode at h
  split at h
  · cases h
  next width hwidth =>
  split at h
  · cases h
  next hlength =>
  have hlength : bytes.length = width := Decidable.not_not.1 hlength
  cases hkind : r.kind with
  | utf8String =>
    rw [hkind] at hwidth
    cases hwidth
  | bool =>
    rw [hkind] at h hwidth
    cases hwidth
    obtain ⟨b, rfl⟩ := List.length_eq_one_iff.1 hlength
    cases h
    by_cases hb : b = 0
    · subst hb
      rfl
    · have hvalue : littleEndian [b] ≠ 0 := by
        simpa [littleEndian, ← UInt8.toNat_inj] using hb
      simp [Value.bytes, hvalue, hb]
  | byte =>
    rw [hkind] at h hwidth
    cases hwidth
    obtain ⟨b, rfl⟩ := List.length_eq_one_iff.1 hlength
    cases h
    simp [Value.bytes, littleEndian]
  | int32 =>
    rw [hkind] at h hwidth
    cases hwidth
    cases h
    exact wordBytes_littleEndian hlength
  | float32 =>
    rw [hkind] at h hwidth
    cases hwidth
    cases h
    exact wordBytes_littleEndian hlength

end Register

end SpoolTag
