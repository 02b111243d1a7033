import SpoolTag.Text.Utf8
import Mathlib.Tactic.SplitIfs

/-! # Texts as bytes and back

`decode_encode`: the bytes of a text spell the text. The reader takes the bytes of one character in
one go, whatever follows (`scan_encodeChar`); its three kinds of steps are `scan_lead`, `scan_more`
and `scan_last`, and the cases are the four lengths of a character. The bits that were read are the
number of the character because each of the bytes carries its digits in base 64.

`decode_eq_ok_iff`: nothing but the bytes of a text spells it. `Spells` says of a reader within a
character that the bytes it took, with any it may still take, are the bytes of a character; the
ranges after the first byte are such that this holds from there on (`spells_lead`).

`fitting_isLongest`: `fitting` cuts a text to its longest run of whole characters that fits. -/

namespace SpoolTag.Text.Utf8

/-! ### Lengths -/

theorem encode_cons (c : Char) (text : List Char) :
    encode (c :: text) = String.utf8EncodeChar c ++ encode text := rfl

@[simp] theorem length_encode_cons (c : Char) (text : List Char) :
    (encode (c :: text)).length = c.utf8Size + (encode text).length := by
  rw [encode_cons, List.length_append, String.length_utf8EncodeChar]

/-! ### First bytes -/

theorem lead?_one {b : UInt8} (h : b.toNat < 0x80) : lead? b = some ⟨b.toNat, 1, []⟩ := by
  rw [lead?, if_pos (UInt8.lt_iff_toNat_lt.2 h)]

theorem lead?_two {b : UInt8} (h : 0xC2 ≤ b.toNat) (h' : b.toNat < 0xE0) :
    lead? b = some ⟨b.toNat - 0xC0, 1, [tail]⟩ := by
  simp only [lead?, UInt8.lt_iff_toNat_lt, UInt8.reduceToNat]
  rw [if_neg (by omega), if_neg (by omega), if_pos h']

theorem lead?_three {b : UInt8} (h : 0xE0 ≤ b.toNat) (h' : b.toNat < 0xF0) :
    ∃ range, lead? b = some ⟨b.toNat - 0xE0, 1, [range, tail]⟩ ∧
      ∀ x : UInt8, 0x80 ≤ x.toNat → x.toNat ≤ 0xBF → (b.toNat = 0xE0 → 0xA0 ≤ x.toNat) →
        (b.toNat = 0xED → x.toNat ≤ 0x9F) → range.low ≤ x ∧ x ≤ range.high := by
  simp only [lead?, UInt8.lt_iff_toNat_lt, UInt8.le_iff_toNat_le, ← UInt8.toNat_inj,
    UInt8.reduceToNat]
  rw [if_neg (by omega), if_neg (by omega), if_neg (by omega)]
  split_ifs with h1 h2
  · exact ⟨⟨0xA0, 0xBF⟩, by rw [h1], fun x _ hx h3 _ => ⟨h3 h1, hx⟩⟩
  · exact ⟨⟨0x80, 0x9F⟩, by rw [h2], fun x hx _ _ h4 => ⟨hx, h4 h2⟩⟩
  · exact ⟨tail, rfl, fun x hx hx' _ _ => ⟨hx, hx'⟩⟩

theorem lead?_four {b : UInt8} (h : 0xF0 ≤ b.toNat) (h' : b.toNat ≤ 0xF4) :
    ∃ range, lead? b = some ⟨b.toNat - 0xF0, 1, [range, tail, tail]⟩ ∧
      ∀ x : UInt8, 0x80 ≤ x.toNat → x.toNat ≤ 0xBF → (b.toNat = 0xF0 → 0x90 ≤ x.toNat) →
        (b.toNat = 0xF4 → x.toNat ≤ 0x8F) → range.low ≤ x ∧ x ≤ range.high := by
  simp only [lead?, UInt8.lt_iff_toNat_lt, UInt8.le_iff_toNat_le, ← UInt8.toNat_inj,
    UInt8.reduceToNat]
  rw [if_neg (by omega), if_neg (by omega), if_neg (by omega), if_neg (by omega),
    if_neg (by omega), if_neg (by omega)]
  split_ifs with h1 h2 h3
  · exact ⟨⟨0x90, 0xBF⟩, by rw [h1], fun x _ hx h3 _ => ⟨h3 h1, hx⟩⟩
  · exact ⟨tail, rfl, fun x hx hx' _ _ => ⟨hx, hx'⟩⟩
  · exact ⟨⟨0x80, 0x8F⟩, by rw [h3], fun x hx _ _ h4 => ⟨hx, h4 h3⟩⟩
  · omega

/-! ### Steps of the reader -/

theorem scan_one {b : UInt8} {bits taken : Nat} (h : lead? b = some ⟨bits, taken, []⟩) (index : Nat)
    (rest : List UInt8) :
    scan index none (b :: rest) =
      (Char.ofNat bits :: (scan (index + 1) none rest).1, (scan (index + 1) none rest).2) := by
  rw [scan, h]

theorem scan_lead {b : UInt8} {bits taken : Nat} {range : Range} {owed : List Range}
    (h : lead? b = some ⟨bits, taken, range :: owed⟩) (index : Nat) (rest : List UInt8) :
    scan index none (b :: rest) = scan index (some ⟨bits, taken, range :: owed⟩) rest := by
  rw [scan, h]

theorem scan_more {b : UInt8} {range next : Range} (h : range.low ≤ b ∧ b ≤ range.high)
    (index bits taken : Nat) (owed : List Range) (rest : List UInt8) :
    scan index (some ⟨bits, taken, range :: next :: owed⟩) (b :: rest) =
      scan index (some ⟨bits * 64 + b.toNat % 64, taken + 1, next :: owed⟩) rest := by
  rw [scan, if_pos h]

theorem scan_last {b : UInt8} {range : Range} (h : range.low ≤ b ∧ b ≤ range.high)
    (index bits taken : Nat) (rest : List UInt8) :
    scan index (some ⟨bits, taken, [range]⟩) (b :: rest) =
      (Char.ofNat (bits * 64 + b.toNat % 64) :: (scan (index + taken + 1) none rest).1,
        (scan (index + taken + 1) none rest).2) := by
  rw [scan, if_pos h]

theorem mem_tail {b : UInt8} (h : 0x80 ≤ b.toNat) (h' : b.toNat ≤ 0xBF) :
    tail.low ≤ b ∧ b ≤ tail.high := ⟨h, h'⟩

/-- The last six bits of a number, as a byte that continues a character. -/
theorem toNat_continuation (v : Nat) : (UInt8.ofNat (v % 64 + 128)).toNat = v % 64 + 128 := by
  rw [UInt8.toNat_ofNat']
  omega

/-- **The reader takes a whole character**, whatever follows it. -/
theorem scan_encodeChar (c : Char) (index : Nat) (rest : List UInt8) :
    scan index none (String.utf8EncodeChar c ++ rest) =
      (c :: (scan (index + c.utf8Size) none rest).1, (scan (index + c.utf8Size) none rest).2) := by
  have hvalid : c.val.toNat < 0xD800 ∨ 0xDFFF < c.val.toNat ∧ c.val.toNat < 0x110000 := c.valid
  have hc : Char.ofNat c.val.toNat = c := Char.ofNat_toNat c
  have hsize : c.utf8Size = (String.utf8EncodeChar c).length :=
    (String.length_utf8EncodeChar c).symm
  rw [hsize]
  unfold String.utf8EncodeChar
  dsimp only
  generalize c.val.toNat = v at hvalid hc
  split_ifs with h1 h2 h3
  · have hb : (UInt8.ofNat v).toNat = v := by rw [UInt8.toNat_ofNat']; omega
    have hlead := lead?_one (b := UInt8.ofNat v) (by omega)
    rw [List.singleton_append, scan_one hlead, hb, hc]
    rfl
  · have hb : (UInt8.ofNat (v / 64 % 32 + 192)).toNat = v / 64 + 192 := by
      rw [UInt8.toNat_ofNat']; omega
    have hx := toNat_continuation v
    have hlead := lead?_two (b := UInt8.ofNat (v / 64 % 32 + 192)) (by omega) (by omega)
    rw [List.cons_append, List.singleton_append, scan_lead hlead,
      scan_last (mem_tail (by omega) (by omega)), hb, hx,
      show (v / 64 + 192 - 0xC0) * 64 + (v % 64 + 128) % 64 = v by omega, hc]
    rfl
  · have hb : (UInt8.ofNat (v / 4096 % 16 + 224)).toNat = v / 4096 + 224 := by
      rw [UInt8.toNat_ofNat']; omega
    have hx := toNat_continuation (v / 64)
    have hy := toNat_continuation v
    obtain ⟨range, hlead, hrange⟩ :=
      lead?_three (b := UInt8.ofNat (v / 4096 % 16 + 224)) (by omega) (by omega)
    have hin := hrange (UInt8.ofNat (v / 64 % 64 + 128)) (by omega) (by omega) (by omega) (by omega)
    rw [List.cons_append, List.cons_append, List.singleton_append, scan_lead hlead, scan_more hin,
      scan_last (mem_tail (by omega) (by omega)), hb, hx, hy,
      show ((v / 4096 + 224 - 0xE0) * 64 + (v / 64 % 64 + 128) % 64) * 64 + (v % 64 + 128) % 64 = v
        by omega, hc]
    rfl
  · have hb : (UInt8.ofNat (v / 262144 % 8 + 240)).toNat = v / 262144 + 240 := by
      rw [UInt8.toNat_ofNat']; omega
    have hx := toNat_continuation (v / 4096)
    have hy := toNat_continuation (v / 64)
    have hz := toNat_continuation v
    obtain ⟨range, hlead, hrange⟩ :=
      lead?_four (b := UInt8.ofNat (v / 262144 % 8 + 240)) (by omega) (by omega)
    have hin := hrange (UInt8.ofNat (v / 4096 % 64 + 128)) (by omega) (by omega) (by omega)
      (by omega)
    rw [List.cons_append, List.cons_append, List.cons_append, List.singleton_append,
      scan_lead hlead, scan_more hin, scan_more (mem_tail (by omega) (by omega)),
      scan_last (mem_tail (by omega) (by omega)), hb, hx, hy, hz,
      show (((v / 262144 + 240 - 0xF0) * 64 + (v / 4096 % 64 + 128) % 64) * 64 +
        (v / 64 % 64 + 128) % 64) * 64 + (v % 64 + 128) % 64 = v by omega, hc]
    rfl

theorem scan_encode (text : List Char) :
    ∀ index : Nat, scan index none (encode text) = (text, none) := by
  induction text with
  | nil => intro index; rfl
  | cons c text ih =>
    intro index
    rw [encode_cons, scan_encodeChar, ih]

/-- **The bytes of a text spell it.** -/
theorem decode_encode (text : List Char) : decode (encode text) = .ok text := by
  rw [decode, decodePrefix, scan_encode]

/-! ### Only the bytes of texts are read -/

/-- Whatever bytes of the owed ranges follow, the bits become a character whose bytes are those taken
so far and these. -/
def Spells (bytes : List UInt8) (bits : Nat) : List Range → Prop
  | [] => String.utf8EncodeChar (Char.ofNat bits) = bytes
  | range :: owed => ∀ b, range.low ≤ b → b ≤ range.high →
    Spells (bytes ++ [b]) (bits * 64 + b.toNat % 64) owed

theorem val_ofNat {v : Nat} (h : v.isValidChar) : (Char.ofNat v).val.toNat = v := by
  unfold Char.ofNat
  rw [dif_pos h]
  rfl

theorem ofNat_eq {v : Nat} {b : UInt8} (h : v = b.toNat) : UInt8.ofNat v = b := by
  rw [h, UInt8.ofNat_toNat]

theorem spells_two {b : UInt8} (h : 0xC2 ≤ b.toNat) (h' : b.toNat < 0xE0) :
    Spells [b] (b.toNat - 0xC0) [tail] := by
  intro x hx hx'
  have hlow : 0x80 ≤ x.toNat := hx
  have hhigh : x.toNat ≤ 0xBF := hx'
  have hval := val_ofNat (v := (b.toNat - 0xC0) * 64 + x.toNat % 64) (.inl (by omega))
  unfold Spells String.utf8EncodeChar
  rw [hval]
  dsimp only
  rw [if_neg (by omega), if_pos (by omega), ofNat_eq (b := b) (by omega),
    ofNat_eq (b := x) (by omega)]
  rfl

theorem spells_three {b : UInt8} (range : Range) (h : 0xE0 ≤ b.toNat) (h' : b.toNat < 0xF0)
    (hrange : ∀ x : UInt8, range.low ≤ x → x ≤ range.high → 0x80 ≤ x.toNat ∧ x.toNat ≤ 0xBF ∧
      (b.toNat = 0xE0 → 0xA0 ≤ x.toNat) ∧ (b.toNat = 0xED → x.toNat ≤ 0x9F)) :
    Spells [b] (b.toNat - 0xE0) [range, tail] := by
  intro x hx hx' y hy hy'
  obtain ⟨hlow, hhigh, hshort, hsurrogate⟩ := hrange x hx hx'
  have hylow : 0x80 ≤ y.toNat := hy
  have hyhigh : y.toNat ≤ 0xBF := hy'
  have hval := val_ofNat (v := ((b.toNat - 0xE0) * 64 + x.toNat % 64) * 64 + y.toNat % 64) (by
    change _ < 0xD800 ∨ 0xDFFF < _ ∧ _ < 0x110000
    omega)
  unfold Spells String.utf8EncodeChar
  rw [hval]
  dsimp only
  rw [if_neg (by omega), if_neg (by omega), if_pos (by omega), ofNat_eq (b := b) (by omega),
    ofNat_eq (b := x) (by omega), ofNat_eq (b := y) (by omega)]
  rfl

theorem spells_four {b : UInt8} (range : Range) (h : 0xF0 ≤ b.toNat) (h' : b.toNat ≤ 0xF4)
    (hrange : ∀ x : UInt8, range.low ≤ x → x ≤ range.high → 0x80 ≤ x.toNat ∧ x.toNat ≤ 0xBF ∧
      (b.toNat = 0xF0 → 0x90 ≤ x.toNat) ∧ (b.toNat = 0xF4 → x.toNat ≤ 0x8F)) :
    Spells [b] (b.toNat - 0xF0) [range, tail, tail] := by
  intro x hx hx' y hy hy' z hz hz'
  obtain ⟨hlow, hhigh, hshort, hlast⟩ := hrange x hx hx'
  have hylow : 0x80 ≤ y.toNat := hy
  have hyhigh : y.toNat ≤ 0xBF := hy'
  have hzlow : 0x80 ≤ z.toNat := hz
  have hzhigh : z.toNat ≤ 0xBF := hz'
  have hval := val_ofNat (v := (((b.toNat - 0xF0) * 64 + x.toNat % 64) * 64 + y.toNat % 64) * 64 +
    z.toNat % 64) (by
      change _ < 0xD800 ∨ 0xDFFF < _ ∧ _ < 0x110000
      omega)
  unfold Spells String.utf8EncodeChar
  rw [hval]
  dsimp only
  rw [if_neg (by omega), if_neg (by omega), if_neg (by omega), ofNat_eq (b := b) (by omega),
    ofNat_eq (b := x) (by omega), ofNat_eq (b := y) (by omega), ofNat_eq (b := z) (by omega)]
  rfl

/-- The first byte of a character asks for bytes with which it spells one. -/
theorem spells_lead {b : UInt8} {bits taken : Nat} {owed : List Range}
    (h : lead? b = some ⟨bits, taken, owed⟩) : Spells [b] bits owed := by
  simp only [lead?, UInt8.lt_iff_toNat_lt, ← UInt8.toNat_inj, UInt8.reduceToNat] at h
  split_ifs at h with h1 h2 h3 h4 h5 h6 h7 h8 h9 <;>
    obtain ⟨rfl, -, rfl⟩ := Pending.mk.inj (Option.some.inj h)
  · unfold Spells String.utf8EncodeChar
    rw [val_ofNat (.inl (by omega))]
    dsimp only
    rw [if_pos (by omega), ofNat_eq rfl]
  · exact spells_two (by omega) h3
  · have hspells := spells_three (b := b) ⟨0xA0, 0xBF⟩ (by omega) (by omega)
      fun x (hx : 0xA0 ≤ x.toNat) (hx' : x.toNat ≤ 0xBF) => by omega
    rwa [h4] at hspells
  · have hspells := spells_three (b := b) ⟨0x80, 0x9F⟩ (by omega) (by omega)
      fun x (hx : 0x80 ≤ x.toNat) (hx' : x.toNat ≤ 0x9F) => by omega
    rwa [h5] at hspells
  · exact spells_three tail (by omega) h6
      fun x (hx : 0x80 ≤ x.toNat) (hx' : x.toNat ≤ 0xBF) => by omega
  · have hspells := spells_four (b := b) ⟨0x90, 0xBF⟩ (by omega) (by omega)
      fun x (hx : 0x90 ≤ x.toNat) (hx' : x.toNat ≤ 0xBF) => by omega
    rwa [h7] at hspells
  · exact spells_four tail (by omega) (by omega)
      fun x (hx : 0x80 ≤ x.toNat) (hx' : x.toNat ≤ 0xBF) => by omega
  · have hspells := spells_four (b := b) ⟨0x80, 0x8F⟩ (by omega) (by omega)
      fun x (hx : 0x80 ≤ x.toNat) (hx' : x.toNat ≤ 0x8F) => by omega
    rwa [h9] at hspells

/-- **What the reader takes are the bytes of the characters it finds**, also when it starts within a
character of which it has taken some bytes already. -/
theorem encode_of_scan (bytes : List UInt8) :
    (∀ index text, scan index none bytes = (text, none) → encode text = bytes) ∧
    ∀ index before bits taken range owed text, Spells before bits (range :: owed) →
      scan index (some ⟨bits, taken, range :: owed⟩) bytes = (text, none) →
        encode text = before ++ bytes := by
  induction bytes with
  | nil =>
    constructor
    · intro index text h
      cases h
      rfl
    · intro index before bits taken range owed text _ h
      cases h
  | cons b rest ih =>
    obtain ⟨ihnone, ihsome⟩ := ih
    constructor
    · intro index text h
      cases hlead : lead? b with
      | none =>
        rw [scan, hlead] at h
        cases h
      | some pending =>
        obtain ⟨bits, taken, owed⟩ := pending
        have hspells := spells_lead hlead
        cases owed with
        | nil =>
          rw [scan_one hlead] at h
          obtain ⟨rfl, hfault⟩ := Prod.mk.inj h
          rw [encode_cons, hspells, ihnone _ _ (Prod.ext rfl hfault)]
          rfl
        | cons range owed =>
          rw [scan_lead hlead] at h
          exact ihsome _ _ _ _ _ _ _ hspells h
    · intro index before bits taken range owed text hspells h
      by_cases hin : range.low ≤ b ∧ b ≤ range.high
      · have hnext := hspells b hin.1 hin.2
        cases owed with
        | nil =>
          rw [scan_last hin] at h
          obtain ⟨rfl, hfault⟩ := Prod.mk.inj h
          rw [encode_cons, hnext, ihnone _ _ (Prod.ext rfl hfault), List.append_assoc]
          rfl
        | cons next owed =>
          rw [scan_more hin] at h
          rw [ihsome _ _ _ _ _ _ _ hnext h, List.append_assoc]
          rfl
      · rw [scan, if_neg hin] at h
        cases h

/-- **Bytes are read exactly if they are the bytes of a text.** -/
theorem decode_eq_ok_iff {bytes : List UInt8} {text : List Char} :
    decode bytes = .ok text ↔ encode text = bytes := by
  constructor
  · intro h
    unfold decode decodePrefix at h
    split at h
    · next found hscan =>
      cases h
      exact (encode_of_scan bytes).1 0 _ hscan
    · cases h
  · rintro rfl
    exact decode_encode text

/-! ### Cutting -/

/-- The longest run of whole characters from the start of a text that takes at most so many
bytes. -/
structure IsLongest (limit : Nat) (text cut : List Char) : Prop where
  start : cut <+: text
  fits : (encode cut).length ≤ limit
  longest : ∀ other : List Char, other <+: text → (encode other).length ≤ limit → other <+: cut

theorem fitting_isLongest (text : List Char) :
    ∀ limit : Nat, IsLongest limit text (fitting limit text) := by
  induction text with
  | nil => intro limit; exact ⟨List.prefix_refl _, Nat.zero_le _, fun other h _ => h⟩
  | cons c text ih =>
    intro limit
    rw [fitting]
    split
    · next hfits =>
      obtain ⟨hstart, hlen, hlongest⟩ := ih (limit - c.utf8Size)
      refine ⟨(List.prefix_cons_inj c).2 hstart, ?_, fun other hother hle => ?_⟩
      · rw [length_encode_cons]
        omega
      · cases other with
        | nil => exact List.nil_prefix
        | cons d other =>
          obtain ⟨rfl, htext⟩ := List.cons_prefix_cons.1 hother
          rw [length_encode_cons] at hle
          exact (List.prefix_cons_inj d).2 (hlongest other htext (by omega))
    · next hfits =>
      refine ⟨List.nil_prefix, Nat.zero_le _, fun other hother hle => ?_⟩
      cases other with
      | nil => exact List.nil_prefix
      | cons d other =>
        obtain ⟨rfl, -⟩ := List.cons_prefix_cons.1 hother
        rw [length_encode_cons] at hle
        omega

end SpoolTag.Text.Utf8
