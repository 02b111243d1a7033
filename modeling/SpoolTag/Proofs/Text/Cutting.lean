import SpoolTag.Proofs.Text.Utf8

/-! # Cutting the bytes of a text

A text is cut to what a transaction carries, and no character may be split. Among the bytes of a text a
cut is possible before every byte that does not continue a character and at the end (`IsBoundary`);
these are the places where a run of whole characters ends (`isBoundary_encode_iff`). So the longest run
of whole characters that fits has the longest run of bytes that ends at a boundary (`IsLongest.cutsTo`),
it misses less than the four bytes of a character (`IsLongest.near`), and it is found by going
back from the limit to the first boundary (`IsLongest.encode_eq_truncate`). -/

namespace SpoolTag.Text.Utf8

/-! ### Boundaries -/

/-- The byte continues a character. -/
def Continues (b : UInt8) : Prop := tail.low ≤ b ∧ b ≤ tail.high

instance (b : UInt8) : Decidable (Continues b) := inferInstanceAs (Decidable (_ ∧ _))

/-- After so many bytes no character is open: the bytes end there, or the next one does not continue a
character. -/
def IsBoundary (bytes : List UInt8) (n : Nat) : Prop :=
  n = bytes.length ∨ ∃ b, bytes[n]? = some b ∧ ¬ Continues b

instance (bytes : List UInt8) (n : Nat) : Decidable (IsBoundary bytes n) :=
  decidable_of_iff (n = bytes.length ∨ bytes[n]?.any fun b => ¬ Continues b) (by
    simp [IsBoundary, Option.any_eq_true])

/-- The last boundary at or before so many bytes, by going back one byte at a time. -/
def boundaryUpTo (bytes : List UInt8) : Nat → Nat
  | 0 => 0
  | n + 1 => if IsBoundary bytes (n + 1) then n + 1 else boundaryUpTo bytes n

/-- The bytes of a text, cut back to a boundary if they are more than a limit. -/
def truncate (limit : Nat) (bytes : List UInt8) : List UInt8 :=
  if bytes.length ≤ limit then bytes else bytes.take (boundaryUpTo bytes limit)

/-- The longest run of bytes from the start that ends at a boundary and is not longer than a limit. -/
structure CutsTo (limit : Nat) (bytes cut : List UInt8) : Prop where
  start : cut <+: bytes
  fits : cut.length ≤ limit
  boundary : IsBoundary bytes cut.length
  longest : ∀ n ≤ limit, IsBoundary bytes n → n ≤ cut.length

theorem boundaryUpTo_eq {bytes : List UInt8} {n k : Nat} (hk : IsBoundary bytes k) (hle : k ≤ n)
    (hlast : ∀ j ≤ n, IsBoundary bytes j → j ≤ k) : boundaryUpTo bytes n = k := by
  induction n with
  | zero => exact (Nat.le_zero.1 hle).symm
  | succ n ih =>
    rw [boundaryUpTo]
    split
    · next h => exact Nat.le_antisymm (hlast _ (Nat.le_refl _) h) hle
    · next h =>
      have hne : k ≠ n + 1 := fun he => h (he ▸ hk)
      exact ih (by omega) fun j hj => hlast j (by omega)

/-! ### The bytes of a character -/

theorem continues_ofNat (v : Nat) : Continues (UInt8.ofNat (v % 64 + 128)) := by
  have hv := toNat_continuation v
  exact mem_tail (by omega) (by omega)

theorem not_continues {b : UInt8} (h : b.toNat < 0x80 ∨ 0xBF < b.toNat) : ¬ Continues b := by
  rintro ⟨hlow, hhigh⟩
  have hlow' : 0x80 ≤ b.toNat := hlow
  have hhigh' : b.toNat ≤ 0xBF := hhigh
  omega

/-- The first byte of a character does not continue one, and all others do. -/
theorem exists_encodeChar (c : Char) : ∃ first rest, String.utf8EncodeChar c = first :: rest ∧
    ¬ Continues first ∧ ∀ b ∈ rest, Continues b := by
  have hvalid : c.val.toNat < 0xD800 ∨ 0xDFFF < c.val.toNat ∧ c.val.toNat < 0x110000 := c.valid
  unfold String.utf8EncodeChar
  dsimp only
  generalize c.val.toNat = v at hvalid
  split_ifs with h1 h2 h3
  · refine ⟨_, _, rfl, not_continues (.inl ?_), List.forall_mem_nil _⟩
    rw [UInt8.toNat_ofNat']
    omega
  · refine ⟨_, _, rfl, not_continues (.inr ?_), ?_⟩
    · rw [UInt8.toNat_ofNat']
      omega
    · exact List.forall_mem_cons.2 ⟨continues_ofNat _, List.forall_mem_nil _⟩
  · refine ⟨_, _, rfl, not_continues (.inr ?_), ?_⟩
    · rw [UInt8.toNat_ofNat']
      omega
    · exact List.forall_mem_cons.2 ⟨continues_ofNat _, List.forall_mem_cons.2
        ⟨continues_ofNat _, List.forall_mem_nil _⟩⟩
  · refine ⟨_, _, rfl, not_continues (.inr ?_), ?_⟩
    · rw [UInt8.toNat_ofNat']
      omega
    · exact List.forall_mem_cons.2 ⟨continues_ofNat _, List.forall_mem_cons.2
        ⟨continues_ofNat _, List.forall_mem_cons.2 ⟨continues_ofNat _, List.forall_mem_nil _⟩⟩⟩

/-! ### The bytes of a text -/

/-- A boundary is at the start, or it is one of the bytes after the first character. -/
theorem isBoundary_encode_cons (c : Char) (text : List Char) (n : Nat) :
    IsBoundary (encode (c :: text)) n ↔
      n = 0 ∨ c.utf8Size ≤ n ∧ IsBoundary (encode text) (n - c.utf8Size) := by
  have hpos := c.utf8Size_pos
  have hsize : (String.utf8EncodeChar c).length = c.utf8Size := String.length_utf8EncodeChar c
  unfold IsBoundary
  rw [length_encode_cons, encode_cons]
  by_cases hn : n < c.utf8Size
  · rw [List.getElem?_append_left (by omega)]
    obtain ⟨first, rest, hchar, hfirst, hrest⟩ := exists_encodeChar c
    rw [hchar] at hsize ⊢
    constructor
    · rintro (hend | ⟨b, hb, hcontinues⟩)
      · omega
      · cases n with
        | zero => exact .inl rfl
        | succ n => exact absurd (hrest b (List.mem_of_getElem? hb)) hcontinues
    · rintro (rfl | ⟨hle, -⟩)
      · exact .inr ⟨first, rfl, hfirst⟩
      · omega
  · rw [List.getElem?_append_right (by omega), hsize]
    constructor
    · rintro (hend | hbyte)
      · exact .inr ⟨by omega, .inl (by omega)⟩
      · exact .inr ⟨by omega, .inr hbyte⟩
    · rintro (rfl | ⟨-, hend | hbyte⟩)
      · omega
      · exact .inl (by omega)
      · exact .inr hbyte

/-- **The boundaries of a text** are where its runs of whole characters end. -/
theorem isBoundary_encode_iff (text : List Char) :
    ∀ n, IsBoundary (encode text) n ↔ ∃ cut, cut <+: text ∧ (encode cut).length = n := by
  induction text with
  | nil =>
    intro n
    constructor
    · rintro (rfl | ⟨b, hb, -⟩)
      · exact ⟨[], List.nil_prefix, rfl⟩
      · cases hb
    · rintro ⟨cut, hcut, rfl⟩
      rw [List.prefix_nil.1 hcut]
      exact .inl rfl
  | cons c text ih =>
    intro n
    rw [isBoundary_encode_cons, ih]
    constructor
    · rintro (rfl | ⟨hle, cut, hcut, hlength⟩)
      · exact ⟨[], List.nil_prefix, rfl⟩
      · refine ⟨c :: cut, (List.prefix_cons_inj c).2 hcut, ?_⟩
        rw [length_encode_cons]
        omega
    · rintro ⟨cut, hcut, rfl⟩
      cases cut with
      | nil => exact .inl rfl
      | cons d cut =>
        obtain ⟨rfl, hprefix⟩ := List.cons_prefix_cons.1 hcut
        rw [length_encode_cons]
        exact .inr ⟨by omega, cut, hprefix, by omega⟩

theorem encode_append (text more : List Char) : encode (text ++ more) = encode text ++ encode more :=
  List.flatMap_append

theorem prefix_encode {cut text : List Char} (h : cut <+: text) : encode cut <+: encode text := by
  obtain ⟨rest, rfl⟩ := h
  exact ⟨encode rest, (encode_append cut rest).symm⟩

/-! ### The longest run -/

namespace IsLongest

variable {limit : Nat} {text cut : List Char} (h : IsLongest limit text cut)
include h

/-- A text that fits is not cut. -/
theorem eq_of_fits (hfits : (encode text).length ≤ limit) : cut = text :=
  h.start.eq_of_length_le (h.longest text (List.prefix_refl _) hfits).length_le

/-- **The bytes of the longest run are the longest that end at a boundary.** -/
theorem cutsTo : CutsTo limit (encode text) (encode cut) where
  start := prefix_encode h.start
  fits := h.fits
  boundary := (isBoundary_encode_iff text _).2 ⟨cut, h.start, rfl⟩
  longest n hn hboundary := by
    obtain ⟨other, hother, rfl⟩ := (isBoundary_encode_iff text n).1 hboundary
    exact (prefix_encode (h.longest other hother hn)).length_le

/-- What is missing to the limit is less than a character. -/
theorem near (hlong : limit < (encode text).length) : limit < (encode cut).length + 4 := by
  obtain ⟨rest, rfl⟩ := h.start
  cases rest with
  | nil =>
    rw [List.append_nil] at hlong
    exact absurd h.fits (Nat.not_le.2 hlong)
  | cons c rest =>
    have hnext : cut ++ [c] <+: cut ++ c :: rest := ⟨rest, by simp⟩
    have hlength : (encode (cut ++ [c])).length = (encode cut).length + c.utf8Size := by
      rw [encode_append, List.length_append, length_encode_cons]
      rfl
    have hsize : c.utf8Size ≤ 4 := c.utf8Size_le_four
    refine Nat.lt_of_not_le fun hle => ?_
    have hlonger := (h.longest _ hnext (by omega)).length_le
    rw [List.length_append, List.length_singleton] at hlonger
    omega

/-- **Going back from the limit finds the longest run.** -/
theorem encode_eq_truncate : encode cut = truncate limit (encode text) := by
  unfold truncate
  split
  · next hfits => rw [h.eq_of_fits hfits]
  · have hcuts := h.cutsTo
    rw [boundaryUpTo_eq hcuts.boundary hcuts.fits hcuts.longest]
    exact List.prefix_iff_eq_take.1 hcuts.start

end IsLongest

end SpoolTag.Text.Utf8
