import SpoolTag.Proofs.Manager.Rewriting

/-! # How long a document is

The document of a record that was read from a tag is short (`length_text_le`): its name and its
numbers are, and it has no more optional fields than there are optional registers. The numeral of a
single-precision number has few digits because the shortest decimal has few and its power of ten is
small (`length_numeral_le`). -/

namespace SpoolTag

open SpoolTag.Json
open SpoolTag.Number

/-- A character takes four bytes at most. -/
theorem Text.Utf8.length_encode_le (text : List Char) :
    (Text.Utf8.encode text).length ≤ 4 * text.length := by
  induction text with
  | nil => exact Nat.le_refl _
  | cons c rest ih =>
    have hc := c.utf8Size_le_four
    rw [Text.Utf8.length_encode_cons, List.length_cons]
    omega

/-- A character takes a byte at least. -/
theorem Text.Utf8.length_le_length_encode (text : List Char) :
    text.length ≤ (Text.Utf8.encode text).length := by
  induction text with
  | nil => exact Nat.le_refl _
  | cons c rest ih =>
    have hc := c.utf8Size_pos
    rw [Text.Utf8.length_encode_cons, List.length_cons]
    omega

namespace Json

/-! ### Numerals -/

/-- Room for a numeral with either sign, a point and an exponent. -/
def extent (n : Numeral) : Nat :=
  n.whole.length + n.fraction.length + n.exponent.elim 0 (fun e => e.digits.length + 2) + 2

theorem length_numeral_le (n : Numeral) : n.text.length ≤ extent n := by
  have hsign : (if n.negative then ['-'] else []).length ≤ 1 := by split <;> simp
  have hfraction : (if n.fraction = [] then [] else '.' :: n.fraction).length ≤
      n.fraction.length + 1 := by split <;> simp
  unfold Numeral.text extent
  rw [List.length_append, List.length_append, List.length_append]
  cases n.exponent with
  | none =>
    dsimp only [Option.elim, List.length_nil]
    omega
  | some e =>
    dsimp only [Option.elim, List.length_cons]
    omega

theorem length_toDigits_le {n k : Nat} (h : n < 10 ^ (k + 1)) : (Nat.toDigits 10 n).length ≤ k + 1 :=
  (Nat.length_toDigits_le_iff (by decide) (by omega)).2 h

theorem length_int_le {i : Int} (h : i.natAbs < 10 ^ 10) : (Document.int i).text.length ≤ 12 := by
  have htext := length_numeral_le (.ofInt i)
  have hdigits := length_toDigits_le h
  change (Numeral.ofInt i).text.length ≤ (Nat.toDigits 10 i.natAbs).length + 0 + 0 + 2 at htext
  change (Numeral.ofInt i).text.length ≤ 12
  omega

section Decimal

variable {d : Decimal} (h : d.exponent.natAbs ≤ 46) (hdigits : d.digits.length ≤ 10)

include h hdigits

theorem extent_positional_le : extent (d.positional true) ≤ 60 := by
  unfold Decimal.positional extent
  dsimp only
  split
  · simp only [List.length_append, List.length_replicate, if_true, List.length_cons, List.length_nil,
      Option.elim]
    omega
  · split
    · simp only [List.length_take, List.length_drop, Option.elim]
      omega
    · simp only [List.length_append, List.length_replicate, List.length_cons, List.length_nil,
        Option.elim]
      omega

theorem extent_scientific_le : extent d.scientific ≤ 60 := by
  have hleading : d.leading.natAbs < 10 ^ 2 := by
    unfold Decimal.leading
    omega
  have hexponent := length_toDigits_le hleading
  unfold Decimal.scientific extent
  simp only [List.length_take, List.length_drop, Option.elim]
  omega

end Decimal

theorem length_single_le (x : Single) : (Document.single x).text.length ≤ 60 := by
  unfold Document.single Single.numeral?
  by_cases hfinite : x.isFinite = true
  · rw [if_pos hfinite]
    refine (length_numeral_le _).trans ?_
    change extent (if x.magnitude = 0 then (⟨0, 0⟩ : Decimal).positional true
      else Style.documentSingle.decimal (Format.single.shortest .even x.magnitude)) ≤ 60
    split
    · decide
    · next hzero =>
      have hb : x.magnitude < Format.single.infinity := of_decide_eq_true hfinite
      have hshortest := Format.shortest_single .even (Nat.pos_of_ne_zero hzero) hb
      obtain ⟨hlow, hhigh, hcoefficient⟩ :=
        shortest_range (Nat.pos_of_ne_zero hzero) hb hshortest
      have hdigits := length_toDigits_le (hcoefficient.trans (show 2 ^ 31 < 10 ^ 10 by decide))
      unfold Style.decimal
      split
      · exact extent_positional_le (by omega) hdigits
      · exact extent_scientific_le (by omega) hdigits
  · rw [if_neg hfinite]
    decide

/-! ### Texts -/

theorem length_escape_le (c : Char) : (escape c).length ≤ 6 := by
  unfold escape
  repeat' split
  all_goals simp

theorem length_quote_le (s : String) : (quote s).length ≤ 6 * s.toList.length + 2 := by
  have hsum : (s.toList.flatMap escape).length ≤ s.toList.length * 6 := by
    rw [List.length_flatMap]
    refine (List.sum_le_card_nsmul _ 6 ?_).trans (le_of_eq ?_)
    · intro n hn
      obtain ⟨c, -, rfl⟩ := List.mem_map.1 hn
      exact length_escape_le c
    · rw [List.length_map, smul_eq_mul]
  rw [quote, List.length_append, List.length_cons]
  simp only [List.length_cons, List.length_nil]
  omega

theorem length_membersText_le {members : List (String × Document)} {room : Nat}
    (h : ∀ member ∈ members, (quote member.1).length + member.2.text.length ≤ room) :
    (Document.membersText members).length ≤ members.length * (room + 2) := by
  induction members with
  | nil => exact Nat.zero_le _
  | cons head rest ih =>
    obtain ⟨key, d⟩ := head
    have hhead := h _ List.mem_cons_self
    have hrest := ih fun member hmem => h member (List.mem_cons_of_mem _ hmem)
    dsimp only at hhead
    rw [List.length_cons, Nat.add_one_mul]
    cases rest with
    | nil =>
      rw [Document.membersText]
      simp only [List.length_append, List.length_cons]
      omega
    | cons next others =>
      rw [Document.membersText, List.length_append, List.length_append, List.length_cons,
        List.length_cons]
      · omega
      · exact List.cons_ne_nil _ _

end Json

/-! ### Records -/

theorem Value.length_document_le (v : Value) : v.document.text.length ≤ 60 := by
  cases v with
  | bool b => cases b <;> decide
  | int32 i =>
    have hlow := i.le_toInt
    have hhigh := i.toInt_lt
    exact (length_int_le (by omega)).trans (by decide)
  | byte b =>
    have hb := b.toNat_lt
    exact (length_int_le (by omega)).trans (by decide)
  | float32 x => exact length_single_le x

namespace Record

variable {c : Catalog} {record : Record}

/-- A record has no more optional fields than there are optional registers. -/
theorem OfTag.length_optional_le (h : record.OfTag c) :
    record.optional.entries.length ≤ c.optional.length := by
  have hnodup : record.optional.names.Nodup :=
    (List.pairwise_map.2 record.optional.ascending).imp String.ne_of_lt
  have hsubset : record.optional.names ⊆ c.optional.map Register.name := by
    intro key hkey
    obtain ⟨entry, hentry, rfl⟩ := List.mem_map.1 hkey
    obtain ⟨v, hv⟩ := Option.ne_none_iff_exists'.1 (Entries.get?_ne_none hentry)
    obtain ⟨r, hr, hname, -⟩ := h.optional _ v hv
    exact List.mem_map.2 ⟨r, hr, hname⟩
  have hlength := (List.subperm_of_subset hnodup hsubset).length_le
  rw [List.length_map] at hlength
  exact (List.length_map (f := Prod.fst)).symm.trans_le hlength

/-- **The document of a record that was read from a tag is short**, as long as the names of the
optional registers are. -/
theorem OfTag.length_text_le (h : record.OfTag c)
    (hnames : ∀ r ∈ c.optional, r.name.toList.length ≤ 32) :
    record.document.text.length ≤ 4096 := by
  have hint (i : Int32) : (Document.int i.toInt).text.length ≤ 12 := by
    have hlow := i.le_toInt
    have hhigh := i.toInt_lt
    exact length_int_le (by omega)
  have hkey (field : Mandatory) : (quote field.key).length ≤ 14 := by cases field <;> decide
  have hname : (Document.string record.name).text.length ≤ 6 * 32 + 2 := by
    have hchars : record.name.toList.length ≤ 32 :=
      (Text.Utf8.length_le_length_encode _).trans h.fits
    exact (length_quote_le record.name).trans (by omega)
  have hentries : ∀ entry ∈ record.optional.entries.members,
      (quote entry.1).length + entry.2.text.length ≤ 256 := by
    intro entry hentry
    obtain ⟨⟨key, v⟩, hv, rfl⟩ := List.mem_map.1 hentry
    obtain ⟨w, hw⟩ := Option.ne_none_iff_exists'.1 (Entries.get?_ne_none hv)
    obtain ⟨r, hr, hkey, -⟩ := h.optional key w hw
    have hquote := length_quote_le key
    have hdocument := v.length_document_le
    rw [← hkey] at hquote ⊢
    have hshort := hnames r hr
    dsimp only
    omega
  have hmembers : ∀ member ∈ record.members,
      (quote member.1).length + member.2.text.length ≤ 256 := by
    intro member hmember
    rcases List.mem_append.1 hmember with hfixed | hentry
    · simp only [List.mem_cons, List.not_mem_nil, or_false] at hfixed
      rcases hfixed with rfl | rfl | rfl | rfl
      · exact (Nat.add_le_add (hkey .id) (hint record.id)).trans (by decide)
      · exact (Nat.add_le_add (hkey .name) hname).trans (by decide)
      · exact (Nat.add_le_add (hkey .spoolWeight) (hint record.spoolWeight)).trans (by decide)
      · exact (Nat.add_le_add (hkey .totalWeight) (hint record.totalWeight)).trans (by decide)
    · exact hentries member hentry
  have hoptional := h.length_optional_le.trans c.length_optional_le
  have hcount : record.members.length ≤ 12 := by
    rw [members, List.length_append, List.length_map]
    exact Nat.add_le_add_left hoptional 4
  have htext := length_membersText_le hmembers
  change ('{' :: Document.membersText record.members ++ ['}']).length ≤ 4096
  simp only [List.length_append, List.length_cons, List.length_nil]
  have := Nat.mul_le_mul_right 258 hcount
  omega

end Record

end SpoolTag
