import SpoolTag.Proofs.Catalog.Layout

/-! # Which lists of registers form a catalog

A list of registers is `Acceptable` if no name and no address occurs twice in it and if it has a register
for the bitmap: a byte below the last address, after which come at most eight registers besides the
operation register, none of them a string, at the addresses that follow one another.

* `ofRegisters_ok_iff`: these lists form a catalog, and no others do.
* `layout_of_perm`: the order of the list plays no part for what the bitmap relies on.
* `formed_exactly`: both together, with what the catalog makes of the list.

The checks look for the first thing that is wrong, one after the other, and each of them has a lemma that
says when it finds nothing. What takes an argument is the run of the optional registers: sorted by
their addresses they stand where the bitmap looks for them (`addresses_covered`), because a sorted
list is known from its members. -/

namespace SpoolTag

namespace Layout

/-! ### Checks that find nothing -/

theorem repetition?_of_nodup {registers : List Register} :
    ∀ {names : List String} {addresses : List UInt8},
      (registers.map Register.name).Nodup → (∀ r ∈ registers, r.name ∉ names) →
      (registers.map Register.address).Nodup → (∀ r ∈ registers, r.address ∉ addresses) →
        repetition? names addresses registers = none := by
  induction registers with
  | nil => intros; rfl
  | cons r rest ih =>
    intro names addresses hn hn' ha ha'
    rw [List.map_cons, List.nodup_cons] at hn ha
    rw [repetition?, if_neg (hn' r List.mem_cons_self), if_neg (ha' r List.mem_cons_self)]
    refine ih hn.2 (fun s hs => ?_) ha.2 (fun s hs => ?_)
    · have hne : s.name ≠ r.name := fun h => hn.1 (h ▸ List.mem_map_of_mem hs)
      simp [hne, hn' s (List.mem_cons_of_mem _ hs)]
    · have hne : s.address ≠ r.address := fun h => ha.1 (h ▸ List.mem_map_of_mem hs)
      simp [hne, ha' s (List.mem_cons_of_mem _ hs)]

theorem misfit?_of_run {start : UInt8} {registers : List Register} :
    ∀ {next : Nat}, registers.map (·.address.toNat) = List.range' next registers.length →
      (∀ r ∈ registers, r.kind ≠ .utf8String) → misfit? start next registers = none := by
  induction registers with
  | nil => intros; rfl
  | cons r rest ih =>
    intro next haddresses hkinds
    rw [List.map_cons, List.length_cons, List.range'_succ, List.cons.injEq] at haddresses
    have hwidth : r.kind.width? ≠ none := by
      have := hkinds r List.mem_cons_self
      revert this
      cases r.kind <;> simp [Kind.width?]
    rw [misfit?, if_neg (not_not.2 haddresses.1), if_neg hwidth]
    exact ih haddresses.2 fun s hs => hkinds s (List.mem_cons_of_mem _ hs)

/-! ### Sorting -/

theorem sorted_insertByAddress (r : Register) {registers : List Register}
    (h : registers.Pairwise fun r s => r.address ≤ s.address) :
    (insertByAddress r registers).Pairwise fun r s => r.address ≤ s.address := by
  induction registers with
  | nil => simp [insertByAddress]
  | cons s rest ih =>
    have hrest := (List.pairwise_cons.1 h).1
    rw [insertByAddress]
    split
    · next hle =>
      refine List.pairwise_cons.2 ⟨fun t ht => ?_, h⟩
      rcases List.mem_cons.1 ht with rfl | ht
      · exact hle
      · exact UInt8.le_trans hle (hrest t ht)
    · next hnot =>
      refine List.pairwise_cons.2 ⟨fun t ht => ?_, ih h.of_cons⟩
      rcases List.mem_cons.1 ((insertByAddress_perm r rest).mem_iff.1 ht) with rfl | ht
      · exact UInt8.le_of_lt (UInt8.not_le.1 hnot)
      · exact hrest t ht

theorem sorted_sortByAddress (registers : List Register) :
    (sortByAddress registers).Pairwise fun r s => r.address ≤ s.address := by
  induction registers with
  | nil => exact List.Pairwise.nil
  | cons r rest ih => exact sorted_insertByAddress r ih

/-- **A run without a gap, once sorted, stands in the order of its bits.** -/
theorem addresses_covered {start : UInt8} {registers : List Register} {first n : Nat}
    (h : ((covered start registers).map (·.address.toNat)).Perm (List.range' first n)) :
    (covered start registers).map (·.address.toNat) = List.range' first n := by
  have hsorted : ((covered start registers).map (·.address.toNat)).Pairwise (· ≤ ·) := by
    rw [List.pairwise_map]
    exact sorted_sortByAddress _
  have hrange : (List.range' first n).Pairwise (· ≤ ·) :=
    List.pairwise_le_range' _
  exact h.eq_of_pairwise (fun _ _ _ _ => Nat.le_antisymm) hsorted hrange

/-! ### Lists that the bitmap can rely on -/

/-- The registers behind an address, except the operation register. -/
def behind (address : UInt8) (registers : List Register) : List Register :=
  registers.filter fun r => address < r.address ∧ r.name ≠ Register.operation

/-- The register is one for the bitmap, and it can tell of every register behind it. -/
structure Governs (bitmap : Register) (registers : List Register) : Prop where
  mem : bitmap ∈ registers
  name : bitmap.name = Register.optBitmap
  kind : bitmap.kind = .byte
  address : bitmap.address.toNat < 255
  few : (behind bitmap.address registers).length ≤ 8
  noString : ∀ r ∈ behind bitmap.address registers, r.kind ≠ .utf8String
  gapless : ((behind bitmap.address registers).map (·.address.toNat)).Perm
    (List.range' (bitmap.address.toNat + 1) (behind bitmap.address registers).length)

/-- What a list of registers has to be for a catalog. -/
structure Acceptable (registers : List Register) : Prop where
  names : (registers.map Register.name).Nodup
  addresses : (registers.map Register.address).Nodup
  governed : ∃ bitmap, Governs bitmap registers

section Behind

variable {bitmap : Register} {registers others : List Register}

theorem toNat_next {address : UInt8} (h : address.toNat < 255) :
    (address + 1).toNat = address.toNat + 1 := by
  rw [UInt8.toNat_add]
  simp only [UInt8.reduceToNat]
  omega

/-- What is covered from the next address on is what is behind an address. -/
theorem covered_perm {address : UInt8} (h : address.toNat < 255) :
    (covered (address + 1) registers).Perm (behind address registers) := by
  have hfilter : (registers.filter fun r => address + 1 ≤ r.address && r.name != Register.operation) =
      behind address registers := by
    unfold behind
    congr 1
    funext r
    have hnext := toNat_next h
    have hiff : address + 1 ≤ r.address ↔ address < r.address := by
      rw [UInt8.le_iff_toNat_le, UInt8.lt_iff_toNat_lt]
      omega
    by_cases hname : r.name = Register.operation <;> simp [hiff, hname]
  unfold covered
  rw [hfilter]
  exact sortByAddress_perm _

theorem behind_perm (address : UInt8) (h : registers.Perm others) :
    (behind address registers).Perm (behind address others) := h.filter _

theorem Governs.of_perm (h : Governs bitmap registers) (hperm : registers.Perm others) :
    Governs bitmap others := by
  have hbehind := behind_perm bitmap.address hperm
  refine ⟨hperm.mem_iff.1 h.mem, h.name, h.kind, h.address, ?_, fun r hr => ?_, ?_⟩
  · rw [← hbehind.length_eq]
    exact h.few
  · exact h.noString r (hbehind.mem_iff.2 hr)
  · rw [← hbehind.length_eq]
    exact (hbehind.map _).symm.trans h.gapless

theorem Acceptable.of_perm (h : Acceptable registers) (hperm : registers.Perm others) :
    Acceptable others := by
  obtain ⟨hnames, haddresses, bitmap, hgoverns⟩ := h
  exact ⟨(hperm.map _).nodup_iff.1 hnames, (hperm.map _).nodup_iff.1 haddresses, bitmap,
    hgoverns.of_perm hperm⟩

/-- The register of the bitmap is found. -/
theorem Acceptable.find? (h : Acceptable registers) (hgoverns : Governs bitmap registers) :
    registers.find? (·.name == Register.optBitmap) = some bitmap := by
  cases hfind : registers.find? (·.name == Register.optBitmap) with
  | none =>
    have := List.find?_eq_none.1 hfind bitmap hgoverns.mem
    simp [hgoverns.name] at this
  | some r =>
    have hname : r.name = bitmap.name := by
      rw [hgoverns.name]
      simpa using List.find?_some hfind
    rw [List.inj_on_of_nodup_map h.names (List.mem_of_find?_eq_some hfind) hgoverns.mem hname]

/-- **An acceptable list has a layout.** -/
theorem Acceptable.of_eq_ok (h : Acceptable registers) (hgoverns : Governs bitmap registers) :
    of registers = .ok ⟨bitmap.address + 1, covered (bitmap.address + 1) registers⟩ := by
  have hperm : (covered (bitmap.address + 1) registers).Perm (behind bitmap.address registers) :=
    covered_perm hgoverns.address
  have hrun : (covered (bitmap.address + 1) registers).map (·.address.toNat) =
      List.range' (bitmap.address + 1).toNat (covered (bitmap.address + 1) registers).length := by
    refine addresses_covered ((hperm.map _).trans ?_)
    rw [toNat_next hgoverns.address, hperm.length_eq]
    exact hgoverns.gapless
  have hfit : misfit? (bitmap.address + 1) (bitmap.address + 1).toNat
      (covered (bitmap.address + 1) registers) = none :=
    misfit?_of_run hrun fun r hr => hgoverns.noString r (hperm.mem_iff.1 hr)
  have hrepeat : repetition? [] [] registers = none :=
    repetition?_of_nodup h.names (by simp) h.addresses (by simp)
  have hlast : bitmap.address ≠ 0xFF := by
    intro heq
    have := hgoverns.address
    rw [heq] at this
    exact absurd this (by decide)
  unfold of
  rw [hrepeat, h.find? hgoverns]
  dsimp only
  rw [if_neg (not_not.2 hgoverns.kind), if_neg hlast, hperm.length_eq,
    if_neg (Nat.not_lt.2 hgoverns.few), hfit]

end Behind

end Layout

namespace Catalog

open Layout

variable {registers : List Register} {c : Catalog}

/-- The register of the bitmap governs the registers of a catalog. -/
theorem governs_bitmapRegister (c : Catalog) : Governs c.bitmapRegister c.registers := by
  have hstart := c.start_pos
  have hlt := c.start.toNat_lt
  have hone : (1 : UInt8) ≤ c.start := UInt8.le_iff_toNat_le.2 hstart
  have haddress : c.bitmapRegister.address.toNat + 1 = c.start.toNat := by
    change (c.start - 1).toNat + 1 = _
    rw [UInt8.toNat_sub_of_le _ _ hone]
    simp only [UInt8.reduceToNat]
    omega
  have hnext : c.bitmapRegister.address + 1 = c.start := UInt8.sub_add_cancel _ _
  have hoptional : c.optional = covered (c.bitmapRegister.address + 1) c.registers := by
    rw [hnext]
    exact (Layout.of_eq_ok c.sound).2.2.1
  have hperm : c.optional.Perm (behind c.bitmapRegister.address c.registers) := by
    rw [hoptional]
    exact covered_perm (by omega)
  refine ⟨bitmap_mem, rfl, rfl, by omega, ?_, fun r hr => ?_, ?_⟩
  · rw [← hperm.length_eq]
    exact length_optional_le
  · exact width_of_mem_optional (hperm.mem_iff.2 hr)
  · rw [haddress, ← hperm.length_eq]
    refine (hperm.map _).symm.trans (List.Perm.of_eq (List.ext_getElem (by simp) ?_))
    intro i hi _
    simp only [List.length_map] at hi
    simp [address_optional i hi]

theorem acceptable (c : Catalog) : Acceptable c.registers :=
  ⟨c.nodup_names, c.nodup_addresses, _, c.governs_bitmapRegister⟩

/-- A list has one register for the bitmap at most. -/
theorem eq_bitmapRegister {bitmap : Register} (h : Governs bitmap c.registers) :
    bitmap = c.bitmapRegister :=
  eq_of_name_eq h.mem bitmap_mem (h.name.trans rfl)

theorem ofRegisters_of_layout {layout : Layout} (h : Layout.of registers = .ok layout) :
    ofRegisters registers = .ok ⟨registers, layout, h⟩ := by
  unfold ofRegisters
  split
  · next layout' h' =>
    rw [h] at h'
    cases h'
    rfl
  · next fault h' =>
    rw [h] at h'
    cases h'

theorem registers_of_ofRegisters (h : ofRegisters registers = .ok c) : c.registers = registers := by
  unfold ofRegisters at h
  split at h
  · cases h
    rfl
  · cases h

/-- **The lists that form a catalog** are the acceptable ones. -/
theorem ofRegisters_ok_iff (registers : List Register) :
    (∃ c, ofRegisters registers = .ok c) ↔ Acceptable registers := by
  constructor
  · rintro ⟨c, hc⟩
    exact registers_of_ofRegisters hc ▸ c.acceptable
  · intro h
    obtain ⟨bitmap, hgoverns⟩ := h.governed
    exact ⟨_, ofRegisters_of_layout (h.of_eq_ok hgoverns)⟩

theorem ofRegisters_cases (registers : List Register) :
    (∃ c, ofRegisters registers = .ok c) ∨
      ∃ fault, ofRegisters registers = .error (.invalidCatalog fault) := by
  unfold ofRegisters
  split
  · exact .inl ⟨_, rfl⟩
  · exact .inr ⟨_, rfl⟩

/-- **The order of the list plays no part** for what the bitmap relies on. -/
theorem layout_of_perm {c' : Catalog} (h : c'.registers.Perm c.registers) : c'.layout = c.layout := by
  have hgoverns : Governs c'.bitmapRegister c.registers := c'.governs_bitmapRegister.of_perm h
  have hbitmap := eq_bitmapRegister hgoverns
  have hstart : c'.start = c.start := by
    have haddress : c'.start - 1 = c.start - 1 := congrArg Register.address hbitmap
    rw [← UInt8.sub_add_cancel c'.start 1, haddress, UInt8.sub_add_cancel]
  have hmem (r : Register) : r ∈ c'.optional ↔ r ∈ c.optional := by
    rw [mem_optional, mem_optional, hstart, h.mem_iff]
  have hoptional : c'.optional = c.optional := by
    have hperm : c'.optional.Perm c.optional :=
      (List.perm_ext_iff_of_nodup (nodup_of_ascending c'.sorted_optional)
        (nodup_of_ascending c.sorted_optional)).2 hmem
    refine hperm.eq_of_pairwise (fun r s _ _ hrs hsr => ?_) c'.sorted_optional c.sorted_optional
    exact absurd (UInt8.lt_trans hrs hsr) (UInt8.lt_irrefl _)
  change (⟨c'.start, c'.optional⟩ : Layout) = ⟨c.start, c.optional⟩
  rw [hstart, hoptional]

/-- **A list of registers forms a catalog exactly if the bitmap can rely on it.** The catalog keeps the
list as it is, and its optional registers are those behind the bitmap, each at the address of its bit;
any other order of the list gives the same of that, or none at all. -/
theorem formed_exactly (registers : List Register) :
    ((∃ c, ofRegisters registers = .ok c) ↔ Acceptable registers) ∧
    (¬ Acceptable registers → ∃ fault, ofRegisters registers = .error (.invalidCatalog fault)) ∧
    (∀ c, ofRegisters registers = .ok c → c.registers = registers ∧
      ∃ bitmap, Governs bitmap registers ∧ c.start.toNat = bitmap.address.toNat + 1 ∧
        c.optional.Perm (behind bitmap.address registers) ∧
        ∀ (i : Nat) (hi : i < c.optional.length),
          c.optional[i].address.toNat = c.start.toNat + i) ∧
    ∀ others, others.Perm registers →
      (ofRegisters others).toOption.map (fun c => (c.start, c.optional)) =
        (ofRegisters registers).toOption.map (fun c => (c.start, c.optional)) := by
  refine ⟨ofRegisters_ok_iff registers, fun hnot => ?_, fun c hc => ?_, fun others hperm => ?_⟩
  · exact (ofRegisters_cases registers).resolve_left fun h => hnot ((ofRegisters_ok_iff _).1 h)
  · obtain rfl := registers_of_ofRegisters hc
    have hgoverns := c.governs_bitmapRegister
    have hnext : c.bitmapRegister.address + 1 = c.start := UInt8.sub_add_cancel _ _
    refine ⟨rfl, _, hgoverns, ?_, ?_, address_optional⟩
    · rw [← hnext, toNat_next hgoverns.address]
    · have hoptional : c.optional = covered c.start c.registers := (Layout.of_eq_ok c.sound).2.2.1
      rw [hoptional, ← hnext]
      exact covered_perm hgoverns.address
  · rcases ofRegisters_cases registers with ⟨c, hc⟩ | ⟨fault, hfault⟩
    · have haccepted : Acceptable others := ((ofRegisters_ok_iff _).1 ⟨c, hc⟩).of_perm hperm.symm
      obtain ⟨c', hc'⟩ := (ofRegisters_ok_iff others).2 haccepted
      have hlayout : c'.layout = c.layout := by
        refine layout_of_perm ?_
        rw [registers_of_ofRegisters hc, registers_of_ofRegisters hc']
        exact hperm
      rw [hc, hc']
      exact congrArg (fun layout => some (layout.start, layout.optional)) hlayout
    · have hrejected : ¬ Acceptable registers := by
        rw [← ofRegisters_ok_iff, hfault]
        rintro ⟨c, ⟨⟩⟩
      obtain ⟨fault', hfault'⟩ := (ofRegisters_cases others).resolve_left fun h =>
        hrejected (((ofRegisters_ok_iff _).1 h).of_perm hperm)
      rw [hfault, hfault']
      rfl

/-- A list with the bitmap at the last address that it can have, and the operation register among the
others. -/
def lastWindow : List Register :=
  [⟨"gauge", 0xFF, .float32⟩, ⟨Register.operation, 0x00, .byte⟩, ⟨Register.optBitmap, 0xFE, .byte⟩]

theorem formed_exactly_lastWindow :
    Acceptable lastWindow ∧ (∃ c, ofRegisters lastWindow = .ok c ∧ c.registers = lastWindow) ∧
      lastWindow.reverse.Perm lastWindow ∧
      (ofRegisters lastWindow.reverse).toOption.map (fun c => (c.start, c.optional)) =
        some (0xFF, [⟨"gauge", 0xFF, .float32⟩]) ∧
      ∃ fault, ofRegisters (lastWindow ++ lastWindow) = .error (.invalidCatalog fault) := by
  obtain ⟨hiff, -, hformed, horder⟩ := formed_exactly lastWindow
  have hok : ∃ c, ofRegisters lastWindow = .ok c := ⟨⟨lastWindow, ⟨0xFF, [_]⟩, rfl⟩, rfl⟩
  have hperm : lastWindow.reverse.Perm lastWindow := List.reverse_perm _
  have hrejected : ¬ Acceptable (lastWindow ++ lastWindow) := fun h =>
    absurd h.names (by decide)
  obtain ⟨c, hc⟩ := hok
  refine ⟨hiff.1 ⟨c, hc⟩, ⟨c, hc, (hformed c hc).1⟩, hperm, ?_, ?_⟩
  · rw [horder _ hperm]
    rfl
  · exact (formed_exactly (lastWindow ++ lastWindow)).2.1 hrejected

end Catalog

end SpoolTag
