import SpoolTag.Catalog
import Mathlib.Data.List.Nodup

/-! # What an accepted layout guarantees

A catalog carries the proof that its registers passed `Layout.of`. From it follow the facts that
everything above relies on: no name and no address occurs twice (`nodup_names`, `nodup_addresses`),
a register of the catalog is found by its name (`lookup_of_mem`), the bitmap register is the byte
just below the covered run (`bitmap_mem`), and the optional registers are the registers from there
on except the operation register (`mem_optional`), at most eight (`length_optional_le`), none a
string (`width_of_mem_optional`), each at the address of its bit (`address_optional`). -/

namespace SpoolTag

namespace Layout

/-! ### The checks -/

theorem repetition?_eq_none {registers : List Register} :
    ∀ {names : List String} {addresses : List UInt8},
      repetition? names addresses registers = none →
        ((registers.map Register.name).Nodup ∧ ∀ r ∈ registers, r.name ∉ names) ∧
        ((registers.map Register.address).Nodup ∧ ∀ r ∈ registers, r.address ∉ addresses) := by
  induction registers with
  | nil => intro names addresses _; simp
  | cons r rest ih =>
    intro names addresses h
    rw [repetition?] at h
    split_ifs at h with hname haddress
    obtain ⟨⟨hn, hn'⟩, ha, ha'⟩ := ih h
    simp only [List.mem_cons, not_or] at hn' ha'
    refine ⟨⟨List.nodup_cons.2 ⟨?_, hn⟩, ?_⟩, List.nodup_cons.2 ⟨?_, ha⟩, ?_⟩
    · rintro hm
      obtain ⟨s, hs, he⟩ := List.mem_map.1 hm
      exact (hn' s hs).1 he
    · rintro s hs
      rcases List.mem_cons.1 hs with rfl | hs
      · exact hname
      · exact (hn' s hs).2
    · rintro hm
      obtain ⟨s, hs, he⟩ := List.mem_map.1 hm
      exact (ha' s hs).1 he
    · rintro s hs
      rcases List.mem_cons.1 hs with rfl | hs
      · exact haddress
      · exact (ha' s hs).2

theorem misfit?_eq_none {start : UInt8} {registers : List Register} :
    ∀ {next : Nat}, misfit? start next registers = none →
      ∀ (i : Nat) (hi : i < registers.length),
        registers[i].address.toNat = next + i ∧ registers[i].kind.width? ≠ none := by
  induction registers with
  | nil => intro next _ i hi; simp at hi
  | cons r rest ih =>
    intro next h i hi
    rw [misfit?] at h
    split_ifs at h with haddress hwidth
    cases i with
    | zero => exact ⟨not_not.1 haddress, hwidth⟩
    | succ i =>
      obtain ⟨h1, h2⟩ := ih h i (by simpa using hi)
      rw [List.getElem_cons_succ]
      exact ⟨by omega, h2⟩

theorem insertByAddress_perm (r : Register) (registers : List Register) :
    (insertByAddress r registers).Perm (r :: registers) := by
  induction registers with
  | nil => exact .refl _
  | cons s rest ih =>
    rw [insertByAddress]
    split
    · exact .refl _
    · exact (ih.cons s).trans (.swap r s rest)

theorem sortByAddress_perm (registers : List Register) :
    (sortByAddress registers).Perm registers := by
  induction registers with
  | nil => exact .refl _
  | cons r rest ih => exact (insertByAddress_perm r _).trans (ih.cons r)

theorem mem_covered {start : UInt8} {registers : List Register} {r : Register} :
    r ∈ covered start registers ↔
      r ∈ registers ∧ start ≤ r.address ∧ r.name ≠ Register.operation := by
  unfold covered
  rw [(sortByAddress_perm _).mem_iff]
  simp

/-- What is known of a list of registers whose layout was found. -/
theorem of_eq_ok {registers : List Register} {layout : Layout} (h : of registers = .ok layout) :
    repetition? [] [] registers = none ∧
      (∃ bitmap, registers.find? (·.name == Register.optBitmap) = some bitmap ∧
        bitmap.kind = .byte ∧ bitmap.address ≠ 0xFF ∧ layout.start = bitmap.address + 1) ∧
      layout.optional = covered layout.start registers ∧ layout.optional.length ≤ 8 ∧
      misfit? layout.start layout.start.toNat layout.optional = none := by
  unfold of at h
  split at h
  · cases h
  next hrepeat =>
  split at h
  · cases h
  next bitmap hbitmap =>
  dsimp only at h
  split_ifs at h with hkind hlast hmany
  split at h
  · cases h
  next hfit =>
  cases h
  exact ⟨hrepeat, ⟨bitmap, hbitmap, not_not.1 hkind, hlast, rfl⟩, rfl, Nat.not_lt.1 hmany, hfit⟩

end Layout

namespace Catalog

variable (c : Catalog) {r s : Register}

theorem nodup_names : (c.registers.map Register.name).Nodup :=
  (Layout.repetition?_eq_none (Layout.of_eq_ok c.sound).1).1.1

theorem nodup_addresses : (c.registers.map Register.address).Nodup :=
  (Layout.repetition?_eq_none (Layout.of_eq_ok c.sound).1).2.1

variable {c}

theorem eq_of_name_eq (hr : r ∈ c.registers) (hs : s ∈ c.registers) (h : r.name = s.name) :
    r = s := List.inj_on_of_nodup_map c.nodup_names hr hs h

theorem eq_of_address_eq (hr : r ∈ c.registers) (hs : s ∈ c.registers)
    (h : r.address = s.address) : r = s := List.inj_on_of_nodup_map c.nodup_addresses hr hs h

/-- A register of the catalog is found by its name. -/
theorem lookup_of_mem (h : r ∈ c.registers) : c.lookup r.name = .ok r := by
  unfold lookup
  cases hf : c.registers.find? (·.name == r.name) with
  | none =>
    have := List.find?_eq_none.1 hf r h
    simp at this
  | some s =>
    have hname : s.name = r.name := by simpa using List.find?_some hf
    rw [eq_of_name_eq (List.mem_of_find?_eq_some hf) h hname]

/-- What is found by a name is a register of the catalog with that name. -/
theorem of_lookup {name : String} (h : c.lookup name = .ok r) : r ∈ c.registers ∧ r.name = name := by
  unfold lookup at h
  cases hf : c.registers.find? (·.name == name) with
  | none =>
    rw [hf] at h
    cases h
  | some s =>
    rw [hf] at h
    obtain rfl := Except.ok.inj h
    exact ⟨List.mem_of_find?_eq_some hf, by simpa using List.find?_some hf⟩

/-! ### The bitmap register -/

/-- The register of the bitmap. -/
def bitmapRegister (c : Catalog) : Register := ⟨Register.optBitmap, c.start - 1, .byte⟩

theorem bitmap_mem : c.bitmapRegister ∈ c.registers := by
  unfold bitmapRegister
  obtain ⟨-, ⟨bitmap, hbitmap, hkind, -, hstart⟩, -⟩ := Layout.of_eq_ok c.sound
  have hname : bitmap.name = Register.optBitmap := by simpa using List.find?_some hbitmap
  have haddress : c.start - 1 = bitmap.address := by
    rw [start, hstart]
    exact UInt8.add_sub_cancel _ _
  rw [← hname, haddress, ← hkind]
  exact List.mem_of_find?_eq_some hbitmap

theorem start_pos : 0 < c.start.toNat := by
  obtain ⟨-, ⟨bitmap, -, -, hlast, hstart⟩, -⟩ := Layout.of_eq_ok c.sound
  have hne : bitmap.address.toNat ≠ 255 := fun h => hlast (UInt8.toNat_inj.1 h)
  have hlt := bitmap.address.toNat_lt
  rw [start, hstart, UInt8.toNat_add]
  simp only [UInt8.reduceToNat]
  omega

/-! ### The optional registers -/

theorem mem_optional :
    r ∈ c.optional ↔ r ∈ c.registers ∧ c.start ≤ r.address ∧ r.name ≠ Register.operation := by
  obtain ⟨-, -, hoptional, -⟩ := Layout.of_eq_ok c.sound
  rw [optional, hoptional]
  exact Layout.mem_covered

theorem mem_of_mem_optional (h : r ∈ c.optional) : r ∈ c.registers := (mem_optional.1 h).1

theorem length_optional_le : c.optional.length ≤ 8 := (Layout.of_eq_ok c.sound).2.2.2.1

theorem address_optional (i : Nat) (hi : i < c.optional.length) :
    c.optional[i].address.toNat = c.start.toNat + i :=
  (Layout.misfit?_eq_none (Layout.of_eq_ok c.sound).2.2.2.2 i hi).1

theorem width_of_mem_optional (h : r ∈ c.optional) : r.kind ≠ .utf8String := by
  obtain ⟨i, hi, rfl⟩ := List.getElem_of_mem h
  have hwidth : c.optional[i].kind.width? ≠ none :=
    (Layout.misfit?_eq_none (Layout.of_eq_ok c.sound).2.2.2.2 i hi).2
  rintro hkind
  rw [hkind] at hwidth
  exact hwidth rfl

theorem bitmap_notMem_optional : c.bitmapRegister ∉ c.optional := by
  intro h
  have hle : c.start.toNat ≤ (c.start - 1).toNat := (mem_optional.1 h).2.1
  have hpos := c.start_pos
  have hone : (1 : UInt8) ≤ c.start := hpos
  rw [UInt8.toNat_sub_of_le _ _ hone] at hle
  simp only [UInt8.reduceToNat] at hle
  omega

/-- The optional registers stand in the order of their addresses. -/
theorem sorted_optional : c.optional.Pairwise fun r s => r.address < s.address := by
  rw [List.pairwise_iff_getElem]
  intro i j hi hj hij
  rw [UInt8.lt_iff_toNat_lt, address_optional i hi, address_optional j hj]
  omega

theorem nodup_of_ascending {registers : List Register}
    (h : registers.Pairwise fun r s => r.address < s.address) : registers.Nodup := by
  refine h.imp fun {r s} hlt he => ?_
  rw [he] at hlt
  exact absurd hlt (UInt8.lt_irrefl _)

/-- Registers of a catalog that differ have different names. -/
theorem pairwise_name_ne {registers : List Register} (hmem : ∀ r ∈ registers, r ∈ c.registers)
    (h : registers.Nodup) : registers.Pairwise fun r s => r.name ≠ s.name :=
  h.imp_of_mem fun hr hs hne hname => hne (eq_of_name_eq (hmem _ hr) (hmem _ hs) hname)

/-- The bit of an optional register is the one of its position. -/
theorem index_optional (i : Nat) (hi : i < c.optional.length) :
    (c.optional[i].address - c.start).toNat = i := by
  have h := address_optional i hi
  have hle : c.start ≤ c.optional[i].address := UInt8.le_iff_toNat_le.2 (by omega)
  rw [UInt8.toNat_sub_of_le _ _ hle]
  omega

theorem bitIndex_of_mem (h : r ∈ c.optional) : c.bitIndex r = .ok (r.address - c.start) := by
  have hle : c.start ≤ r.address := (mem_optional.1 h).2.1
  unfold bitIndex isOptional
  rw [if_neg]
  rintro (hlt | hnot)
  · exact absurd hle (UInt8.not_le.2 hlt)
  · exact hnot (by simpa using h)

/-! ### The registers of every record -/

/-- The addresses of the registers that every record goes through, in a catalog that has them with
the kinds they have on the device. -/
structure TagRegisters (c : Catalog) where
  id : UInt8
  nameLength : UInt8
  name : UInt8
  spoolWeight : UInt8
  totalWeight : UInt8
  operation : UInt8
  id_mem : ⟨Register.filamentId, id, .int32⟩ ∈ c.registers
  nameLength_mem : ⟨Register.filamentNameLen, nameLength, .int32⟩ ∈ c.registers
  name_mem : ⟨Register.filamentName, name, .utf8String⟩ ∈ c.registers
  spoolWeight_mem : ⟨Register.spoolWeight, spoolWeight, .int32⟩ ∈ c.registers
  totalWeight_mem : ⟨Register.totalWeight, totalWeight, .int32⟩ ∈ c.registers
  operation_mem : ⟨Register.operation, operation, .byte⟩ ∈ c.registers

namespace TagRegisters

/-- The registers of every record but the operation register. -/
def fixed (l : TagRegisters c) : List Register :=
  [⟨Register.filamentId, l.id, .int32⟩, ⟨Register.filamentNameLen, l.nameLength, .int32⟩,
    ⟨Register.filamentName, l.name, .utf8String⟩, ⟨Register.spoolWeight, l.spoolWeight, .int32⟩,
    ⟨Register.totalWeight, l.totalWeight, .int32⟩]

/-- The registers of every record but the operation register lie outside the optional run. -/
def Apart (l : TagRegisters c) : Prop := ∀ r ∈ l.fixed, r ∉ c.optional

instance (l : TagRegisters c) : Decidable l.Apart :=
  inferInstanceAs (Decidable (∀ r ∈ l.fixed, r ∉ c.optional))

theorem mem_of_mem_fixed (l : TagRegisters c) (h : r ∈ l.fixed) : r ∈ c.registers := by
  simp only [fixed, List.mem_cons, List.not_mem_nil, or_false] at h
  rcases h with rfl | rfl | rfl | rfl | rfl
  · exact l.id_mem
  · exact l.nameLength_mem
  · exact l.name_mem
  · exact l.spoolWeight_mem
  · exact l.totalWeight_mem

theorem name_of_mem_fixed (l : TagRegisters c) (h : r ∈ l.fixed) :
    r.name ∈ [Register.filamentId, Register.filamentNameLen, Register.filamentName,
      Register.spoolWeight, Register.totalWeight] :=
  List.mem_map_of_mem (f := Register.name) h

theorem nodup_fixed (l : TagRegisters c) : l.fixed.Nodup :=
  List.Nodup.of_map Register.name (show [Register.filamentId, Register.filamentNameLen,
    Register.filamentName, Register.spoolWeight, Register.totalWeight].Nodup by decide)

/-- Every other register is at another address than the operation register. -/
theorem address_ne_operation (l : TagRegisters c) (hr : r ∈ c.registers)
    (h : r.name ≠ Register.operation) : r.address ≠ l.operation := by
  intro he
  obtain rfl := eq_of_address_eq hr l.operation_mem he
  exact h rfl

/-- The registers of every record, on the device. -/
def standard : TagRegisters .standard where
  id := 0x02
  nameLength := 0x03
  name := 0x04
  spoolWeight := 0x05
  totalWeight := 0x06
  operation := 0x0F
  id_mem := by decide
  nameLength_mem := by decide
  name_mem := by decide
  spoolWeight_mem := by decide
  totalWeight_mem := by decide
  operation_mem := by decide

end TagRegisters

end Catalog

end SpoolTag
