import Mathlib.Algebra.Group.Nat.Defs
import SpoolTag.Proofs.Catalog.Layout
import SpoolTag.Proofs.Record.Presence

/-! # Bits and the optional registers

The bit of an optional register is found in two ways. A register whose bit is to be set has it told by
its address (`bitIndex`), and a bit that is set tells a register by its position (`presentIn`). In a
catalog both agree, since the optional registers stand at the addresses that follow the bitmap.

`mark` sets the bits of registers one after the other, and `marked` are the registers whose bits are
set.

* `bitIndex_eq_ok_iff`: a bit belongs to the register at its position, and to no other.
* `mem_marked_mark`: of a bitmap that was marked with registers, these are the registers.
* `bits_of_mark_marked`: the registers of a bitmap mark what it has within the optional run.
* `bits_and_registers_correspond`: all of this together. -/

namespace SpoolTag

namespace Catalog

variable {c : Catalog} {r : Register}

/-! ### Indices -/

theorem index_lt_of_mem (h : r ∈ c.optional) : r.address - c.start < 8 := by
  obtain ⟨i, hi, rfl⟩ := List.getElem_of_mem h
  have hlength := c.length_optional_le
  rw [UInt8.lt_iff_toNat_lt, index_optional i hi]
  exact Nat.lt_of_lt_of_le hi hlength

/-- Optional registers with the same bit are the same. -/
theorem eq_of_index_eq {s : Register} (hr : r ∈ c.optional) (hs : s ∈ c.optional)
    (h : r.address - c.start = s.address - c.start) : r = s := by
  refine eq_of_address_eq (mem_of_mem_optional hr) (mem_of_mem_optional hs) ?_
  rw [← UInt8.sub_add_cancel r.address c.start, h, UInt8.sub_add_cancel]

theorem bitIndex_of_notMem (h : r ∉ c.optional) :
    c.bitIndex r = .error (.notOptional r.name r.address) := by
  unfold bitIndex isOptional
  exact if_pos (.inr (by simpa using h))

/-- **A bit belongs to the optional register at its position.** -/
theorem bitIndex_eq_ok_iff {i : UInt8} :
    c.bitIndex r = .ok i ↔ c.optional[i.toNat]? = some r := by
  constructor
  · intro h
    by_cases hr : r ∈ c.optional
    · rw [bitIndex_of_mem hr] at h
      obtain rfl := Except.ok.inj h
      obtain ⟨j, hj, rfl⟩ := List.getElem_of_mem hr
      rw [index_optional j hj, List.getElem?_eq_getElem hj]
    · rw [bitIndex_of_notMem hr] at h
      cases h
  · intro h
    obtain ⟨hi, rfl⟩ := List.getElem?_eq_some_iff.1 h
    rw [bitIndex_of_mem (List.getElem_mem hi)]
    exact congrArg Except.ok (UInt8.toNat_inj.1 (index_optional i.toNat hi))

/-! ### The registers of a bitmap -/

/-- The optional registers whose bit is set. -/
def marked (c : Catalog) (bits : UInt8) : List Register :=
  c.optional.filter fun r => bits.toNat.testBit (r.address - c.start).toNat

theorem mem_marked {bits : UInt8} : r ∈ c.marked bits ↔
    r ∈ c.optional ∧ bits.toNat.testBit (r.address - c.start).toNat = true := List.mem_filter

theorem mem_optional_of_marked {bits : UInt8} (h : r ∈ c.marked bits) : r ∈ c.optional :=
  (mem_marked.1 h).1

theorem getElem_mem_marked {bits : UInt8} (i : Nat) (hi : i < c.optional.length) :
    c.optional[i] ∈ c.marked bits ↔ bits.toNat.testBit i = true := by
  rw [mem_marked, index_optional i hi]
  exact and_iff_right (List.getElem_mem hi)

theorem presentIn_eq_marked (bits : UInt8) :
    Bitmap.presentIn ⟨bits⟩ c.optional = c.marked bits := by
  have hlength := c.length_optional_le
  refine Bitmap.presentFrom_eq_filter ⟨bits⟩ _ c.optional 0 (by omega) fun i hi => ?_
  rw [index_optional i hi, Nat.zero_add]

theorem ascending_marked (bits : UInt8) :
    (c.marked bits).Pairwise fun r s => r.address < s.address := c.sorted_optional.filter _

/-- The bits above those of the optional registers mark nothing. -/
theorem marked_congr {bits other : UInt8}
    (h : ∀ i < c.optional.length, bits.toNat.testBit i = other.toNat.testBit i) :
    c.marked bits = c.marked other := by
  refine List.filter_congr fun r hr => ?_
  obtain ⟨i, hi, rfl⟩ := List.getElem_of_mem hr
  rw [index_optional i hi]
  exact h i hi

/-! ### The bits of registers -/

/-- Sets the bits of registers one after the other. -/
def mark (c : Catalog) (m : Bitmap) : List Register → Except TagError Bitmap
  | [] => .ok m
  | r :: rest => do
    let index ← c.bitIndex r
    c.mark (m.insert index) rest

/-- Registers that have bits can be marked. -/
theorem mark_of_mem {registers : List Register} (h : ∀ r ∈ registers, r ∈ c.optional) :
    ∀ m : Bitmap, c.mark m registers =
      .ok ((registers.map fun r => r.address - c.start).foldl Bitmap.insert m) := by
  induction registers with
  | nil => intro m; rfl
  | cons r rest ih =>
    intro m
    rw [mark, bitIndex_of_mem (h r List.mem_cons_self)]
    exact ih (fun s hs => h s (List.mem_cons_of_mem _ hs)) _

/-- Marking sets the bits of the registers and no others. -/
theorem testBit_of_mark {registers : List Register} {m : Bitmap}
    (h : ∀ r ∈ registers, r ∈ c.optional) (hm : c.mark .empty registers = .ok m) (i : Nat) :
    m.bits.toNat.testBit i = true ↔ ∃ r ∈ registers, (r.address - c.start).toNat = i := by
  rw [mark_of_mem h] at hm
  obtain rfl := Except.ok.inj hm
  rw [Bitmap.testBit_foldl_insert, Bitmap.testBit_empty, Bool.false_or]
  · simp only [List.any_eq_true, List.mem_map, beq_iff_eq, exists_exists_and_eq_and]
  · intro index hindex
    obtain ⟨r, hr, rfl⟩ := List.mem_map.1 hindex
    exact index_lt_of_mem (h r hr)

/-- **The registers of a bitmap are those that it was marked with.** -/
theorem mem_marked_mark {registers : List Register} {m : Bitmap}
    (h : ∀ r ∈ registers, r ∈ c.optional) (hm : c.mark .empty registers = .ok m) :
    r ∈ c.marked m.bits ↔ r ∈ registers := by
  rw [mem_marked, testBit_of_mark h hm]
  constructor
  · rintro ⟨hr, s, hs, hindex⟩
    rwa [eq_of_index_eq hr (h s hs) (UInt8.toNat_inj.1 hindex.symm)]
  · intro hr
    exact ⟨h r hr, r, hr, rfl⟩

/-- **The registers of a bitmap mark the bits it has within the optional run.** -/
theorem bits_of_mark_marked {bits : UInt8} {m : Bitmap}
    (hm : c.mark .empty (c.marked bits) = .ok m) :
    m.bits.toNat = bits.toNat % 2 ^ c.optional.length := by
  refine Nat.eq_of_testBit_eq fun i => ?_
  rw [Nat.testBit_mod_two_pow, Bool.eq_iff_iff, Bool.and_eq_true, decide_eq_true_iff,
    testBit_of_mark (fun r => mem_optional_of_marked) hm]
  constructor
  · rintro ⟨r, hr, rfl⟩
    obtain ⟨hmem, hbit⟩ := mem_marked.1 hr
    obtain ⟨j, hj, rfl⟩ := List.getElem_of_mem hmem
    exact ⟨by rwa [index_optional j hj], hbit⟩
  · rintro ⟨hi, hbit⟩
    exact ⟨c.optional[i], (getElem_mem_marked i hi).2 hbit, index_optional i hi⟩

/-! ### Both ways -/

/-- **Bits and optional registers correspond.** A register has a bit exactly if it is optional, and then
it stands at the position of that bit, of which there are eight. Optional registers in any order, with
repetitions, mark a bitmap that names each of them once, by address; and the registers that a bitmap
names mark its bits within the optional run. -/
theorem bits_and_registers_correspond (c : Catalog) :
    (∀ r, ((∃ i, c.bitIndex r = .ok i) ↔ r ∈ c.optional) ∧
      (∀ i, c.bitIndex r = .ok i → i < 8 ∧ c.optional[i.toNat]? = some r) ∧
      (r ∉ c.optional → c.bitIndex r = .error (.notOptional r.name r.address))) ∧
    (∀ registers : List Register, (∀ r ∈ registers, r ∈ c.optional) →
      ∃ m, c.mark .empty registers = .ok m ∧
        (m.presentIn c.optional).Pairwise (fun r s => r.address < s.address) ∧
        ∀ r, r ∈ m.presentIn c.optional ↔ r ∈ registers) ∧
    ∀ m : Bitmap, ∃ again, c.mark .empty (m.presentIn c.optional) = .ok again ∧
      again.bits.toNat = m.bits.toNat % 2 ^ c.optional.length := by
  refine ⟨fun r => ⟨⟨?_, ?_⟩, fun i hi => ?_, bitIndex_of_notMem⟩, fun registers h => ?_, fun m => ?_⟩
  · rintro ⟨i, hi⟩
    exact List.mem_of_getElem? (bitIndex_eq_ok_iff.1 hi)
  · exact fun hr => ⟨_, bitIndex_of_mem hr⟩
  · have hposition := bitIndex_eq_ok_iff.1 hi
    obtain ⟨hlt, -⟩ := List.getElem?_eq_some_iff.1 hposition
    exact ⟨UInt8.lt_iff_toNat_lt.2 (Nat.lt_of_lt_of_le hlt c.length_optional_le), hposition⟩
  · obtain ⟨m, hm⟩ : ∃ m, c.mark .empty registers = .ok m := ⟨_, mark_of_mem h _⟩
    rw [show m = ⟨m.bits⟩ from rfl] at hm
    exact ⟨m, hm, presentIn_eq_marked m.bits ▸ ascending_marked m.bits,
      fun r => presentIn_eq_marked m.bits ▸ mem_marked_mark h hm⟩
  · have hmem : ∀ r ∈ c.marked m.bits, r ∈ c.optional := fun r => mem_optional_of_marked
    obtain ⟨again, hagain⟩ : ∃ again, c.mark .empty (c.marked m.bits) = .ok again :=
      ⟨_, mark_of_mem hmem _⟩
    refine ⟨again, ?_, bits_of_mark_marked hagain⟩
    rw [show m.presentIn c.optional = c.marked m.bits from presentIn_eq_marked m.bits]
    exact hagain

/-- On the device, with registers out of order and repeated, and with bits above the optional run. -/
theorem bits_and_registers_correspond_standard :
    let multiplier : Register := ⟨"extr_multiplier", 0x08, .float32⟩
    let heat : Register := ⟨"extr_temp", 0x0A, .int32⟩
    (multiplier ∈ standard.optional ∧ heat ∈ standard.optional) ∧
    (∃ m, standard.mark .empty [heat, multiplier, heat] = .ok m ∧
      ∀ r, r ∈ m.presentIn standard.optional ↔ r ∈ [heat, multiplier, heat]) ∧
    (standard.bitIndex ⟨"extr_temp", 0x0B, .int32⟩ = .error (.notOptional "extr_temp" 0x0B)) ∧
    ∃ again, standard.mark .empty (Bitmap.presentIn ⟨0xE5⟩ standard.optional) = .ok again ∧
      again.bits.toNat = 0x25 := by
  intro multiplier heat
  obtain ⟨hindex, hmark, hagain⟩ := bits_and_registers_correspond standard
  have hmem : ∀ r ∈ [heat, multiplier, heat], r ∈ standard.optional := by decide
  obtain ⟨m, hm, -, hnamed⟩ := hmark _ hmem
  exact ⟨⟨by decide, by decide⟩, ⟨m, hm, hnamed⟩, (hindex _).2.2 (by decide), hagain ⟨0xE5⟩⟩

end Catalog

end SpoolTag
