import Mathlib.Data.List.Sort
import SpoolTag.Proofs.Manager.ReadBack
import SpoolTag.Proofs.Manager.WriteProtocol

/-! # Writing a record and reading it back

On registers in memory a record comes back as it was written (`readRecord_after_writeRecord`),
whatever the registers held before: `KeptAs` says what a tag keeps of a record. The proof goes
through the registers. No register is written twice (`nodup_addresses_plan`), so each holds what the
plan puts there (`holdsTag_after_plan`), and the bitmap names exactly the registers of the
values that were written (`presentIn_of_carried`). -/

namespace SpoolTag

open Memory

/-- What a tag keeps of a record: the name cut to what one transaction carries, and of the optional
fields those that have a register, converted to what it holds. -/
structure Record.KeptAs (c : Catalog) (record kept : Record) : Prop where
  id : kept.id = record.id
  name : Text.Utf8.IsLongest Register.maxStringBytes record.name.toList kept.name.toList
  spoolWeight : kept.spoolWeight = record.spoolWeight
  totalWeight : kept.totalWeight = record.totalWeight
  optional : ∀ name v, kept.optional.get? name = some v ↔
    ∃ r ∈ c.optional, r.name = name ∧
      ∃ w, record.optional.get? name = some w ∧ w.coerce? r.kind = some v

namespace Manager

variable {m : Manager} {mem : Memory} {record : Record} {name : List Char}
  {values : List (Register × Value)} {bits : UInt8}

/-! ### What was carried -/

/-- The bitmap names the registers of the values. -/
theorem presentIn_of_carried {c : Catalog} (h : Carried c record name values bits) :
    Bitmap.presentIn ⟨bits⟩ c.optional = values.map Prod.fst := by
  have hbits : ∀ (i : Nat) (hi : i < c.optional.length),
      bits.toNat.testBit (0 + i) = decide (c.optional[i] ∈ values.map Prod.fst) := by
    intro i hi
    rw [Nat.zero_add, Bool.eq_iff_iff, h.named i, decide_eq_true_iff, List.mem_map,
      List.getElem?_eq_getElem hi]
    constructor
    · rintro ⟨p, hp, he⟩
      exact ⟨p, hp, (Option.some.inj he).symm⟩
    · rintro ⟨p, hp, he⟩
      exact ⟨p, hp, congrArg some he.symm⟩
  have hlen := c.length_optional_le
  have hfilter := Bitmap.presentFrom_eq_filter ⟨bits⟩ (fun r => decide (r ∈ values.map Prod.fst))
    c.optional 0 (by omega) hbits
  rw [Bitmap.presentIn, hfilter]
  -- both lists have the same registers and ascend, so they are the same list
  have hsorted : (c.optional.filter fun r => decide (r ∈ values.map Prod.fst)).Pairwise
      fun r s => r.address < s.address := c.sorted_optional.filter _
  refine List.Perm.eq_of_pairwise (fun r s _ _ hrs hsr => ?_) hsorted h.ascending_registers
    ((List.perm_ext_iff_of_nodup (Catalog.nodup_of_ascending hsorted) h.nodup_registers).2
      fun r => ?_)
  · exact absurd (UInt8.lt_trans hrs hsr) (UInt8.lt_irrefl _)
  · rw [List.mem_filter, decide_eq_true_iff]
    exact ⟨And.right, fun hr => ⟨h.mem_optional hr, hr⟩⟩

/-- The fields of the values are what a tag keeps of the optional fields. -/
theorem keptAs_of_carried {c : Catalog} (h : Carried c record name values bits) :
    record.KeptAs c ⟨record.id, String.ofList name, record.spoolWeight, record.totalWeight,
      Fields.load .empty values⟩ where
  id := rfl
  name := by
    rw [String.toList_ofList]
    exact h.longest
  spoolWeight := rfl
  totalWeight := rfl
  optional key v := by
    have hnames := Catalog.pairwise_name_ne
      (fun r hr => Catalog.mem_of_mem_optional (h.mem_optional hr)) h.nodup_registers
    rw [List.pairwise_map] at hnames
    rw [Fields.get?_load (Fields.get?_empty key) hnames]
    constructor
    · rintro ⟨p, hp, rfl, rfl⟩
      obtain ⟨hmem, w, hw, hv⟩ := (h.assigned p).1 hp
      exact ⟨p.1, hmem, rfl, w, hw, hv⟩
    · rintro ⟨r, hr, rfl, w, hw, hv⟩
      exact ⟨(r, v), (h.assigned (r, v)).2 ⟨hr, w, hw, hv⟩, rfl, rfl⟩

/-! ### What the registers hold -/

/-- No register is written twice. -/
theorem nodup_addresses_plan {l : m.catalog.TagRegisters} (hapart : l.Apart)
    (h : Carried m.catalog record name values bits) :
    (((m.contents l record name values bits).map fun p => (p.1.address, p.2)).map Prod.fst ++
      [l.operation]).Nodup := by
  have hregisters : ((m.contents l record name values bits).map Prod.fst).Nodup := by
    rw [map_fst_contents, List.nodup_append, List.nodup_append]
    refine ⟨⟨l.nodup_fixed, h.nodup_registers, ?_⟩, List.nodup_singleton _, ?_⟩
    · rintro r hr s hs rfl
      exact hapart r hr (h.mem_optional hs)
    · rintro r hr s hs rfl
      rw [List.mem_singleton.1 hs, List.mem_append] at hr
      rcases hr with hfixed | hvalue
      · exact absurd (l.name_of_mem_fixed hfixed)
          (show Register.optBitmap ∉ _ by decide)
      · exact m.catalog.bitmap_notMem_optional (h.mem_optional hvalue)
  have hmem : ∀ r ∈ (m.contents l record name values bits).map Prod.fst,
      r ∈ m.catalog.registers ∧ r.name ≠ Register.operation := by
    intro r hr
    obtain ⟨p, hp, rfl⟩ := List.mem_map.1 hr
    exact mem_contents (fun r hr => h.mem_optional hr) hp
  have haddresses : ((m.contents l record name values bits).map fun p => (p.1.address, p.2)).map
      Prod.fst = ((m.contents l record name values bits).map Prod.fst).map Register.address := by
    rw [List.map_map, List.map_map]
    rfl
  rw [haddresses, List.nodup_append]
  refine ⟨List.Nodup.map_on (fun r hr s hs => ?_) hregisters, List.nodup_singleton _, ?_⟩
  · exact Catalog.eq_of_address_eq (hmem r hr).1 (hmem s hs).1
  · rintro a ha b hb rfl
    obtain ⟨r, hr, he⟩ := List.mem_map.1 ha
    exact l.address_ne_operation (hmem r hr).1 (hmem r hr).2 (he.trans (List.mem_singleton.1 hb))

theorem stagingPlan_eq_writes {l : m.catalog.TagRegisters} :
    m.stagingPlan l record name values bits = writes m.device
      ((m.contents l record name values bits).map fun p => (p.1.address, p.2)) := by
  rw [stagingPlan_eq, writes, List.map_map]
  rfl

theorem writePlan_eq_writes {l : m.catalog.TagRegisters} :
    m.writePlan l record name values bits = writes m.device
      (((m.contents l record name values bits).map fun p => (p.1.address, p.2)) ++
        [(l.operation, (Value.byte Operation.commit.code).bytes)]) := by
  rw [writePlan, stagingPlan_eq_writes, writes, writes, List.map_append]
  rfl

theorem get?_after_plan {l : m.catalog.TagRegisters} (hapart : l.Apart)
    (h : Carried m.catalog record name values bits) (hattached : mem.attached.contains m.device)
    {p : Register × List UInt8} (hp : p ∈ m.contents l record name values bits) :
    (bus.stateAfter (m.writePlan l record name values bits) mem).get? m.device p.1.address =
      some p.2 := by
  rw [writePlan_eq_writes]
  refine get?_after_of_mem hattached ?_ ?_
  · rw [List.map_append]
    exact nodup_addresses_plan hapart h
  · exact List.mem_append_left _ (List.mem_map_of_mem (f := fun p => (p.1.address, p.2)) hp)

/-- Registers with the contents of a plan hold the record. -/
theorem holdsTag_of_contents {l : m.catalog.TagRegisters}
    (h : Carried m.catalog record name values bits) (hattached : mem.attached.contains m.device)
    (hcontents : ∀ p ∈ m.contents l record name values bits,
      mem.get? m.device p.1.address = some p.2) :
    m.HoldsTag mem l record name values bits := by
  have hheld : ∀ {r : Register} {v : Value}, v.kind = r.kind →
      (r, v.bytes) ∈ m.contents l record name values bits → m.Holds mem r v :=
    fun hkind hmem => ⟨hkind, hcontents _ hmem⟩
  exact {
    attached := hattached
    fits := h.longest.fits
    id := hheld rfl (mem_contents_of_fixed (by simp [fixedContents, Catalog.TagRegisters.fixed]))
    nameLength := hheld rfl
      (mem_contents_of_fixed (by simp [fixedContents, Catalog.TagRegisters.fixed]))
    text := hcontents (⟨Register.filamentName, l.name, .utf8String⟩, Text.Utf8.encode name)
      (mem_contents_of_fixed (by simp [fixedContents, Catalog.TagRegisters.fixed]))
    spoolWeight := hheld rfl
      (mem_contents_of_fixed (by simp [fixedContents, Catalog.TagRegisters.fixed]))
    totalWeight := hheld rfl
      (mem_contents_of_fixed (by simp [fixedContents, Catalog.TagRegisters.fixed]))
    bitmap := hheld rfl bitmap_mem_contents
    optional := fun p hp => by
      obtain ⟨-, w, -, hw⟩ := (h.assigned p).1 hp
      exact hheld (Value.kind_of_coerce? hw) (mem_contents_of_value hp)
    present := presentIn_of_carried h }

/-- After a write the registers hold the record. -/
theorem holdsTag_after_plan {l : m.catalog.TagRegisters} (hapart : l.Apart)
    (h : Carried m.catalog record name values bits) (hattached : mem.attached.contains m.device) :
    m.HoldsTag (bus.stateAfter (m.writePlan l record name values bits) mem) l record name values
      bits :=
  holdsTag_of_contents h (by rw [attached_after]; exact hattached)
    fun _ hp => get?_after_plan hapart h hattached hp

/-! ### The round trip -/

/-- On an attached device a record that no optional register refuses is written, and leaves what its
plan leaves. -/
theorem written_of_not_refused (l : m.catalog.TagRegisters) (hattached : mem.attached.contains m.device)
    (hok : ∀ r ∈ m.catalog.optional, ¬ record.optional.Refuses r) :
    let run := (m.writeRecord record).run.run bus mem
    ∃ name values bits, Carried m.catalog record name values bits ∧ run.result = .ok () ∧
      run.state = bus.stateAfter (m.writePlan l record name values bits) mem := by
  obtain ⟨name, values, bits, hcarried, hcarries⟩ := carries_writeRecord l hok
  have hplan := (Attempt.map_request_planned (m.writePlan l record name values bits)).trans
    writePlan_eq_writes
  obtain ⟨hresult, hstate⟩ := run_of_carries_writes hcarries hplan hattached
  exact ⟨name, values, bits, hcarried, hresult, writePlan_eq_writes ▸ hstate⟩

/-- On an attached device a record is written exactly if no optional register refuses its value. -/
theorem writeRecord_ok_iff (l : m.catalog.TagRegisters) (hattached : mem.attached.contains m.device) :
    ((m.writeRecord record).run.run bus mem).result = .ok () ↔
      ∀ r ∈ m.catalog.optional, ¬ record.optional.Refuses r := by
  constructor
  · intro hok r hr hrefuses
    obtain ⟨-, e, he⟩ := run_writeRecord_of_refused bus mem hr hrefuses
    rw [he] at hok
    cases hok
  · intro hok
    obtain ⟨_, _, _, -, hresult, -⟩ := written_of_not_refused l hattached hok
    exact hresult

/-- **A record that was written is read back as the tag keeps it.** -/
theorem readRecord_after_writeRecord (m : Manager) (l : m.catalog.TagRegisters) (hapart : l.Apart)
    (record : Record) (mem : Memory) (hattached : mem.attached.contains m.device)
    (hwritten : ((m.writeRecord record).run.run bus mem).result = .ok ()) :
    ∃ kept, (m.readRecord.run.run bus ((m.writeRecord record).run.run bus mem).state).result =
        .ok kept ∧ record.KeptAs m.catalog kept := by
  obtain ⟨name, values, bits, hcarried, hcarries⟩ :=
    carries_writeRecord l ((writeRecord_ok_iff l hattached).1 hwritten)
  have hfollows := hcarries Memory bus mem
  rw [hwritten] at hfollows
  rw [Dialog.state_run, hfollows.issued, Attempt.map_request_planned]
  exact ⟨_, (shows_readRecord (holdsTag_after_plan hapart hcarried hattached)).result,
    keptAs_of_carried hcarried⟩

/-- A record with a number for a field that the device keeps and one that it does not. -/
theorem readRecord_after_writeRecord_standard :
    let m : Manager := ⟨0x42, .standard⟩
    let record : Record := ⟨7, "PLA", 250, 1000,
      (Fields.empty.insert "extr_temp" (.byte 210)).insert "colour" (.int32 5)⟩
    let mem : Memory := { attached := [0x42], contents := [((0x42, 0x0B), [1, 2, 3])] }
    ∃ kept, (m.readRecord.run.run bus ((m.writeRecord record).run.run bus mem).state).result =
        .ok kept ∧ record.KeptAs m.catalog kept := by
  intro m record mem
  have hattached : mem.attached.contains m.device := by decide
  have hwritten : ((m.writeRecord record).run.run bus mem).result = .ok () :=
    (writeRecord_ok_iff .standard hattached).2 (by decide)
  exact readRecord_after_writeRecord m .standard (by decide) record mem hattached hwritten

end Manager

end SpoolTag
