import SpoolTag.Proofs.Bus.Plans
import SpoolTag.Proofs.Manager.Preparation
import SpoolTag.Proofs.Text.Utf8

/-! # What a record write asks for

The transactions of a record write are fixed before the first of them: the mandatory registers in
the order id, name length, name, spool weight, total weight, then the assigned optional registers by
address, the bitmap, and the commit code (`writePlan`). Each part of `writeRecord` carries out its
part of this plan, from single registers (`carries_write`) over the stages to the whole
(`carries_writeRecord`). -/

namespace SpoolTag

namespace Manager

open Attempt

variable (m : Manager)

/-! ### Registers -/

/-- The write of a value to an address of the device. -/
def put (address : UInt8) (v : Value) : Request := .write m.device address v.bytes

variable {m}

theorem carries_write {r : Register} {v w : Value} (h : v.coerce? r.kind = some w) :
    Carries (m.write r v) [planned (m.put r.address w)] () := by
  have hkind : w.kind = r.kind := Value.kind_of_coerce? h
  have hr : r.kind ≠ .utf8String := hkind ▸ w.kind_ne_utf8String
  unfold write
  rw [if_neg hr]
  have htransact : Carries
      (transact (.write m.device r.address w.bytes) >>= fun _ => report (.registerWritten r.name w))
      [planned (m.put r.address w)] () := carries_transact_bind (carries_report _)
  exact (carries_ofExcept (Value.coerce_eq_ok r.name h)).bind
    ((carries_ofExcept (Register.encode_of_kind hkind)).bind htransact)

theorem carries_register {r : Register} (h : r ∈ m.catalog.registers) :
    Carries (m.register r.name) [] r := carries_ofExcept (Catalog.lookup_of_mem h)

theorem carries_writeNamed {r : Register} {v w : Value} (h : r ∈ m.catalog.registers)
    (hv : v.coerce? r.kind = some w) :
    Carries (m.writeNamed r.name v) [planned (m.put r.address w)] () :=
  (carries_register h).bind (carries_write hv)

/-- A string is written after its length. -/
theorem carries_writeText (r lengthRegister : Register) (text : String) {v : Value}
    (hr : r.kind = .utf8String)
    (hlength : (Value.int32 (Int32.ofNat (Text.Utf8.encode (carried text)).length)).coerce?
      lengthRegister.kind = some v) :
    let bytes := Text.Utf8.encode (carried text)
    Carries (m.writeText r text lengthRegister)
      [planned (m.put lengthRegister.address v), planned (.write m.device r.address bytes)]
      bytes.length := by
  intro bytes
  have hneed : Carries (needText r) [] () := by
    unfold needText
    rw [if_pos hr]
    exact .pure ()
  have hbytes : Carries (do
      let _ ← transact (.write m.device r.address bytes)
      report (.textWritten r.name bytes.length)
      pure bytes.length) [planned (.write m.device r.address bytes)] bytes.length :=
    carries_transact_bind ((carries_report _).bind (.pure _))
  have hboth := (carries_write (m := m) hlength).seq hbytes
  refine hneed.bind ?_
  dsimp only
  split
  · exact (carries_report _).seq hboth
  · exact hboth

theorem carries_send {l : m.catalog.TagRegisters} (operation : Operation) :
    Carries (m.send operation) [planned (m.put l.operation (.byte operation.code))] () :=
  (carries_register l.operation_mem).bind ((carries_write rfl).bind (carries_report _))

/-! ### Stages -/

/-- The transactions for the fields that every record has, with the name cut to what one transaction
carries. -/
def mandatoryPlan (m : Manager) (l : m.catalog.TagRegisters) (record : Record) (name : List Char) :
    List Request :=
  [m.put l.id (.int32 record.id),
    m.put l.nameLength (.int32 (Int32.ofNat (Text.Utf8.encode name).length)),
    .write m.device l.name (Text.Utf8.encode name),
    m.put l.spoolWeight (.int32 record.spoolWeight),
    m.put l.totalWeight (.int32 record.totalWeight)]

/-- The transactions for optional registers with their values. -/
def optionalPlan (m : Manager) (values : List (Register × Value)) : List Request :=
  values.map fun p => m.put p.1.address p.2

def bitmapPlan (m : Manager) (bits : UInt8) : Request := m.put (m.catalog.start - 1) (.byte bits)

def commitPlan (m : Manager) (l : m.catalog.TagRegisters) : Request :=
  m.put l.operation (.byte Operation.commit.code)

theorem carries_writeMandatory (l : m.catalog.TagRegisters) (record : Record) :
    Carries (m.writeMandatory record)
      ((m.mandatoryPlan l record (carried record.name)).map planned) () := by
  have hid := carries_writeNamed (m := m) (v := .int32 record.id) l.id_mem rfl
  have hspool := carries_writeNamed (m := m) (v := .int32 record.spoolWeight) l.spoolWeight_mem rfl
  have htotal := carries_writeNamed (m := m) (v := .int32 record.totalWeight) l.totalWeight_mem rfl
  have hname := carries_writeText (m := m) ⟨Register.filamentName, l.name, .utf8String⟩
    ⟨Register.filamentNameLen, l.nameLength, .int32⟩ record.name rfl rfl
  exact hid.bind ((carries_register l.name_mem).bind ((carries_register l.nameLength_mem).bind
    (hname.bind (hspool.bind htotal))))

theorem carries_writeOptional {prepared : List Prepared}
    (h : ∀ p ∈ prepared, p.value.kind = p.register.kind) :
    Carries (m.writeOptional prepared)
      (prepared.map fun p => planned (m.put p.register.address p.value)) () := by
  induction prepared with
  | nil => exact .pure ()
  | cons p rest ih =>
    have hkind : p.value.coerce? p.register.kind = some p.value := by
      rw [← h p List.mem_cons_self]
      exact p.value.coerce?_self
    exact (carries_write hkind).bind (ih fun q hq => h q (List.mem_cons_of_mem _ hq))

/-- The prepared values are those that the fields assign. -/
theorem carries_writeOptional_assigned {record : Record} {prepared : List Prepared}
    (hmap : prepared.map (fun p => (p.register, p.value)) =
      record.optional.assigned m.catalog.optional)
    (hfits : ∀ p ∈ prepared, p.Fits m.catalog record.optional) :
    Carries (m.writeOptional prepared)
      ((m.optionalPlan (record.optional.assigned m.catalog.optional)).map planned) () := by
  have h := carries_writeOptional (m := m) fun p hp => Fields.kind_of_valueFor (hfits p hp).value
  rw [optionalPlan, ← hmap, List.map_map, List.map_map]
  exact h

/-- A plan whose failures tell the stage. -/
def staged (stage : Stage) (plan : List (Planned TagError)) : List (Planned Abandoned) :=
  plan.map fun p => ⟨p.request, (fun error => ⟨stage, error⟩) ∘ p.failure⟩

/-- The transactions of a record write by stages, with the name, the values and the bits they
carry. -/
def stagedPlan (m : Manager) (l : m.catalog.TagRegisters) (record : Record) (name : List Char)
    (values : List (Register × Value)) (bits : UInt8) : List (Planned Abandoned) :=
  staged .idle ((m.mandatoryPlan l record name).map planned) ++
    (staged .mandatoryWritten ((m.optionalPlan values).map planned) ++
      (staged .optionalWritten [planned (m.bitmapPlan bits)] ++
        staged .bitmapWritten [planned (m.commitPlan l)]))

theorem carries_during {α : Type} {a : α} {stage : Stage} {part : Attempt α}
    {plan : List (Planned TagError)} (h : Carries part plan a) :
    Carries (during stage part) (staged stage plan) a := h.adapt _

theorem carries_writeStages (l : m.catalog.TagRegisters) (record : Record)
    {prepared : List Prepared}
    (hmap : prepared.map (fun p => (p.register, p.value)) =
      record.optional.assigned m.catalog.optional)
    (hfits : ∀ p ∈ prepared, p.Fits m.catalog record.optional) :
    Carries (m.writeStages record prepared)
      (m.stagedPlan l record (carried record.name) (record.optional.assigned m.catalog.optional)
        (bitmapOf prepared).bits) () := by
  have hoptional := carries_writeOptional_assigned (m := m) hmap hfits
  have hbitmap := carries_writeNamed (m := m) (v := .byte (bitmapOf prepared).bits)
    m.catalog.bitmap_mem rfl
  exact (carries_during (carries_writeMandatory l record)).bind
    ((carries_during hoptional).bind
      ((carries_during hbitmap).bind (carries_during (carries_send (l := l) .commit))))

/-! ### The whole -/

/-- The transactions of a record write before the commit, with the name, the values and the bits
they carry. -/
def stagingPlan (m : Manager) (l : m.catalog.TagRegisters) (record : Record) (name : List Char)
    (values : List (Register × Value)) (bits : UInt8) : List Request :=
  m.mandatoryPlan l record name ++ m.optionalPlan values ++ [m.bitmapPlan bits]

def writePlan (m : Manager) (l : m.catalog.TagRegisters) (record : Record) (name : List Char)
    (values : List (Register × Value)) (bits : UInt8) : List Request :=
  m.stagingPlan l record name values bits ++ [m.commitPlan l]

theorem map_error_stagedPlan (l : m.catalog.TagRegisters) (record : Record) (name : List Char)
    (values : List (Register × Value)) (bits : UInt8) :
    (m.stagedPlan l record name values bits).map
        (fun p => ⟨p.request, Abandoned.error ∘ p.failure⟩) =
      (m.writePlan l record name values bits).map planned := by
  have hstaged : ∀ (stage : Stage) (plan : List (Planned TagError)),
      (staged stage plan).map (fun p => (⟨p.request, Abandoned.error ∘ p.failure⟩ : Planned _)) =
        plan := by
    intro stage plan
    rw [staged, List.map_map]
    exact List.map_id _
  rw [stagedPlan, List.map_append, List.map_append, List.map_append, hstaged, hstaged, hstaged,
    hstaged, writePlan, stagingPlan]
  simp only [List.map_append, List.map_cons, List.map_nil, List.append_assoc]

theorem carries_reportIgnored (names : List String) : Carries (m.reportIgnored names) [] () := by
  induction names with
  | nil => exact .pure ()
  | cons name rest ih =>
    unfold reportIgnored
    dsimp only
    split
    · exact ih
    · exact (carries_report _).seq ih

/-- What a record write makes of its stages, which carry out all of its transactions. -/
def finish (record : Record) (bitmap : Bitmap) (stages : ExceptT Abandoned Dialog Unit) :
    Attempt Unit := do
  match ← (stages.run : Dialog (Except Abandoned Unit)) with
  | .ok () => report (.committed record.id record.name bitmap)
  | .error ⟨stage, error⟩ =>
    report (.abandoned record.id stage error)
    throw error

theorem run_finish {σ : Type} (record : Record) (bitmap : Bitmap)
    (stages : ExceptT Abandoned Dialog Unit) (bus : Bus σ) (s : σ) :
    let run := (ExceptT.adapt Abandoned.error stages).run.run bus s
    ((finish record bitmap stages).run.run bus s).exchanges = run.exchanges ∧
      ((finish record bitmap stages).run.run bus s).result = run.result := by
  intro run
  have hrun : run = { stages.run.run bus s with
      result := (stages.run.run bus s).result.mapError Abandoned.error } :=
    Dialog.run_adapt _ stages bus s
  rw [hrun]
  unfold finish
  rw [ExceptT.run_bind, ExceptT.run_liftM, ← bind_pure_comp, bind_assoc, Dialog.run_bind]
  -- what is left only reports, so it adds no transaction
  cases (stages.run.run bus s).result with
  | ok u => exact ⟨List.append_nil _, rfl⟩
  | error e => exact ⟨List.append_nil _, rfl⟩

theorem carries_finish (record : Record) (bitmap : Bitmap)
    {stages : ExceptT Abandoned Dialog Unit} {plan : List (Planned Abandoned)}
    (h : Carries stages plan ()) :
    Carries (finish record bitmap stages)
      (plan.map fun p => ⟨p.request, Abandoned.error ∘ p.failure⟩) () := by
  intro σ bus s
  rw [(run_finish record bitmap stages bus s).1, (run_finish record bitmap stages bus s).2]
  exact h.adapt Abandoned.error σ bus s

/-- What the plan of a record write carries: the longest run of whole characters of the name that
one transaction takes, the converted values of the optional registers that the record names, by
address, and the bits of exactly these registers. -/
structure Carried (c : Catalog) (record : Record) (name : List Char)
    (values : List (Register × Value)) (bits : UInt8) : Prop where
  longest : Text.Utf8.IsLongest Register.maxStringBytes record.name.toList name
  ascending : values.Pairwise fun p q => p.1.address < q.1.address
  assigned : ∀ p, p ∈ values ↔ p.1 ∈ c.optional ∧
    ∃ v, record.optional.get? p.1.name = some v ∧ v.coerce? p.1.kind = some p.2
  named : ∀ i, bits.toNat.testBit i = true ↔ ∃ p ∈ values, c.optional[i]? = some p.1

namespace Carried

variable {c : Catalog} {record : Record} {name : List Char} {values : List (Register × Value)}
  {bits : UInt8}

theorem mem_optional (h : Carried c record name values bits) {r : Register}
    (hr : r ∈ values.map Prod.fst) : r ∈ c.optional := by
  obtain ⟨p, hp, rfl⟩ := List.mem_map.1 hr
  exact ((h.assigned p).1 hp).1

theorem ascending_registers (h : Carried c record name values bits) :
    (values.map Prod.fst).Pairwise fun r s => r.address < s.address :=
  List.pairwise_map.2 h.ascending

theorem nodup_registers (h : Carried c record name values bits) :
    (values.map Prod.fst).Nodup := Catalog.nodup_of_ascending h.ascending_registers

end Carried

theorem carried_of_prepared {c : Catalog} {record : Record} {prepared : List Prepared}
    (hok : ∀ r ∈ c.optional, ¬ record.optional.Refuses r)
    (hmap : prepared.map (fun p => (p.register, p.value)) = record.optional.assigned c.optional)
    (hfits : ∀ p ∈ prepared, p.Fits c record.optional) :
    Carried c record (carried record.name) (record.optional.assigned c.optional)
      (bitmapOf prepared).bits where
  longest := Text.Utf8.fitting_isLongest _ _
  ascending := Fields.ascending_assigned c.sorted_optional
  assigned p := by
    rw [Fields.mem_assigned, Fields.valueFor, Option.bind_eq_some_iff]
  named i := by
    rw [testBit_bitmapOf hok hmap hfits, Option.any_eq_true]
    constructor
    · rintro ⟨r, hr, hnamed⟩
      have hmem : r ∈ c.optional := List.mem_of_getElem? hr
      obtain ⟨v, hv⟩ := Fields.valueFor_of_named (hok r hmem) hnamed
      exact ⟨(r, v), Fields.mem_assigned.2 ⟨hmem, hv⟩, hr⟩
    · rintro ⟨p, hp, hr⟩
      exact ⟨p.1, hr, Fields.named_of_valueFor (Fields.mem_assigned.1 hp).2⟩

/-- **A record write carries out its plan**, when no optional register refuses its value. -/
theorem carries_writeRecord (l : m.catalog.TagRegisters) {record : Record}
    (hok : ∀ r ∈ m.catalog.optional, ¬ record.optional.Refuses r) :
    ∃ name values bits, Carried m.catalog record name values bits ∧
      Carries (m.writeRecord record) ((m.writePlan l record name values bits).map planned) () := by
  obtain ⟨prepared, hprepare, hmap, hfits⟩ := prepare_ok (fun _ hr => hr) hok
  refine ⟨_, _, _, carried_of_prepared hok hmap hfits, ?_⟩
  rw [← map_error_stagedPlan]
  exact (carries_reportIgnored _).bind ((carries_ofExcept hprepare).bind
    (carries_finish record (bitmapOf prepared) (carries_writeStages l record hmap hfits)))

/-- A record whose optional values do not all convert is not written at all. -/
theorem run_writeRecord_refused {σ : Type} (bus : Bus σ) (s : σ) {record : Record}
    {e : TagError} (h : prepare m.catalog record.optional m.catalog.optional = .error e) :
    ((m.writeRecord record).run.run bus s).exchanges = [] ∧
      ((m.writeRecord record).run.run bus s).result = .error e := by
  have hquiet := carries_reportIgnored (m := m) record.optional.names
  unfold writeRecord
  constructor
  · refine (hquiet.skip _ bus s).1.trans ?_
    rw [h]
    rfl
  · refine (hquiet.skip _ bus s).2.trans ?_
    rw [h]
    rfl

/-! ### The registers of the plan -/

/-- What is written to which of the registers that every record has. -/
def fixedContents (m : Manager) (l : m.catalog.TagRegisters) (record : Record) (name : List Char) :
    List (Register × List UInt8) :=
  l.fixed.zip
    [(Value.int32 record.id).bytes, (Value.int32 (Int32.ofNat (Text.Utf8.encode name).length)).bytes,
      Text.Utf8.encode name, (Value.int32 record.spoolWeight).bytes,
      (Value.int32 record.totalWeight).bytes]

/-- What is written to which register before the commit. -/
def contents (m : Manager) (l : m.catalog.TagRegisters) (record : Record) (name : List Char)
    (values : List (Register × Value)) (bits : UInt8) : List (Register × List UInt8) :=
  m.fixedContents l record name ++ values.map (fun p => (p.1, p.2.bytes)) ++
    [(m.catalog.bitmapRegister, (Value.byte bits).bytes)]

section Contents

variable {l : m.catalog.TagRegisters} {record : Record} {name : List Char}
  {values : List (Register × Value)} {bits : UInt8}

theorem stagingPlan_eq : m.stagingPlan l record name values bits =
    (m.contents l record name values bits).map fun p => .write m.device p.1.address p.2 := by
  rw [stagingPlan, contents, List.map_append, List.map_append, List.map_map]
  rfl

theorem map_fst_contents : (m.contents l record name values bits).map Prod.fst =
    l.fixed ++ values.map Prod.fst ++ [m.catalog.bitmapRegister] := by
  rw [contents, List.map_append, List.map_append, List.map_map]
  rfl

theorem mem_contents_of_fixed {p : Register × List UInt8} (h : p ∈ m.fixedContents l record name) :
    p ∈ m.contents l record name values bits := List.mem_append_left _ (List.mem_append_left _ h)

theorem mem_contents_of_value {p : Register × Value} (h : p ∈ values) :
    (p.1, p.2.bytes) ∈ m.contents l record name values bits :=
  List.mem_append_left _ (List.mem_append_right _
    (List.mem_map_of_mem (f := fun p : Register × Value => (p.1, p.2.bytes)) h))

theorem bitmap_mem_contents :
    (m.catalog.bitmapRegister, (Value.byte bits).bytes) ∈ m.contents l record name values bits :=
  List.mem_append_right _ (List.mem_singleton.2 rfl)

/-- Before the commit only registers other than the operation register are written. -/
theorem mem_contents (hvalues : ∀ r ∈ values.map Prod.fst, r ∈ m.catalog.optional)
    {p : Register × List UInt8} (h : p ∈ m.contents l record name values bits) :
    p.1 ∈ m.catalog.registers ∧ p.1.name ≠ Register.operation := by
  have hmem := List.mem_map_of_mem (f := Prod.fst) h
  rw [map_fst_contents, List.mem_append, List.mem_append, List.mem_singleton] at hmem
  rcases hmem with (hfixed | hvalue) | hbitmap
  · refine ⟨l.mem_of_mem_fixed hfixed, ?_⟩
    have hname := l.name_of_mem_fixed hfixed
    intro hoperation
    rw [hoperation] at hname
    exact absurd hname (by decide)
  · obtain ⟨hregister, -, hname⟩ := Catalog.mem_optional.1 (hvalues _ hvalue)
    exact ⟨hregister, hname⟩
  · rw [hbitmap]
    exact ⟨m.catalog.bitmap_mem, show Register.optBitmap ≠ Register.operation by decide⟩

theorem commitPlan_notMem_stagingPlan
    (hvalues : ∀ r ∈ values.map Prod.fst, r ∈ m.catalog.optional) :
    m.commitPlan l ∉ m.stagingPlan l record name values bits := by
  rw [stagingPlan_eq]
  intro h
  obtain ⟨p, hp, heq⟩ := List.mem_map.1 h
  obtain ⟨-, haddress, -⟩ := Request.write.inj heq
  obtain ⟨hregister, hname⟩ := mem_contents hvalues hp
  exact l.address_ne_operation hregister hname haddress

end Contents

end Manager

end SpoolTag
