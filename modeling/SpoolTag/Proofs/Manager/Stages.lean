import SpoolTag.Bus.Faulty
import SpoolTag.Proofs.Bus.Reporting
import SpoolTag.Proofs.Manager.WriteProtocol

/-! # What is reported of a record write

A record write ends with one notice: that the record is committed, or that the write was abandoned and
how far it had got. The stage that is told is known from the number of transactions that were
acknowledged, since each stage has its own part of the plan (`stage_of_stagedPlan`): five transactions
for what every record has, one for each optional register that takes part, one for the bitmap, and the
commit. A record of which a value is refused is not even begun, and there is no such notice.

All this is about what the write itself reports (`Dialog.told`). A bus has something to say as well, but
of records it does not speak (`Bus.Discreet`): registers in memory do not, and neither does a bus that
fails as planned over one that does not. -/

namespace SpoolTag

open Dialog

/-- The notice tells how the write of a record ended. -/
def Notice.tellsEnd (notice : Notice) : Bool :=
  notice.entry.message = "Filament record committed" ||
    notice.entry.message = "Filament record write abandoned before commit"

/-- Each stage has a name of its own. -/
theorem Stage.label_eq_label (stage other : Stage) : stage.label = other.label ↔ stage = other := by
  cases stage <;> cases other <;> decide

/-! ### Buses that do not speak of records -/

/-- Nothing that the bus says tells how the write of a record ended. -/
def Bus.Discreet {σ : Type} (bus : Bus σ) : Prop :=
  ∀ r s, ∀ notice ∈ (bus.answer r s).notices, notice.tellsEnd = false

theorem Memory.discreet : Memory.bus.Discreet := by
  intro r mem notice hmem
  simp only [bus, answer] at hmem
  split at hmem
  · cases hmem
  · cases r with
    | probe device => cases hmem
    | read device register count => rw [List.mem_singleton.1 hmem]; rfl
    | write device register bytes => rw [List.mem_singleton.1 hmem]; rfl

theorem Faulty.discreet {σ : Type} {below : Bus σ} (h : below.Discreet) :
    (Faulty.bus below).Discreet := by
  intro r f notice hmem
  simp only [bus, answer] at hmem
  split at hmem
  · cases hmem
  · cases hmem
  · exact h r f.below notice hmem
  · exact h r f.below notice hmem

namespace Manager

variable {m : Manager}

/-! ### Parts of a write -/

section Parts

/-- Whatever the replies are, the part does not tell how the write ended. -/
abbrev Quiet {α : Type} (d : Dialog α) : Prop := d.Reports fun notice => notice.tellsEnd = false

theorem quiet_report {notice : Notice} (h : notice.tellsEnd = false) :
    Quiet (Attempt.report notice).run := Reports.report h

theorem quiet_write (r : Register) (v : Value) : Quiet (m.write r v).run := by
  unfold write
  split
  · exact Reports.throw _
  · exact (Reports.ofExcept _).andThen fun w => (Reports.ofExcept _).andThen fun bytes =>
      (Reports.transact _).andThen fun _ => quiet_report rfl

theorem quiet_writeNamed (name : String) (v : Value) : Quiet (m.writeNamed name v).run :=
  (Reports.ofExcept _).andThen fun r => quiet_write r v

theorem quiet_writeText (r : Register) (text : String) (lengthRegister : Register) :
    Quiet (m.writeText r text lengthRegister).run := by
  have hneed : Quiet (needText r).run := by
    unfold needText
    split
    · exact Reports.pure ()
    · exact Reports.throw _
  have hrest : Quiet (do
      m.write lengthRegister (.int32 (Int32.ofNat (Text.Utf8.encode (carried text)).length))
      let _ ← Attempt.transact (.write m.device r.address (Text.Utf8.encode (carried text)))
      Attempt.report (.textWritten r.name (Text.Utf8.encode (carried text)).length)
      pure (Text.Utf8.encode (carried text)).length : Attempt Nat).run :=
    (quiet_write _ _).andThen fun _ => (Reports.transact _).andThen fun _ =>
      (quiet_report rfl).andThen fun _ => Reports.pure _
  unfold writeText
  refine hneed.andThen fun _ => ?_
  dsimp only
  split
  · exact (quiet_report rfl).andThen fun _ => hrest
  · exact hrest

theorem quiet_writeMandatory (record : Record) : Quiet (m.writeMandatory record).run :=
  (quiet_writeNamed _ _).andThen fun _ => (Reports.ofExcept _).andThen fun _ =>
    (Reports.ofExcept _).andThen fun _ => (quiet_writeText _ _ _).andThen fun _ =>
      (quiet_writeNamed _ _).andThen fun _ => quiet_writeNamed _ _

theorem quiet_writeOptional (prepared : List Prepared) : Quiet (m.writeOptional prepared).run := by
  induction prepared with
  | nil => exact Reports.pure ()
  | cons p rest ih => exact (quiet_write _ _).andThen fun _ => ih

theorem quiet_send (operation : Operation) : Quiet (m.send operation).run :=
  (Reports.ofExcept _).andThen fun _ => (quiet_write _ _).andThen fun _ => quiet_report rfl

theorem quiet_writeStages (record : Record) (prepared : List Prepared) :
    Quiet (m.writeStages record prepared).run :=
  (quiet_writeMandatory record).adapt.andThen fun _ => (quiet_writeOptional prepared).adapt.andThen
    fun _ => (quiet_writeNamed _ _).adapt.andThen fun _ => (quiet_send .commit).adapt

theorem quiet_reportIgnored (names : List String) : Quiet (m.reportIgnored names).run := by
  induction names with
  | nil => exact Reports.pure ()
  | cons name rest ih =>
    unfold reportIgnored
    dsimp only
    split
    · exact ih
    · exact (quiet_report rfl).andThen fun _ => ih

end Parts

/-! ### The notice at the end -/

/-- The notice that tells how a write ended. -/
def ending (record : Record) (bitmap : Bitmap) : Except Abandoned Unit → Notice
  | .ok () => .committed record.id record.name bitmap
  | .error ⟨stage, error⟩ => .abandoned record.id stage error

theorem tellsEnd_ending (record : Record) (bitmap : Bitmap) (outcome : Except Abandoned Unit) :
    (ending record bitmap outcome).tellsEnd = true := by
  cases outcome <;> rfl

variable {σ : Type} (bus : Bus σ) (s : σ)

theorem told_finish (record : Record) (bitmap : Bitmap) (stages : ExceptT Abandoned Dialog Unit) :
    (finish record bitmap stages).run.told bus s =
      stages.run.told bus s ++ [ending record bitmap (stages.run.run bus s).result] := by
  unfold finish
  rw [ExceptT.run_bind, ExceptT.run_liftM, ← bind_pure_comp, LawfulMonad.bind_assoc, told_bind]
  cases (stages.run.run bus s).result <;> rfl

/-- A write that was begun does what its stages do, and tells how they ended. -/
theorem writeRecord_of_prepared {record : Record} {prepared : List Prepared}
    (h : prepare m.catalog record.optional m.catalog.optional = .ok prepared) :
    let run := (m.writeRecord record).run.run bus s
    let stages := (m.writeStages record prepared).run.run bus s
    run.exchanges = stages.exchanges ∧ run.result = stages.result.mapError Abandoned.error ∧
      ((m.writeRecord record).run.told bus s).filter Notice.tellsEnd =
        [ending record (bitmapOf prepared) stages.result] := by
  intro run stages
  have hquiet := carries_reportIgnored (m := m) record.optional.names
  have hprepared := Attempt.carries_ofExcept h
  obtain ⟨hexchanges, hresult⟩ := run_finish record (bitmapOf prepared)
    (m.writeStages record prepared) bus s
  rw [Dialog.run_adapt] at hexchanges hresult
  refine ⟨?_, ?_, ?_⟩
  · exact ((hquiet.skip _ bus s).1.trans (hprepared.skip _ bus s).1).trans hexchanges
  · exact ((hquiet.skip _ bus s).2.trans (hprepared.skip _ bus s).2).trans hresult
  · have htold : (m.writeRecord record).run.told bus s =
        (m.reportIgnored record.optional.names).run.told bus s ++
          (finish record (bitmapOf prepared) (m.writeStages record prepared)).run.told bus s :=
      (told_skip hquiet _ bus s).trans (congrArg (_ ++ ·) (told_skip hprepared _ bus s))
    rw [htold, told_finish, List.filter_append, List.filter_append,
      (quiet_reportIgnored _).filter_eq_nil, (quiet_writeStages _ _).filter_eq_nil,
      List.filter_singleton, tellsEnd_ending]
    rfl

/-- A write that is not begun tells nothing of an end. -/
theorem told_of_refused {record : Record} {r : Register} (hr : r ∈ m.catalog.optional)
    (hrefuses : record.optional.Refuses r) :
    ((m.writeRecord record).run.told bus s).filter Notice.tellsEnd = [] := by
  obtain ⟨first, hfirst, hfirstRefuses, hleast⟩ := exists_first_refused hr hrefuses
  have hprepare := prepare_of_first_refused hfirst hfirstRefuses hleast
  have htold : (m.writeRecord record).run.told bus s =
      (m.reportIgnored record.optional.names).run.told bus s ++ [] := by
    refine (told_skip (carries_reportIgnored _) _ bus s).trans (congrArg (_ ++ ·) ?_)
    rw [hprepare]
    rfl
  rw [htold, List.append_nil, (quiet_reportIgnored _).filter_eq_nil]

/-! ### The stage at a place of the plan -/

section Plan

variable {l : m.catalog.TagRegisters} {record : Record} {name : List Char}
  {values : List (Register × Value)} {bits : UInt8}

/-- The stages that failures along the plan tell. -/
theorem stages_stagedPlan (cause : BusError) :
    (m.stagedPlan l record name values bits).map (fun p => (p.failure cause).stage) =
      List.replicate 5 .idle ++
        (List.replicate values.length .mandatoryWritten ++ [.optionalWritten, .bitmapWritten]) := by
  have hstaged : ∀ (stage : Stage) (plan : List (Planned TagError)),
      (staged stage plan).map (fun p => (p.failure cause).stage) =
        List.replicate plan.length stage := by
    intro stage plan
    rw [staged, List.map_map, ← List.map_const']
    rfl
  unfold stagedPlan
  rw [List.map_append, List.map_append, List.map_append, hstaged, hstaged, hstaged, hstaged,
    List.length_map, List.length_map, optionalPlan, List.length_map]
  rfl

theorem length_stagedPlan :
    (m.stagedPlan l record name values bits).length = values.length + 7 := by
  have hstages : ((m.stagedPlan l record name values bits).map fun p =>
      (p.failure (.noAcknowledge m.device)).stage).length = _ :=
    congrArg List.length (stages_stagedPlan _)
  rw [List.length_map] at hstages
  rw [hstages]
  simp

/-- **The stage is known from the number of transactions before the one that failed.** -/
theorem stage_of_stagedPlan {n : Nat} {p : Planned Abandoned}
    (h : (m.stagedPlan l record name values bits)[n]? = some p) (cause : BusError) :
    let stage := (p.failure cause).stage
    n < values.length + 7 ∧ (stage = .idle ↔ n < 5) ∧
      (stage = .mandatoryWritten ↔ 5 ≤ n ∧ n ≤ values.length + 4) ∧
        (stage = .optionalWritten ↔ n = values.length + 5) ∧
          (stage = .bitmapWritten ↔ n = values.length + 6) := by
  intro stage
  have hstage : ((m.stagedPlan l record name values bits).map
      fun p => (p.failure cause).stage)[n]? = some stage := by
    rw [List.getElem?_map, h]
    rfl
  rw [stages_stagedPlan] at hstage
  generalize stage = told at hstage
  rcases Nat.lt_or_ge n 5 with hidle | hbegun
  · rw [List.getElem?_append_left (by simpa using hidle), List.getElem?_replicate_of_lt hidle] at hstage
    obtain rfl := Option.some.inj hstage
    simp
    omega
  rw [List.getElem?_append_right (by simpa using hbegun), List.length_replicate] at hstage
  rcases Nat.lt_or_ge (n - 5) values.length with hmandatory | hoptional
  · rw [List.getElem?_append_left (by simpa using hmandatory),
      List.getElem?_replicate_of_lt hmandatory] at hstage
    obtain rfl := Option.some.inj hstage
    simp
    omega
  rw [List.getElem?_append_right (by simpa using hoptional), List.length_replicate] at hstage
  obtain hplace | hplace | hplace : n - 5 - values.length = 0 ∨ n - 5 - values.length = 1 ∨
    2 ≤ n - 5 - values.length := by omega
  · rw [hplace] at hstage
    obtain rfl := Option.some.inj hstage
    simp
    omega
  · rw [hplace] at hstage
    obtain rfl := Option.some.inj hstage
    simp
    omega
  · rw [List.getElem?_eq_none (by simpa using hplace)] at hstage
    cases hstage

theorem write_of_mem_stagedPlan {p : Planned Abandoned}
    (h : p ∈ m.stagedPlan l record name values bits) :
    ∃ address bytes, p.request = .write m.device address bytes := by
  have hmem : (⟨p.request, Abandoned.error ∘ p.failure⟩ : Planned TagError) ∈
      (m.writePlan l record name values bits).map Attempt.planned :=
    map_error_stagedPlan (m := m) l record name values bits ▸ List.mem_map_of_mem h
  obtain ⟨request, hrequest, heq⟩ := List.mem_map.1 hmem
  obtain rfl : request = p.request := congrArg Planned.request heq
  rw [writePlan, stagingPlan_eq, List.mem_append, List.mem_singleton] at hrequest
  rcases hrequest with hstaging | hcommit
  · obtain ⟨q, -, hq⟩ := List.mem_map.1 hstaging
    exact ⟨_, _, hq.symm⟩
  · exact ⟨_, _, hcommit⟩

end Plan

/-- The registers that take part are those that the fields name. -/
theorem length_assigned {fields : Fields} {registers : List Register}
    (h : ∀ r ∈ registers, ¬ fields.Refuses r) :
    (fields.assigned registers).length = registers.countP fields.named := by
  rw [Fields.assigned, List.length_filterMap_eq_countP]
  refine List.countP_congr fun r hr => ?_
  rw [Option.isSome_map, Option.isSome_iff_exists]
  constructor
  · rintro ⟨v, hv⟩
    exact Fields.named_of_valueFor hv
  · exact Fields.valueFor_of_named (h r hr)

/-- **A record write tells how far it got**, on every bus, in one notice. It tells that the record is
committed, with the bits of the registers that the record names and no others, exactly if it comes to its
end. Otherwise it tells that it was abandoned, with what it fails with and a stage that is known from the
number of writes that were acknowledged; the registers that every record has take five, and each optional
register that the record names takes one. A record with a value that an optional register refuses is not
begun, and neither is told. -/
theorem tells_how_far {σ : Type} (bus : Bus σ) (s : σ) (m : Manager) (l : m.catalog.TagRegisters)
    (record : Record) :
    let run := (m.writeRecord record).run.run bus s
    let told := ((m.writeRecord record).run.told bus s).filter Notice.tellsEnd
    let named := m.catalog.optional.countP record.optional.named
    let written := (succeeded run.exchanges).length
    ((∃ r ∈ m.catalog.optional, record.optional.Refuses r) → told = []) ∧
    ((∀ r ∈ m.catalog.optional, ¬ record.optional.Refuses r) →
      (∀ e ∈ run.exchanges, ∃ address bytes, e.1 = .write m.device address bytes) ∧
      ((∃ bits, told = [.committed record.id record.name ⟨bits⟩] ∧ run.result = .ok () ∧
          written = named + 7 ∧
          ∀ i, bits.toNat.testBit i = (m.catalog.optional[i]?).any record.optional.named) ∨
        ∃ stage e, told = [.abandoned record.id stage e] ∧ run.result = .error e ∧
          written < named + 7 ∧
          (stage.label = "Idle" ↔ written < 5) ∧
          (stage.label = "MandatoryFieldsWritten" ↔ 5 ≤ written ∧ written ≤ named + 4) ∧
          (stage.label = "OptionalFieldsWritten" ↔ written = named + 5) ∧
          (stage.label = "BitmapCommitted" ↔ written = named + 6) ∧
          (named = 0 → stage.label ≠ "MandatoryFieldsWritten"))) ∧
    (bus.Discreet → run.notices.filter Notice.tellsEnd = told) := by
  intro run told named written
  refine ⟨?_, fun hok => ?_, fun hbus => filter_told _ bus s _ hbus⟩
  · rintro ⟨r, hr, hrefuses⟩
    exact told_of_refused bus s hr hrefuses
  · obtain ⟨prepared, hprepare, hmap, hfits⟩ := prepare_ok (fun _ hr => hr) hok
    obtain ⟨hexchanges, hresult, htold⟩ := writeRecord_of_prepared bus s hprepare
    have hfollows := carries_writeStages l record hmap hfits σ bus s
    have hnamed : (record.optional.assigned m.catalog.optional).length = named := length_assigned hok
    rw [← hexchanges] at hfollows
    refine ⟨fun e he => ?_, ?_⟩
    · obtain ⟨p, hp, hrequest⟩ := List.mem_map.1 (hfollows.request_mem e he)
      rw [← hrequest]
      exact write_of_mem_stagedPlan hp
    cases houtcome : ((m.writeStages record prepared).run.run bus s).result with
    | ok u =>
      rw [houtcome] at hfollows hresult htold
      refine .inl ⟨(bitmapOf prepared).bits, htold, hresult, ?_, testBit_bitmapOf hok hmap hfits⟩
      change (succeeded run.exchanges).length = _
      rw [hfollows.succeeded_of_ok, List.length_map, length_stagedPlan, hnamed]
    | error abandoned =>
      rw [houtcome] at hfollows hresult htold
      obtain ⟨p, cause, hp, rfl⟩ := hfollows.failed_after
      obtain ⟨hlt, hidle, hmandatory, hoptional, hbitmap⟩ := stage_of_stagedPlan hp cause
      rw [hnamed] at hlt hmandatory hoptional hbitmap
      refine .inr ⟨(p.failure cause).stage, (p.failure cause).error, htold, hresult, hlt, ?_⟩
      have hlabel := Stage.label_eq_label (p.failure cause).stage
      replace hmandatory := (hlabel .mandatoryWritten).trans hmandatory
      refine ⟨(hlabel .idle).trans hidle, hmandatory, (hlabel .optionalWritten).trans hoptional,
        (hlabel .bitmapWritten).trans hbitmap, fun hnone htells => ?_⟩
      obtain ⟨hfive, hfour⟩ := hmandatory.1 htells
      omega

/-- On the device, a bitmap that is not acknowledged after one optional register: the values are
written, and this is told on the bus as well. A truth value for the multiplier is not begun. -/
theorem tells_bitmap_failed :
    let m : Manager := ⟨0x42, .standard⟩
    let bus := Faulty.bus Memory.bus
    let start : Faulty Memory := ⟨{ attached := [0x42] }, 0, [⟨6, 1, .silence⟩]⟩
    let good : Record := ⟨7, "PLA", 250, 1000, Fields.empty.insert "extr_temp" (.int32 210)⟩
    let bad := good.withField "extr_multiplier" (.bool true)
    let run := (m.writeRecord good).run.run bus start
    (∃ stage e, run.notices.filter Notice.tellsEnd = [.abandoned 7 stage e] ∧ run.result = .error e ∧
      stage.label = "OptionalFieldsWritten") ∧
    ((m.writeRecord bad).run.run bus start).notices.filter Notice.tellsEnd = [] := by
  intro m bus start good bad run
  have hdiscreet : bus.Discreet := Faulty.discreet Memory.discreet
  have hwritten : (succeeded run.exchanges).length = 6 := by decide
  constructor
  · obtain ⟨-, hbegun, hnotices⟩ := tells_how_far bus start m .standard good
    obtain ⟨-, ⟨bits, -, -, hall, -⟩ | ⟨stage, e, htold, hresult, -, -, -, hoptional, -⟩⟩ :=
      hbegun (by decide)
    · exact absurd (hwritten.symm.trans hall) (by decide)
    · exact ⟨stage, e, (hnotices hdiscreet).trans htold, hresult, hoptional.2 hwritten⟩
  · obtain ⟨hrefused, -, hnotices⟩ := tells_how_far bus start m .standard bad
    exact (hnotices hdiscreet).trans (hrefused (by decide))

end Manager

end SpoolTag
