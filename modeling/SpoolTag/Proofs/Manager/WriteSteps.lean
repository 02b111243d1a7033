import SpoolTag.Bus.Memory
import SpoolTag.Proofs.Manager.WriteProtocol

/-! # A record write in any catalog

A layout says nothing about the registers that every record goes through: they may be missing, or
hold something that does not take what a record has for them. The record write finds out when their
turn comes. `steps` lists the turns, each with its transaction or with what is wrong with it, and
the write takes the steps before the first that is refused (`goes_writeRecord`).

So a write that fails although no transaction does may have written something before: nothing was
written exactly if a register of the optional ones, or the first one of all, refuses its value
(`nothing_written_iff`). With registers of the kinds they have on the device only optional values
are refused, and then nothing is written. -/

namespace SpoolTag

namespace Manager

open Attempt

/-! ### Steps -/

section Definitions

variable (m : Manager)

/-- The write of a value to a register, converted to what it holds. -/
def place (r : Register) (v : Value) : Except TagError Request :=
  if r.kind = .utf8String then .error (.unsupportedKind r.name r.kind)
  else (v.coerce r.kind r.name).map (m.put r.address)

/-- The write of a value to the register with the given name. -/
def placeNamed (name : String) (v : Value) : Except TagError Request :=
  (m.catalog.lookup name).bind fun r => m.place r v

/-- The write of the length of a name, for which both registers of the name have to be there. -/
def placeLength (name : List Char) : Except TagError Request :=
  (m.catalog.lookup Register.filamentName).bind fun r =>
    (m.catalog.lookup Register.filamentNameLen).bind fun lengthRegister =>
      if r.kind = .utf8String then
        m.place lengthRegister (.int32 (Int32.ofNat (Text.Utf8.encode name).length))
      else .error (.kindMismatch r.name .utf8String)

/-- The write of the bytes of a name. -/
def placeText (name : List Char) : Except TagError Request :=
  (m.catalog.lookup Register.filamentName).map fun r =>
    .write m.device r.address (Text.Utf8.encode name)

/-- The steps for the fields that every record has. -/
def mandatorySteps (record : Record) (name : List Char) : List (Except TagError Request) :=
  [m.placeNamed Register.filamentId (.int32 record.id), m.placeLength name, m.placeText name,
    m.placeNamed Register.spoolWeight (.int32 record.spoolWeight),
    m.placeNamed Register.totalWeight (.int32 record.totalWeight)]

/-- The steps of a record write, with the name, the optional values and the bits they carry. -/
def steps (record : Record) (name : List Char) (values : List (Register × Value)) (bits : UInt8) :
    List (Except TagError Request) :=
  m.mandatorySteps record name ++ ((m.optionalPlan values ++ [m.bitmapPlan bits]).map .ok ++
    [m.placeNamed Register.operation (.byte Operation.commit.code)])

end Definitions

variable {m : Manager}

/-! ### Registers -/

theorem goes_write (r : Register) (v : Value) :
    Goes (m.write r v) [(m.place r v).map planned] () := by
  unfold place write
  by_cases hkind : r.kind = .utf8String
  · rw [if_pos hkind, if_pos hkind]
    exact goes_error _ [] ()
  · rw [if_neg hkind, if_neg hkind]
    cases hcoerce : v.coerce? r.kind with
    | some w =>
      have hwrite := carries_write (m := m) hcoerce
      unfold write at hwrite
      rw [if_neg hkind] at hwrite
      rw [Value.coerce_eq_ok r.name hcoerce] at hwrite ⊢
      exact hwrite.goes
    | none =>
      have hrefused : v.coerce r.kind r.name = .error (.kindMismatch r.name r.kind) := by
        rw [Value.coerce, hcoerce]
      rw [hrefused]
      exact goes_error_bind _ _ [] ()

theorem goes_writeNamed (name : String) (v : Value) :
    Goes (m.writeNamed name v) [(m.placeNamed name v).map planned] () := by
  unfold placeNamed writeNamed register
  cases m.catalog.lookup name with
  | ok r => exact goes_ok_bind (goes_write r v)
  | error e => exact goes_error_bind e _ [] ()

/-- A string is written after its length, if the length register takes that. -/
theorem goes_writeText {r : Register} (lengthRegister : Register) (text : String)
    (hr : r.kind = .utf8String) :
    let bytes := Text.Utf8.encode (carried text)
    Goes (m.writeText r text lengthRegister)
      [(m.place lengthRegister (.int32 (Int32.ofNat bytes.length))).map planned,
        .ok (planned (.write m.device r.address bytes))] bytes.length := by
  intro bytes
  have hneed : Carries (needText r) [] () := by
    unfold needText
    rw [if_pos hr]
    exact .pure ()
  have hbytes : Carries (do
      let _ ← transact (.write m.device r.address bytes)
      report (.textWritten r.name bytes.length)
      pure bytes.length) [planned (.write m.device r.address bytes)] bytes.length :=
    carries_transact_bind ((carries_report _).bind (.pure _))
  have hboth := (goes_write (m := m) lengthRegister (.int32 (Int32.ofNat bytes.length))).bind
    (f := fun _ => _) hbytes.goes
  refine hneed.goes.bind ?_
  dsimp only
  split
  · exact (carries_report _).goes.bind (f := fun _ => _) hboth
  · exact hboth

/-- The name is written if both of its registers are there and fit. -/
theorem goes_name (text : String) {d : Attempt Unit}
    {more : List (Except TagError (Planned TagError))} (hd : Goes d more ()) :
    Goes (do
        let r ← m.register Register.filamentName
        let lengthRegister ← m.register Register.filamentNameLen
        let _ ← m.writeText r text lengthRegister
        d : Attempt Unit)
      ((m.placeLength (carried text)).map planned :: (m.placeText (carried text)).map planned ::
        more) () := by
  unfold placeLength placeText register
  cases m.catalog.lookup Register.filamentName with
  | error e => exact goes_error_bind e _ _ ()
  | ok r =>
    refine goes_ok_bind ?_
    cases m.catalog.lookup Register.filamentNameLen with
    | error e => exact goes_error_bind e _ _ ()
    | ok lengthRegister =>
      refine goes_ok_bind ?_
      dsimp only [Except.bind, Except.map]
      by_cases hr : r.kind = .utf8String
      · rw [if_pos hr]
        exact (goes_writeText lengthRegister text hr).bind (f := fun _ => d) hd
      · rw [if_neg hr]
        unfold writeText needText
        rw [if_neg hr]
        exact goes_error_bind _ _ _ ()

/-! ### The whole -/

theorem goes_writeMandatory (record : Record) :
    Goes (m.writeMandatory record)
      ((m.mandatorySteps record (carried record.name)).map (Except.map planned)) () :=
  (goes_writeNamed _ _).bind (goes_name record.name ((goes_writeNamed _ _).bind (goes_writeNamed _ _)))

theorem goes_send (operation : Operation) :
    Goes (m.send operation)
      [(m.placeNamed Register.operation (.byte operation.code)).map planned] () := by
  unfold placeNamed send register
  cases m.catalog.lookup Register.operation with
  | ok r =>
    exact goes_ok_bind ((goes_write r _).bind (f := fun _ => _) (carries_report _).goes)
  | error e => exact goes_error_bind e _ [] ()

theorem adapt_bind {ε ε' α β : Type} (g : ε → ε') (d : ExceptT ε Dialog α)
    (f : α → ExceptT ε Dialog β) :
    ExceptT.adapt g (d >>= f) = ExceptT.adapt g d >>= fun a => ExceptT.adapt g (f a) := by
  change Except.mapError g <$> (d.run >>= _) = (Except.mapError g <$> d.run) >>= _
  rw [map_bind, bind_map_left]
  refine bind_congr fun outcome => ?_
  cases outcome <;> rfl

/-- The error of a stage is the error of what is done in it. -/
theorem adapt_during {α : Type} (stage : Stage) (part : Attempt α) :
    ExceptT.adapt Abandoned.error (during stage part) = part := by
  change Except.mapError Abandoned.error <$> (Except.mapError _ <$> part.run) = part.run
  rw [← comp_map]
  refine (congrArg (· <$> part.run) (funext fun outcome => ?_)).trans (id_map part.run)
  cases outcome <;> rfl

/-- The stages one after the other, and what they fail with. -/
theorem adapt_writeStages (record : Record) (prepared : List Prepared) :
    ExceptT.adapt Abandoned.error (m.writeStages record prepared) = (do
      m.writeMandatory record
      m.writeOptional prepared
      m.writeNamed Register.optBitmap (.byte (bitmapOf prepared).bits)
      m.send .commit : Attempt Unit) := by
  unfold writeStages
  simp only [adapt_bind, adapt_during]

theorem goes_finish (record : Record) (bitmap : Bitmap) {stages : ExceptT Abandoned Dialog Unit}
    {steps : List (Except TagError (Planned TagError))}
    (h : Goes (ExceptT.adapt Abandoned.error stages) steps ()) :
    Goes (finish record bitmap stages) steps () := by
  intro σ bus s
  rw [(run_finish record bitmap stages bus s).1, (run_finish record bitmap stages bus s).2]
  exact h σ bus s

/-- **A record write takes its steps**, when no optional register refuses its value. -/
theorem goes_writeRecord {record : Record}
    (hok : ∀ r ∈ m.catalog.optional, ¬ record.optional.Refuses r) :
    ∃ name values bits, Carried m.catalog record name values bits ∧
      Goes (m.writeRecord record) ((m.steps record name values bits).map (Except.map planned)) ()
    := by
  obtain ⟨prepared, hprepare, hmap, hfits⟩ := prepare_ok (fun _ hr => hr) hok
  refine ⟨_, _, _, carried_of_prepared hok hmap hfits, ?_⟩
  have hoptional : Carries (m.writeOptional prepared)
      ((m.optionalPlan (record.optional.assigned m.catalog.optional)).map planned) () :=
    carries_writeOptional_assigned hmap hfits
  have hbitmap := carries_writeNamed (m := m) (v := .byte (bitmapOf prepared).bits)
    m.catalog.bitmap_mem rfl
  have hstages : Goes (ExceptT.adapt Abandoned.error (m.writeStages record prepared))
      ((m.steps record (carried record.name) (record.optional.assigned m.catalog.optional)
        (bitmapOf prepared).bits).map (Except.map planned)) () := by
    have hall := (goes_writeMandatory (m := m) record).bind (f := fun _ => _)
      (hoptional.goes.bind (f := fun _ => _)
        (hbitmap.goes.bind (f := fun _ => _) (goes_send (m := m) .commit)))
    rw [adapt_writeStages]
    refine cast (congrArg (Goes _ · ()) ?_) hall
    simp only [steps, List.map_append, List.map_map, List.append_assoc]
    rfl
  exact (carries_reportIgnored _).goes.bind ((carries_ofExcept hprepare).goes.bind
    (goes_finish record (bitmapOf prepared) hstages))

/-! ### Writes that fail by themselves -/

theorem isDeviceUnavailable_of_follows {plan : List Request} {exchanges : List (Request × Reply)}
    {e : TagError} (h : Follows () (plan.map planned) exchanges (.error e)) :
    e.isDeviceUnavailable = true := by
  obtain ⟨p, hp, cause, rfl⟩ := h.exists_failure
  obtain ⟨r, -, rfl⟩ := List.mem_map.1 hp
  rfl

/-- A write that fails although no transaction does has taken the steps before the one that was
refused. -/
theorem steps_of_error {σ : Type} (bus : Bus σ) (s : σ) {record : Record} {e : TagError}
    (hok : ∀ r ∈ m.catalog.optional, ¬ record.optional.Refuses r)
    (hresult : ((m.writeRecord record).run.run bus s).result = .error e)
    (he : e.isDeviceUnavailable = false) :
    ∃ name values bits, Carried m.catalog record name values bits ∧
      verdict () (m.steps record name values bits) = .error e ∧
      ((m.writeRecord record).run.run bus s).exchanges.map Prod.fst =
        taken (m.steps record name values bits) ∧
      ∀ x ∈ ((m.writeRecord record).run.run bus s).exchanges, ∃ bytes, x.2 = .ok bytes := by
  obtain ⟨name, values, bits, hcarried, hgoes⟩ := goes_writeRecord (m := m) hok
  obtain ⟨done, hfollows, hending⟩ := hgoes σ bus s
  rw [taken_map] at hfollows
  rw [hresult, verdict_map] at hending
  cases done with
  | error e' =>
    obtain rfl : e = e' := Except.error.inj hending
    rw [isDeviceUnavailable_of_follows hfollows] at he
    cases he
  | ok u =>
    refine ⟨name, values, bits, hcarried, hending.symm, ?_, hfollows.acknowledged_of_ok⟩
    rw [hfollows.issued, map_request_planned]

/-- With registers of the kinds they have on the device nothing is refused but optional values. -/
theorem exchanges_of_tagRegisters {σ : Type} (bus : Bus σ) (s : σ) (l : m.catalog.TagRegisters)
    {record : Record} {e : TagError}
    (hresult : ((m.writeRecord record).run.run bus s).result = .error e)
    (he : e.isDeviceUnavailable = false) :
    ((m.writeRecord record).run.run bus s).exchanges = [] := by
  rcases refused_or_carries l record with hrefused | ⟨name, values, bits, -, hcarries⟩
  · exact (hrefused σ bus s).1
  · have hfollows := hcarries σ bus s
    rw [hresult] at hfollows
    rw [isDeviceUnavailable_of_follows hfollows] at he
    cases he

/-- **What was written when a record write fails although no transaction does**, in any catalog and on
any bus: the steps before the one that was refused, and nothing exactly if an optional register or the
first register of all refuses its value. -/
theorem nothing_written_iff {σ : Type} (bus : Bus σ) (s : σ) (m : Manager) (record : Record)
    (e : TagError) :
    let run := (m.writeRecord record).run.run bus s
    run.result = .error e → e.isDeviceUnavailable = false →
      (run.exchanges = [] ↔
        (∃ r ∈ m.catalog.optional, record.optional.Refuses r) ∨
          ∃ refusal, m.placeNamed Register.filamentId (.int32 record.id) = .error refusal) ∧
      (Nonempty m.catalog.TagRegisters → run.exchanges = []) ∧
      ((∀ r ∈ m.catalog.optional, ¬ record.optional.Refuses r) →
        ∃ name values bits, Carried m.catalog record name values bits ∧
          verdict () (m.steps record name values bits) = .error e ∧
          run.exchanges.map Prod.fst = taken (m.steps record name values bits) ∧
          ∀ x ∈ run.exchanges, ∃ bytes, x.2 = .ok bytes) := by
  intro run hresult he
  refine ⟨?_, fun ⟨l⟩ => exchanges_of_tagRegisters bus s l hresult he,
    fun hok => steps_of_error bus s hok hresult he⟩
  by_cases hok : ∀ r ∈ m.catalog.optional, ¬ record.optional.Refuses r
  · obtain ⟨name, values, bits, -, hverdict, hissued, -⟩ := steps_of_error bus s hok hresult he
    have hnone : run.exchanges = [] ↔ taken (m.steps record name values bits) = [] := by
      rw [← hissued, List.map_eq_nil_iff]
    rw [hnone]
    unfold steps mandatorySteps
    cases hfirst : m.placeNamed Register.filamentId (.int32 record.id) with
    | ok request =>
      constructor
      · intro h
        cases h
      · rintro (⟨r, hr, hrefuses⟩ | ⟨refusal, h⟩)
        · exact absurd hrefuses (hok r hr)
        · cases h
    | error refusal => exact ⟨fun _ => .inr ⟨refusal, rfl⟩, fun _ => rfl⟩
  · push Not at hok
    obtain ⟨r, hr, hrefuses⟩ := hok
    exact ⟨fun _ => .inl ⟨r, hr, hrefuses⟩,
      fun _ => (run_writeRecord_of_refused bus s hr hrefuses).1⟩

/-! ### A register that is too narrow -/

/-- The catalog of a device that has a byte for the weight of the spool. -/
def narrow : Catalog where
  registers :=
    [⟨Register.filamentId, 0x02, .int32⟩, ⟨Register.filamentNameLen, 0x03, .int32⟩,
      ⟨Register.filamentName, 0x04, .utf8String⟩, ⟨Register.spoolWeight, 0x05, .byte⟩,
      ⟨Register.totalWeight, 0x06, .int32⟩, ⟨Register.optBitmap, 0x07, .byte⟩,
      ⟨Register.operation, 0x0F, .byte⟩]
  layout := ⟨0x08, []⟩
  sound := by rfl

/-- A spool of 300 grams, which no byte takes. -/
def heavy : Record := ⟨7, "PLA", 300, 950, .empty⟩

/-- A weight that is refused leaves something written, and a multiplier that is refused on the device
leaves nothing. -/
theorem nothing_written_iff_narrow :
    (let m : Manager := ⟨0x42, narrow⟩
    let run := (m.writeRecord heavy).run.run Memory.bus { attached := [0x42] }
    let refusal : TagError := .kindMismatch Register.spoolWeight .byte
    run.result = .error refusal ∧ run.exchanges ≠ [] ∧
      ∃ name values bits, Carried m.catalog heavy name values bits ∧
        verdict () (m.steps heavy name values bits) = .error refusal ∧
        run.exchanges.map Prod.fst = taken (m.steps heavy name values bits)) ∧
    let m : Manager := ⟨0x42, .standard⟩
    let run := (m.writeRecord (heavy.withField "extr_multiplier" (.bool true))).run.run Memory.bus
      { attached := [0x42] }
    run.result = .error (.kindMismatch "extr_multiplier" .float32) ∧ run.exchanges = [] := by
  constructor
  · intro m run refusal
    have hresult : run.result = .error refusal := rfl
    obtain ⟨hiff, -, hsteps⟩ := nothing_written_iff Memory.bus { attached := [0x42] } m heavy
      refusal hresult rfl
    refine ⟨hresult, fun hnone => ?_, ?_⟩
    · rcases hiff.1 hnone with ⟨r, hr, -⟩ | ⟨e, he⟩
      · cases hr
      · cases he
    · obtain ⟨name, values, bits, hcarried, hverdict, hissued, -⟩ := hsteps (by decide)
      exact ⟨name, values, bits, hcarried, hverdict, hissued⟩
  · intro m run
    have hresult : run.result = .error (.kindMismatch "extr_multiplier" .float32) := rfl
    exact ⟨hresult, (nothing_written_iff Memory.bus { attached := [0x42] } m _ _ hresult rfl).2.1
      ⟨.standard⟩⟩

/-- The weight is refused when the number, the length of the name and the name have been written. -/
theorem written_before_weight_refused :
    let run := ((⟨0x42, narrow⟩ : Manager).writeRecord heavy).run.run Memory.bus
      { attached := [0x42] }
    run.result = .error (.kindMismatch Register.spoolWeight .byte) ∧
      run.exchanges.map Prod.fst =
        [.write 0x42 0x02 [7, 0, 0, 0], .write 0x42 0x03 [3, 0, 0, 0],
          .write 0x42 0x04 [0x50, 0x4C, 0x41]] :=
  ⟨rfl, rfl⟩

end Manager

end SpoolTag
