import SpoolTag.Proofs.Bus.Staging
import SpoolTag.Proofs.Manager.ReadProtocol
import SpoolTag.Proofs.Manager.RoundTrip

/-! # Writes that are abandoned

On a device that stages what is written, a record write is all or nothing, wherever a transaction
fails: it fails and changes nothing that can be read (`applied_of_error`), or it comes to its end
and the record can be read (`holdsTag_of_ok`). What earlier writes left behind is applied by the
commit of a later one, but every register that a read of the later record looks at has been written
by it as well. So after any run of writes, of which any number was abandoned, the device shows the
last record that was written (`shown_after_writes`). -/

namespace SpoolTag

namespace Manager

variable {m : Manager} {l : m.catalog.TagRegisters} {fails : Nat → Option BusError}
  {record : Record} {name : List Char} {values : List (Register × Value)} {bits : UInt8}

/-! ### One write -/

theorem stages_stagingPlan (h : Carried m.catalog record name values bits) :
    Staging.Stages l.operation m.device (m.stagingPlan l record name values bits) := by
  intro r hr
  rw [stagingPlan_eq] at hr
  obtain ⟨p, hp, rfl⟩ := List.mem_map.1 hr
  obtain ⟨hmem, hname⟩ := mem_contents (fun r hr => h.mem_optional hr) hp
  exact ⟨_, _, rfl, l.address_ne_operation hmem hname⟩

/-- A write that fails has changed nothing that can be read. -/
theorem applied_of_error {s : Nat × Staging} {e : TagError}
    (herror : ((m.writeRecord record).run.run ((Staging.bus l.operation).failing fails) s).result =
      .error e) :
    ((m.writeRecord record).run.run ((Staging.bus l.operation).failing fails) s).state.2.applied =
      s.2.applied := by
  rw [Dialog.state_failing fun _ _ _ => Staging.state_of_error]
  rcases refused_or_carries l record with hrefused | ⟨name, values, bits, hcarried, hcarries⟩
  · rw [(hrefused _ _ s).1]
    rfl
  · have hfollows := hcarries _ ((Staging.bus l.operation).failing fails) s
    rw [herror] at hfollows
    have hbegun := hfollows.succeeded_of_error
    rw [Attempt.map_request_planned, writePlan, List.dropLast_concat] at hbegun
    exact Staging.applied_after (fun r hr => stages_stagingPlan hcarried r (hbegun.subset hr)) s.2

/-- After writes of whatever was left behind, the plan of a write fills every register that a read
of the record looks at. -/
theorem holdsTag_after_leftovers {mem : Memory} (hapart : l.Apart)
    (h : Carried m.catalog record name values bits) (hattached : mem.attached.contains m.device)
    (leftovers : List Request) :
    m.HoldsTag (Memory.bus.stateAfter (leftovers ++ m.stagingPlan l record name values bits) mem)
      l record name values bits := by
  have hafter : (Memory.bus.stateAfter leftovers mem).attached.contains m.device := by
    rw [Memory.attached_after]
    exact hattached
  refine holdsTag_of_contents h ?_ fun p hp => ?_
  · rw [Memory.attached_after]
    exact hattached
  · rw [Bus.stateAfter_append, stagingPlan_eq_writes]
    exact Memory.get?_after_of_mem hafter (nodup_addresses_plan hapart h).of_append_left
      (List.mem_map_of_mem (f := fun p : Register × List UInt8 => (p.1.address, p.2)) hp)

/-- Only an attached device acknowledges a commit. -/
theorem attached_of_ok {s : Nat × Staging} {plan : List Request}
    (hfollows : Follows () ((plan ++ [m.commitPlan l]).map Attempt.planned)
      ((m.writeRecord record).run.run ((Staging.bus l.operation).failing fails) s).exchanges
      (.ok ())) : s.2.applied.attached.contains m.device := by
  have hissued := hfollows.issued
  rw [Attempt.map_request_planned] at hissued
  have hcommit : m.commitPlan l ∈ plan ++ [m.commitPlan l] :=
    List.mem_append_right _ (List.mem_singleton.2 rfl)
  rw [← hissued] at hcommit
  obtain ⟨⟨request, reply⟩, hmem, rfl⟩ := List.mem_map.1 hcommit
  obtain ⟨bytes, rfl⟩ := hfollows.acknowledged_of_ok _ hmem
  exact Staging.attached_of_written hmem

/-- A write that comes to its end is what can be read. -/
theorem holdsTag_of_ok (hapart : l.Apart) {s : Nat × Staging}
    (hok : ((m.writeRecord record).run.run ((Staging.bus l.operation).failing fails) s).result =
      .ok ()) :
    ∃ name values bits, Carried m.catalog record name values bits ∧
      m.HoldsTag ((m.writeRecord record).run.run ((Staging.bus l.operation).failing fails)
        s).state.2.applied l record name values bits := by
  rcases refused_or_carries l record with hrefused | ⟨name, values, bits, hcarried, hcarries⟩
  · obtain ⟨-, e, he⟩ := hrefused _ ((Staging.bus l.operation).failing fails) s
    rw [he] at hok
    cases hok
  · refine ⟨name, values, bits, hcarried, ?_⟩
    have hfollows := hcarries _ ((Staging.bus l.operation).failing fails) s
    rw [hok] at hfollows
    have hsucceeded := hfollows.succeeded_of_ok
    rw [Attempt.map_request_planned, writePlan] at hsucceeded
    rw [Dialog.state_failing fun _ _ _ => Staging.state_of_error, hsucceeded]
    have hattached : s.2.applied.attached.contains m.device := attached_of_ok hfollows
    rw [commitPlan, put, show (Value.byte Operation.commit.code).bytes = [Operation.commit.code]
      from rfl, Staging.applied_after_commit (stages_stagingPlan hcarried) hattached]
    exact holdsTag_after_leftovers hapart hcarried hattached _

/-! ### What the device shows -/

/-- What a record read comes to when none of its transactions fails. -/
def shown (m : Manager) (operation : UInt8) (d : Staging) : Except TagError Record :=
  (m.readRecord.run.run (Staging.bus operation) d).result

/-- A record read sees what is applied. -/
theorem shown_eq (l : m.catalog.TagRegisters) (d : Staging) :
    m.shown l.operation d = (m.readRecord.run.run Memory.bus d.applied).result := by
  obtain ⟨t, later, hread⟩ := inquires_readRecord (Staging.bus l.operation) d m l.forReading
  refine Staging.result_of_reads m.readRecord.run d d.applied.recent fun e he => ?_
  obtain ⟨address, count, hrequest⟩ := Inquiry.request_mem_exchanges e (hread.exchanges ▸ he)
  exact ⟨m.device, address, count, hrequest⟩

/-- **A write is all or nothing**, wherever a transaction fails. -/
theorem shown_after_write (hapart : l.Apart) (fails : Nat → Option BusError) (record : Record)
    (s : Nat × Staging) :
    let run := (m.writeRecord record).run.run ((Staging.bus l.operation).failing fails) s
    (∀ e, run.result = .error e → m.shown l.operation run.state.2 = m.shown l.operation s.2) ∧
      (run.result = .ok () → ∃ kept, m.shown l.operation run.state.2 = .ok kept ∧
        record.KeptAs m.catalog kept) := by
  intro run
  constructor
  · intro e herror
    rw [shown_eq, shown_eq, applied_of_error herror]
  · intro hok
    obtain ⟨name, values, bits, hcarried, hholds⟩ := holdsTag_of_ok hapart hok
    rw [shown_eq]
    exact ⟨_, (shows_readRecord hholds).result, keptAs_of_carried hcarried⟩

/-! ### Runs of writes -/

section Runs

variable {σ : Type} (m : Manager) (bus : Bus σ)

/-- Writes records one after the other, whatever comes of each. -/
def writeAll : List Record → σ → σ
  | [], s => s
  | record :: rest, s => writeAll rest ((m.writeRecord record).run.run bus s).state

/-- The last of the records whose write comes to its end. -/
def lastWritten : List Record → σ → Option Record
  | [], _ => none
  | record :: rest, s =>
    let run := (m.writeRecord record).run.run bus s
    (lastWritten rest run.state).or
      (match run.result with
        | .ok () => some record
        | .error _ => none)

end Runs

/-- **After any run of writes the device shows the last record that was written**, or what it showed
before if none was. -/
theorem shown_after_writes (hapart : l.Apart) (fails : Nat → Option BusError)
    (records : List Record) : ∀ s : Nat × Staging,
    let bus := (Staging.bus l.operation).failing fails
    match m.lastWritten bus records s with
    | some record => ∃ kept, m.shown l.operation (m.writeAll bus records s).2 = .ok kept ∧
        record.KeptAs m.catalog kept
    | none => m.shown l.operation (m.writeAll bus records s).2 = m.shown l.operation s.2 := by
  induction records with
  | nil => exact fun s => rfl
  | cons record rest ih =>
    intro s
    let run := (m.writeRecord record).run.run ((Staging.bus l.operation).failing fails) s
    obtain ⟨hfailed, hwritten⟩ := shown_after_write hapart fails record s
    have hrest := ih run.state
    unfold lastWritten writeAll
    dsimp only at hrest ⊢
    cases hlast : m.lastWritten ((Staging.bus l.operation).failing fails) rest run.state with
    | some last =>
      rw [hlast] at hrest
      exact hrest
    | none =>
      -- later writes have changed nothing that is shown, so this one decides
      rw [hlast] at hrest
      cases hresult : run.result with
      | ok u =>
        obtain ⟨kept, hkept, hkeptAs⟩ := hwritten hresult
        exact ⟨kept, hrest.trans hkept, hkeptAs⟩
      | error e => exact hrest.trans (hfailed e hresult)

/-- A temperature whose commit fails does not show when the next record is committed. -/
example :
    let m : Manager := ⟨0x42, .standard⟩
    let first : Record := ⟨1, "PLA", 200, 1000, Fields.empty.insert "bed_temp" (.int32 60)⟩
    let second : Record := ⟨2, "PETG", 250, 1250, .empty⟩
    let bus := (Staging.bus 0x0F).failing fun n =>
      if n = 7 then some (.noAcknowledge 0x42) else none
    let s : Nat × Staging := (0, ⟨{ attached := [0x42] }, []⟩)
    m.shown 0x0F (m.writeAll bus [first] s).2 = m.shown 0x0F s.2 ∧
      m.shown 0x0F (m.writeAll bus [first, second] s).2 = .ok second := by
  decide

/-- The same on the device of the standard catalog, from any state of it and for any transactions
that fail. -/
theorem shows_last_written (device : UInt8) (fails : Nat → Option BusError) (records : List Record)
    (s : Nat × Staging) :
    let m : Manager := ⟨device, .standard⟩
    let bus := (Staging.bus 0x0F).failing fails
    match m.lastWritten bus records s with
    | some record => ∃ kept, m.shown 0x0F (m.writeAll bus records s).2 = .ok kept ∧
        record.KeptAs .standard kept
    | none => m.shown 0x0F (m.writeAll bus records s).2 = m.shown 0x0F s.2 :=
  shown_after_writes (m := ⟨device, .standard⟩) (l := .standard)
    (show Catalog.TagRegisters.standard.Apart by decide) fails records s

end Manager

end SpoolTag
