import SpoolTag.Proofs.Manager.ReadProtocol
import SpoolTag.Daemon.Change

/-! # What a look reads

On a bus that answers as it likes. A reading of the status that succeeds has read the two flags, one
byte each, and nothing else (`readsFlags_of_readStatus`); a look succeeds exactly if its reading of the
status does and, when the status has a record, the reading of the record that follows does
(`look_eq_ok_iff`). -/

namespace SpoolTag

namespace Manager

variable {σ : Type} {m : Manager} {bus : Bus σ} {s : σ}

/-! ### Flags -/

/-- The transactions read the two flags of the status, one byte each, and both replies spell what the
status says. -/
def ReadsFlags (m : Manager) (status : Status) (exchanges : List (Request × Reply)) : Prop :=
  ∃ p ∈ m.catalog.registers, ∃ q ∈ m.catalog.registers,
    p.name = Register.present ∧ q.name = Register.nfcValid ∧
      ∃ reply reply', p.Tells reply (.bool status.present) ∧
        q.Tells reply' (.bool status.nfcValid) ∧
        exchanges =
          [(.read m.device p.address 1, reply), (.read m.device q.address 1, reply')]

/-- A read that gives a truth value has read one byte of a flag. -/
theorem exchanges_of_readBool {name : String} {b : Bool}
    (h : ((m.readBool name).run.run bus s).result = .ok b) :
    ∃ r ∈ m.catalog.registers, r.name = name ∧ ∃ reply, r.Tells reply (.bool b) ∧
      ((m.readBool name).run.run bus s).exchanges = [(.read m.device r.address 1, reply)] := by
  obtain ⟨r, hlookup, hread⟩ := Dialog.of_bind_ok h
  obtain ⟨hmem, rfl⟩ := Catalog.of_lookup hlookup
  obtain ⟨v, hv, hview⟩ := Dialog.of_bind_ok hread
  have hr : r.kind ≠ .utf8String := by
    intro hkind
    unfold read at hv
    rw [hkind] at hv
    cases hv
  obtain ⟨_, _, hinquires⟩ := inquires_read bus s m hr
  obtain ⟨-, rfl⟩ := hinquires.of_ok hv
  -- the register spells its own kind, and no other one is seen as a truth value
  have hkind : r.kind = .bool := by
    cases hkind : r.kind with
    | bool => rfl
    | utf8String => exact absurd hkind hr
    | _ => rw [hkind] at hview; cases hview
  obtain ⟨reply, later, hreads⟩ : ∃ reply later, Inquires bus m.device (m.readBool r.name)
      [(r.query, reply)] s (littleEndian (Reply.bytes reply) != 0) later := by
    refine inquires_readAs bus s Value.bool? (fun bytes => littleEndian bytes != 0) hmem hr
      fun bytes => ?_
    rw [hkind]
    rfl
  obtain ⟨hgood, hb⟩ := hreads.of_ok h
  have htells := Register.tells_of_good hr (Option.or_eq_none_iff.1 hgood).1
  rw [hkind] at htells
  refine ⟨r, hmem, rfl, reply, ?_, ?_⟩
  · rw [← hb]
    exact htells
  · refine hreads.exchanges.trans ((Inquiry.exchanges_of_good hgood).trans ?_)
    unfold Register.query
    rw [hkind]
    rfl

/-- **A status that was read is what the two flags spell**, and they are all that was read. -/
theorem readsFlags_of_readStatus {status : Status}
    (h : (m.readStatus.run.run bus s).result = .ok status) :
    m.ReadsFlags status (m.readStatus.run.run bus s).exchanges := by
  obtain ⟨present, hpresent, hrest⟩ := Dialog.of_bind_ok h
  obtain ⟨nfcValid, hvalid, hpure⟩ := Dialog.of_bind_ok hrest
  obtain rfl : (⟨present, nfcValid⟩ : Status) = status := Except.ok.inj hpure
  obtain ⟨p, hp, hpname, reply, htells, hfirst⟩ := exchanges_of_readBool hpresent
  obtain ⟨q, hq, hqname, reply', htells', hsecond⟩ := exchanges_of_readBool hvalid
  refine ⟨p, hp, q, hq, hpname, hqname, reply, reply', htells, htells', ?_⟩
  have hrun := Dialog.run_of_bind_ok (f := fun present => m.readBool Register.nfcValid >>=
    fun nfcValid => pure (⟨present, nfcValid⟩ : Status)) hpresent
  have hrun' := Dialog.run_of_bind_ok
    (f := fun nfcValid => (pure ⟨present, nfcValid⟩ : Attempt Status)) hvalid
  change m.readStatus.run.run bus s = _ at hrun
  rw [hrun, hrun']
  simp [Run.after, hfirst, hsecond]

/-! ### Sightings -/

/-- From this state of the bus on, the status of the sighting is read, and then, if the status has a
record, the record. -/
structure Finds (m : Manager) (bus : Bus σ) (s : σ) (seen : Sighting) : Prop where
  status : (m.readStatus.run.run bus s).result = .ok seen.status
  record : if seen.status.hasRecord then
      ∃ record, (m.readRecord.run.run bus (m.readStatus.run.run bus s).state).result = .ok record ∧
        seen.record = some record
    else seen.record = none

/-- There is something to find once the status is read, unless this has a record that cannot be
read. -/
theorem exists_finds_iff {status : Status} (h : (m.readStatus.run.run bus s).result = .ok status) :
    (∃ seen, m.Finds bus s seen) ↔ (status.hasRecord = true → ∃ record,
      (m.readRecord.run.run bus (m.readStatus.run.run bus s).state).result = .ok record) := by
  constructor
  · rintro ⟨seen, hstatus, hrecord⟩ hhas
    cases h.symm.trans hstatus
    obtain ⟨record, hread, -⟩ := (if_pos hhas).mp hrecord
    exact ⟨record, hread⟩
  · intro hrecord
    by_cases hhas : status.hasRecord = true
    · obtain ⟨record, hread⟩ := hrecord hhas
      exact ⟨⟨status, some record⟩, h, (if_pos hhas).mpr ⟨record, hread, rfl⟩⟩
    · exact ⟨⟨status, none⟩, h, (if_neg hhas).mpr rfl⟩

/-- A look finds what there is to read, and works exactly if this can be read. -/
theorem look_eq_ok_iff {seen : Sighting} :
    (m.look.run.run bus s).result = .ok seen ↔ m.Finds bus s seen := by
  constructor
  · intro h
    obtain ⟨status, hstatus, hrest⟩ := Dialog.of_bind_ok h
    split at hrest
    · next hhas =>
      obtain ⟨record, hrecord, hpure⟩ := Dialog.of_bind_ok hrest
      obtain rfl : (⟨status, some record⟩ : Sighting) = seen := Except.ok.inj hpure
      exact ⟨hstatus, (if_pos hhas).mpr ⟨record, hrecord, rfl⟩⟩
    · next hhas =>
      obtain rfl : (⟨status, none⟩ : Sighting) = seen := Except.ok.inj hrest
      exact ⟨hstatus, (if_neg hhas).mpr rfl⟩
  · obtain ⟨status, record⟩ := seen
    rintro ⟨hstatus, hrecord⟩
    have hrun := Dialog.run_of_bind_ok (f := fun status => if status.hasRecord then
      m.readRecord >>= fun record => pure (⟨status, some record⟩ : Sighting)
      else pure ⟨status, none⟩) hstatus
    change m.look.run.run bus s = _ at hrun
    rw [hrun]
    split at hrecord
    · next hhas =>
      obtain ⟨found, hfound, rfl⟩ := hrecord
      have hrest := Dialog.run_of_bind_ok
        (f := fun record => (pure ⟨status, some record⟩ : Attempt Sighting)) hfound
      rw [if_pos hhas, hrest]
      rfl
    · next hhas =>
      obtain rfl : record = none := hrecord
      rw [if_neg hhas]
      rfl

end Manager

end SpoolTag
