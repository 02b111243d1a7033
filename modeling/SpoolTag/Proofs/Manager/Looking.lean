import SpoolTag.Daemon.Change
import SpoolTag.Proofs.Bus.Memory

/-! # Looking at a device

Looking changes nothing: every way to read from a manager leaves the registers alone and finds what
they hold (`still_look`), even if that cannot be read as what it should be. The status and the record
in a sighting are what reads of them alone find (`readStatus_of_look`, `readRecord_of_look`). -/

namespace SpoolTag

open Memory

namespace Manager

variable (m : Manager)

theorem still_read (r : Register) : Still (m.read r) := by
  unfold read
  split
  · exact Still.throw _
  · next width _ =>
    exact (Still.read m.device r.address width).bind fun bytes =>
      (Still.ofExcept (r.decode bytes)).bind fun v => (Still.report _).bind fun _ => Still.pure v

theorem still_readAs {α : Type} (name : String) (expected : Kind) (view : Value → Option α) :
    Still (m.readAs name expected view) := by
  unfold readAs
  refine (Still.ofExcept (m.catalog.lookup name)).bind fun r => (m.still_read r).bind fun v => ?_
  split
  · exact Still.pure _
  · exact Still.throw _

theorem still_readStatus : Still m.readStatus := by
  have hbool : ∀ name, Still (m.readBool name) := fun name => m.still_readAs name _ _
  exact (hbool _).bind fun present => (hbool _).bind fun nfcValid => Still.pure _

theorem still_readText (r : Register) (length : Int32) : Still (m.readText r length) := by
  have hneed : Still (needText r) := by
    unfold needText
    split
    · exact Still.pure ()
    · exact Still.throw _
  unfold readText
  refine hneed.bind fun _ => ?_
  dsimp only
  split
  · exact (Still.report _).bind fun _ => Still.pure ""
  · refine (Still.read m.device r.address (textCount length)).bind fun bytes => ?_
    split
    · exact Still.throw _
    · split
      · exact Still.throw _
      · exact (Still.report _).bind fun _ => Still.pure _

theorem still_readFields (registers : List Register) :
    ∀ fields : Fields, Still (m.readFields fields registers) := by
  induction registers with
  | nil => intro fields; exact Still.pure fields
  | cons r rest ih => intro fields; exact (m.still_read r).bind fun v => ih _

theorem still_readRecord : Still m.readRecord := by
  have hint : ∀ name, Still (m.readInt32 name) := fun name => m.still_readAs name _ _
  have hregister : Still (m.register Register.filamentName) := Still.ofExcept _
  have hbyte : Still (m.readByte Register.optBitmap) := m.still_readAs _ _ _
  exact (hint _).bind fun _ => (hint _).bind fun _ => hregister.bind fun r =>
    (m.still_readText r _).bind fun _ => (hint _).bind fun _ => (hint _).bind fun _ =>
      hbyte.bind fun _ => (Still.report _).bind fun _ =>
        (m.still_readFields _ .empty).bind fun _ => Still.pure _

theorem still_look : Still m.look := by
  refine m.still_readStatus.bind fun status => ?_
  split
  · exact m.still_readRecord.bind fun _ => Still.pure _
  · exact Still.pure _

/-- The status in a sighting is what a read of the status finds. -/
theorem readStatus_of_look {σ : Type} {bus : Bus σ} {s : σ} {seen : Sighting}
    (h : (m.look.run.run bus s).result = .ok seen) :
    (m.readStatus.run.run bus s).result = .ok seen.status := by
  obtain ⟨status, hstatus, hrest⟩ := Dialog.of_bind_ok h
  rw [hstatus]
  split at hrest
  · obtain ⟨record, -, hpure⟩ := Dialog.of_bind_ok hrest
    cases hpure
    rfl
  · cases hrest
    rfl

/-- The record in a sighting is what a read of the record finds, and there is one if and only if the
status tells of one. -/
theorem readRecord_of_look {mem : Memory} {seen : Sighting}
    (h : (m.look.run.run bus mem).result = .ok seen) :
    (seen.record.isSome = seen.status.hasRecord) ∧
      ∀ record, seen.record = some record →
        (m.readRecord.run.run bus mem).result = .ok record := by
  obtain ⟨status, -, hrest⟩ := Dialog.of_bind_ok h
  obtain ⟨later, hstate⟩ := m.still_readStatus.state_eq mem
  split at hrest
  · next hhas =>
    obtain ⟨record, hread, hpure⟩ := Dialog.of_bind_ok hrest
    cases hpure
    refine ⟨hhas.symm, ?_⟩
    rintro _ ⟨⟩
    rw [hstate, m.still_readRecord.result_eq mem later] at hread
    exact hread
  · next hhas =>
    cases hrest
    exact ⟨(Bool.eq_false_iff.2 hhas).symm, nofun⟩

end Manager

end SpoolTag
