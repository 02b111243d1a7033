import SpoolTag.Proofs.Bus.FailFast
import SpoolTag.Proofs.Bus.Kernel
import SpoolTag.Proofs.Manager.WritePlan

/-! # What a driver may be used for

Every operation of a manager fails fast, and asks only for transactions with its own device that an
adapter can carry (`Request.For`): reads of one byte or four or, for a string, between one and
thirty-two, and writes of no more than thirty-two bytes. Looking up a register, converting a value
and reading bytes can go wrong as well, but never in a way that looks like a failed transaction.

`Driver.Use` lists the operations. So whatever a driver is used for, a transaction that fails is the
last one, and nothing but that makes the device unavailable (`Driver.unavailable_iff_last_failed`). -/

namespace SpoolTag

/-- A transaction with the device that an adapter can carry. -/
def Request.For (device : UInt8) (r : Request) : Prop := r.device = device ∧ r.Fits

/-! ### What goes wrong without a transaction -/

theorem Catalog.clears_lookup (c : Catalog) (name : String) : Clears id (c.lookup name) := by
  unfold lookup
  split
  · exact clears_ok _
  · exact clears_error rfl

theorem Catalog.clears_bitIndex (c : Catalog) (r : Register) : Clears id (c.bitIndex r) := by
  unfold bitIndex
  split
  · exact clears_error rfl
  · exact clears_ok _

theorem Value.clears_coerce (v : Value) (kind : Kind) (register : String) :
    Clears id (v.coerce kind register) := by
  unfold coerce
  split
  · exact clears_ok _
  · exact clears_error rfl

namespace Register

variable (r : Register)

theorem clears_encode (v : Value) : Clears id (r.encode v) := by
  unfold encode
  split
  · exact clears_error rfl
  · split
    · exact clears_ok _
    · exact clears_error rfl

theorem clears_decode (bytes : List UInt8) : Clears id (r.decode bytes) := by
  unfold decode
  split
  · exact clears_error rfl
  · split
    · exact clears_error rfl
    · cases r.kind with
      | utf8String => exact clears_error rfl
      | _ => exact clears_ok _

end Register

namespace Manager

open Dialog

theorem clears_prepare (c : Catalog) (fields : Fields) (registers : List Register) :
    Clears id (prepare c fields registers) := by
  induction registers with
  | nil => exact clears_ok _
  | cons r rest ih =>
    unfold prepare
    split
    · exact ih
    · next v _ =>
      have hindex := c.clears_bitIndex r
      have hvalue := v.clears_coerce r.kind r.name
      cases hi : c.bitIndex r with
      | error e => exact clears_error (hindex e hi)
      | ok index =>
        cases hv : v.coerce r.kind r.name with
        | error e => exact clears_error (hvalue e hv)
        | ok value =>
          cases hrest : prepare c fields rest with
          | error e => exact clears_error (ih e hrest)
          | ok others => exact clears_ok _

variable (m : Manager)

/-! ### Registers -/

theorem failsFast_open (device : UInt8) (catalog : Catalog) :
    (Manager.open device catalog).run.FailsFast (Request.For device) id :=
  (FailsFast.transact (r := .probe device) ⟨rfl, trivial⟩).andThen fun _ =>
    (FailsFast.report _).andThen fun _ => FailsFast.pure _

theorem failsFast_read (r : Register) : (m.read r).run.FailsFast (Request.For m.device) id := by
  unfold read
  split
  · exact FailsFast.throw rfl
  · next width hwidth =>
    have hfits : (Request.read m.device r.address width).Fits := by
      have h : width = 1 ∨ width = 4 := by
        cases hkind : r.kind <;> rw [hkind] at hwidth <;> cases hwidth <;> simp
      rcases h with rfl | rfl <;> exact ⟨by decide, by decide⟩
    exact (FailsFast.transact ⟨rfl, hfits⟩).andThen fun bytes =>
      FailsFast.ofExcept (r.clears_decode bytes) fun v _ =>
        (FailsFast.report _).andThen fun _ => FailsFast.pure v

theorem failsFast_write (r : Register) (v : Value) :
    (m.write r v).run.FailsFast (Request.For m.device) id := by
  unfold write
  split
  · exact FailsFast.throw rfl
  · refine FailsFast.ofExcept (v.clears_coerce r.kind r.name) fun w _ =>
      FailsFast.ofExcept (r.clears_encode w) fun bytes hbytes => ?_
    have hfits : (Request.write m.device r.address bytes).Fits := by
      have hlength := w.length_bytes_le
      rw [← Register.eq_bytes_of_encode hbytes] at hlength
      change bytes.length + 1 < 65536
      omega
    exact (FailsFast.transact ⟨rfl, hfits⟩).andThen fun _ => FailsFast.report _

theorem failsFast_needText (r : Register) :
    (needText r).run.FailsFast (Request.For m.device) id := by
  unfold needText
  split
  · exact FailsFast.pure ()
  · exact FailsFast.throw rfl

theorem failsFast_readText (r : Register) (length : Int32) :
    (m.readText r length).run.FailsFast (Request.For m.device) id := by
  unfold readText
  refine (m.failsFast_needText r).andThen fun _ => ?_
  dsimp only
  split
  · exact (FailsFast.report _).andThen fun _ => FailsFast.pure _
  · next hcount =>
    have hfits : (Request.read m.device r.address (textCount length)).Fits := by
      have hle : textCount length ≤ 32 := Nat.min_le_right _ _
      change 0 < textCount length ∧ textCount length < 65536
      omega
    refine (FailsFast.transact ⟨rfl, hfits⟩).andThen fun bytes => ?_
    split
    · exact FailsFast.throw rfl
    · split
      · exact FailsFast.throw rfl
      · exact (FailsFast.report _).andThen fun _ => FailsFast.pure _

theorem failsFast_writeText (r : Register) (text : String) (lengthRegister : Register) :
    (m.writeText r text lengthRegister).run.FailsFast (Request.For m.device) id := by
  have hfits : (Request.write m.device r.address (Text.Utf8.encode (carried text))).Fits := by
    have hle : (Text.Utf8.encode (carried text)).length ≤ 32 :=
      (Text.Utf8.fitting_isLongest text.toList Register.maxStringBytes).fits
    change _ + 1 < 65536
    omega
  have hrest : ((do
      m.write lengthRegister (.int32 (Int32.ofNat (Text.Utf8.encode (carried text)).length))
      let _ ← Attempt.transact (.write m.device r.address (Text.Utf8.encode (carried text)))
      Attempt.report (.textWritten r.name (Text.Utf8.encode (carried text)).length)
      pure (Text.Utf8.encode (carried text)).length : Attempt Nat)).run.FailsFast
        (Request.For m.device) id :=
    (m.failsFast_write _ _).andThen fun _ => (FailsFast.transact ⟨rfl, hfits⟩).andThen fun _ =>
      (FailsFast.report _).andThen fun _ => FailsFast.pure _
  unfold writeText
  refine (m.failsFast_needText r).andThen fun _ => ?_
  dsimp only
  split
  · exact (FailsFast.report _).andThen fun _ => hrest
  · exact hrest

theorem failsFast_send (operation : Operation) :
    (m.send operation).run.FailsFast (Request.For m.device) id :=
  FailsFast.ofExcept (m.catalog.clears_lookup _) fun r _ =>
    (m.failsFast_write r _).andThen fun _ => FailsFast.report _

/-! ### Records -/

theorem failsFast_readAs {α : Type} (name : String) (expected : Kind) (view : Value → Option α) :
    (m.readAs name expected view).run.FailsFast (Request.For m.device) id := by
  refine FailsFast.ofExcept (m.catalog.clears_lookup name) fun r _ =>
    (m.failsFast_read r).andThen fun v => ?_
  split
  · exact FailsFast.pure _
  · exact FailsFast.throw rfl

theorem failsFast_readStatus : m.readStatus.run.FailsFast (Request.For m.device) id :=
  (m.failsFast_readAs _ _ _).andThen fun _ => (m.failsFast_readAs _ _ _).andThen fun _ =>
    FailsFast.pure _

theorem failsFast_readFields (registers : List Register) : ∀ fields : Fields,
    (m.readFields fields registers).run.FailsFast (Request.For m.device) id := by
  induction registers with
  | nil => intro fields; exact FailsFast.pure fields
  | cons r rest ih => intro fields; exact (m.failsFast_read r).andThen fun v => ih _

theorem failsFast_readRecord : m.readRecord.run.FailsFast (Request.For m.device) id :=
  (m.failsFast_readAs _ _ _).andThen fun _ => (m.failsFast_readAs _ _ _).andThen fun _ =>
    FailsFast.ofExcept (m.catalog.clears_lookup _) fun r _ =>
      (m.failsFast_readText r _).andThen fun _ =>
        (m.failsFast_readAs _ _ _).andThen fun _ => (m.failsFast_readAs _ _ _).andThen fun _ =>
          (m.failsFast_readAs _ _ _).andThen fun _ => (FailsFast.report _).andThen fun _ =>
            (m.failsFast_readFields _ _).andThen fun _ => FailsFast.pure _

theorem failsFast_writeNamed (name : String) (v : Value) :
    (m.writeNamed name v).run.FailsFast (Request.For m.device) id :=
  FailsFast.ofExcept (m.catalog.clears_lookup name) fun r _ => m.failsFast_write r v

theorem failsFast_writeMandatory (record : Record) :
    (m.writeMandatory record).run.FailsFast (Request.For m.device) id :=
  (m.failsFast_writeNamed _ _).andThen fun _ =>
    FailsFast.ofExcept (m.catalog.clears_lookup _) fun _ _ =>
      FailsFast.ofExcept (m.catalog.clears_lookup _) fun _ _ =>
        (m.failsFast_writeText _ _ _).andThen fun _ =>
          (m.failsFast_writeNamed _ _).andThen fun _ => m.failsFast_writeNamed _ _

theorem failsFast_writeOptional (prepared : List Prepared) :
    (m.writeOptional prepared).run.FailsFast (Request.For m.device) id := by
  induction prepared with
  | nil => exact FailsFast.pure ()
  | cons p rest ih => exact (m.failsFast_write _ _).andThen fun _ => ih

/-- A stage fails with what is done in it. -/
theorem failsFast_during {α : Type} {stage : Stage} {part : Attempt α}
    (h : part.run.FailsFast (Request.For m.device) id) :
    (during stage part).run.FailsFast (Request.For m.device) Abandoned.error :=
  FailsFast.adapt (fun _ => rfl) h

theorem failsFast_writeStages (record : Record) (prepared : List Prepared) :
    (m.writeStages record prepared).run.FailsFast (Request.For m.device) Abandoned.error :=
  (m.failsFast_during (m.failsFast_writeMandatory record)).andThen fun _ =>
    (m.failsFast_during (m.failsFast_writeOptional prepared)).andThen fun _ =>
      (m.failsFast_during (m.failsFast_writeNamed _ _)).andThen fun _ =>
        m.failsFast_during (m.failsFast_send _)

theorem failsFast_reportIgnored (names : List String) :
    (m.reportIgnored names).run.FailsFast (Request.For m.device) id := by
  induction names with
  | nil => exact FailsFast.pure ()
  | cons name rest ih =>
    unfold reportIgnored
    dsimp only
    split
    · exact ih
    · exact (FailsFast.report _).andThen fun _ => ih

/-- What the stages came to is reported and passed on. -/
theorem failsFast_finish {record : Record} {bitmap : Bitmap} {p : Request → Prop}
    {stages : ExceptT Abandoned Dialog Unit} (h : stages.run.FailsFast p Abandoned.error) :
    (finish record bitmap stages).run.FailsFast p id := by
  unfold finish
  rw [ExceptT.run_bind, ExceptT.run_liftM, ← bind_pure_comp, LawfulMonad.bind_assoc]
  refine FailsFast.bind h (fun outcome hclears => ?_) fun outcome device cause hblames => ?_
  · cases outcome with
    | ok u => exact clears_ok ()
    | error abandoned => exact clears_error (hclears abandoned rfl)
  · obtain ⟨abandoned, rfl, habandoned⟩ := hblames
    exact ⟨abandoned.error, rfl, habandoned⟩

theorem failsFast_writeRecord (record : Record) :
    (m.writeRecord record).run.FailsFast (Request.For m.device) id :=
  (m.failsFast_reportIgnored _).andThen fun _ =>
    FailsFast.ofExcept (clears_prepare _ _ _) fun prepared _ =>
      failsFast_finish (m.failsFast_writeStages record prepared)

end Manager

/-! ### Uses -/

namespace Driver

/-- Something a driver is asked for. -/
inductive Use where
  | connect (device : UInt8) (catalog : Catalog)
  | readStatus (m : Manager)
  | readRecord (m : Manager)
  | writeRecord (m : Manager) (record : Record)
  | read (m : Manager) (r : Register)
  | write (m : Manager) (r : Register) (v : Value)
  | readText (m : Manager) (r : Register) (length : Int32)
  | writeText (m : Manager) (r : Register) (text : String) (lengthRegister : Register)
  | send (m : Manager) (operation : Operation)

namespace Use

def Result : Use → Type
  | connect _ _ => Manager
  | readStatus _ => Status
  | readRecord _ => Record
  | read _ _ => Value
  | readText _ _ _ => String
  | writeText _ _ _ _ => Nat
  | writeRecord _ _ | write _ _ _ | send _ _ => Unit

def attempt : (u : Use) → Attempt u.Result
  | connect device catalog => Manager.open device catalog
  | readStatus m => m.readStatus
  | readRecord m => m.readRecord
  | writeRecord m record => m.writeRecord record
  | read m r => m.read r
  | write m r v => m.write r v
  | readText m r length => m.readText r length
  | writeText m r text lengthRegister => m.writeText r text lengthRegister
  | send m operation => m.send operation

/-- The device with which the driver is to deal. -/
def device : Use → UInt8
  | connect device _ => device
  | readStatus m | readRecord m | writeRecord m _ | read m _ | write m _ _ | readText m _ _
  | writeText m _ _ _ | send m _ => m.device

theorem failsFast (u : Use) : u.attempt.run.FailsFast (Request.For u.device) id := by
  cases u with
  | connect device catalog => exact Manager.failsFast_open device catalog
  | readStatus m => exact m.failsFast_readStatus
  | readRecord m => exact m.failsFast_readRecord
  | writeRecord m record => exact m.failsFast_writeRecord record
  | read m r => exact m.failsFast_read r
  | write m r v => exact m.failsFast_write r v
  | readText m r length => exact m.failsFast_readText r length
  | writeText m r text lengthRegister => exact m.failsFast_writeText r text lengthRegister
  | send m operation => exact m.failsFast_send operation

end Use

/-- What a use of the driver came to. -/
structure Upshot where
  use : Use
  result : Except TagError use.Result

/-- **A transaction that fails is the last one**, whatever the driver is used for and on any bus. The
device is called unavailable exactly if the last transaction failed, and for the reason that it
failed with. -/
theorem unavailable_iff_last_failed {σ : Type} (u : Use) (bus : Bus σ) (s : σ) :
    let run := u.attempt.run.run bus s
    (∀ e ∈ run.exchanges, e.1.device = u.device) ∧
    (∀ e ∈ run.exchanges.dropLast, e.2.isOk = true) ∧
    ∀ device cause, run.result = .error (.deviceUnavailable device cause) ↔
      device = u.device ∧ ∃ earlier r, run.exchanges = earlier ++ [(r, .error cause)] := by
  intro run
  have hasks : u.attempt.run.Asks fun r => r.device = u.device := u.failsFast.asks fun _ hr => hr.1
  refine ⟨hasks.of_mem_exchanges bus s, ?_⟩
  rcases u.failsFast.run bus s with
    ⟨hall, hclears⟩ | ⟨earlier, r, cause, hlast, hall, ⟨hdevice, -⟩, e, hresult, rfl⟩
  · refine ⟨fun e he => hall e (List.dropLast_subset _ he), fun device cause => ⟨?_, ?_⟩⟩
    · intro hunavailable
      cases hclears _ hunavailable
    · rintro ⟨-, earlier, r, hlast⟩
      have hmem : (r, .error cause) ∈ run.exchanges := by simp [hlast]
      cases hall _ hmem
  · rw [hlast, hresult, ← hdevice, List.dropLast_concat]
    refine ⟨hall, fun device cause' => ⟨?_, ?_⟩⟩
    · rintro ⟨⟩
      exact ⟨rfl, earlier, r, rfl⟩
    · rintro ⟨rfl, before, q, hsplit⟩
      obtain ⟨rfl, hcause⟩ : q = r ∧ cause' = cause := by
        simpa using (List.append_inj' hsplit.symm rfl).2
      rw [hcause]

end Driver

end SpoolTag
