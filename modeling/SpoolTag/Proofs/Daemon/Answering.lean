import SpoolTag.Daemon.Api
import SpoolTag.Proofs.Daemon.Polling
import SpoolTag.Proofs.Manager.WriteSteps

/-! # What the answer to a write tells

A request to write a record is answered by one of three statuses, and each of them says what happened
on the device (`Daemon.answer_tells`). The device is written to only after the body was read, so a
rejected body leaves no transaction; the write itself is refused before its first transaction or
carries out its plan, and from then on nothing but a transaction can fail.

A handler does not show its transactions. `Bus.recorded` keeps them in the state of the bus, which no
dialog can see (`Dialog.run_recorded`). -/

namespace SpoolTag

variable {σ : Type}

/-! ### A bus with a record of its transactions -/

/-- The bus with all transactions so far and their replies. -/
def Bus.recorded (bus : Bus σ) : Bus (σ × List (Request × Reply)) where
  answer r s :=
    let answer := bus.answer r s.1
    ⟨answer.reply, answer.notices, (answer.state, s.2 ++ [(r, answer.reply)])⟩

theorem Dialog.run_recorded {α : Type} (bus : Bus σ) (d : Dialog α)
    (s : σ × List (Request × Reply)) :
    d.run bus.recorded s =
      { d.run bus s.1 with
        state := ((d.run bus s.1).state, s.2 ++ (d.run bus s.1).exchanges) } := by
  induction d generalizing s with
  | done a => simp [run]
  | note notice next ih => simp [run, ih]
  | ask r next ih =>
    have hnext := ih (bus.answer r s.1).reply
      ((bus.answer r s.1).state, s.2 ++ [(r, (bus.answer r s.1).reply)])
    unfold run
    dsimp only [Bus.recorded] at hnext ⊢
    rw [hnext]
    simp

/-! ### The route -/

namespace Daemon

variable {d : Daemon σ} {r : Http.Request} {w : World σ}

theorem handle_write (time : String) (hpath : Route.ofPath? r.path = some .write)
    (hmethod : r.method = "POST") : d.handle time r w = d.handleWrite r w := by
  unfold handle
  rw [hpath, hmethod]
  rfl

theorem handleWrite_of_rejected {rejection : Rejection} (h : r.record = .error rejection) :
    (d.handleWrite r w).1 = .failure 400 rejection.message ∧ (d.handleWrite r w).2.bus = w.bus := by
  unfold handleWrite
  rw [h]
  exact ⟨rfl, rfl⟩

/-- The answer to a record that was written. -/
def written : Http.Response := .document 200 (.object [("status", .string "OK")])

/-- The answer to what came of writing a record. -/
def told : Except TagError Unit → Http.Response
  | .ok () => written
  | .error e => .failure e.httpStatus e.message

/-- A record that was read is written, and the answer tells what came of that. -/
theorem handleWrite_of_record {record : Record} (h : r.record = .ok record) :
    let run := (d.manager.writeRecord record).run.run d.bus w.bus
    (d.handleWrite r w).1 = told run.result ∧ (d.handleWrite r w).2.bus = run.state := by
  intro run
  unfold handleWrite
  rw [h]
  dsimp only
  rw [Act.bind_apply, Act.bind_apply]
  change (answer _ run.result _).1 = _ ∧ (answer _ run.result _).2.bus = _
  cases run.result <;> exact ⟨rfl, rfl⟩

/-! ### Outcomes -/

open Attempt

variable {m : Manager}

/-- The body is no record, or an optional register does not take the value that it has for it. -/
def Refused (c : Catalog) (r : Http.Request) : Prop :=
  (∃ rejection, r.record = .error rejection) ∨
    ∃ record, r.record = .ok record ∧ ∃ q ∈ c.optional, record.optional.Refuses q

/-- The transactions that write the record in the body, in which every optional register takes the
value that it has for it. -/
def WritesAs (m : Manager) (l : m.catalog.TagRegisters) (r : Http.Request) (plan : List Request) :
    Prop :=
  ∃ record name values bits, r.record = .ok record ∧
    (∀ q ∈ m.catalog.optional, ¬ record.optional.Refuses q) ∧
      Manager.Carried m.catalog record name values bits ∧
        plan = m.writePlan l record name values bits

theorem WritesAs.exists_staging {l : m.catalog.TagRegisters} {plan : List Request}
    (h : WritesAs m l r plan) :
    ∃ staging, plan = staging ++ [m.commitPlan l] ∧ m.commitPlan l ∉ staging := by
  obtain ⟨record, name, values, bits, -, -, hcarried, rfl⟩ := h
  exact ⟨_, rfl, Manager.commitPlan_notMem_stagingPlan fun q hq => hcarried.mem_optional hq⟩

theorem not_writesAs_of_refused {l : m.catalog.TagRegisters} {plan : List Request}
    (h : Refused m.catalog r) : ¬ WritesAs m l r plan := by
  rintro ⟨record, name, values, bits, hrecord, hok, -⟩
  rcases h with ⟨rejection, hrejected⟩ | ⟨record', hrecord', q, hq, hrefuses⟩
  · rw [hrecord] at hrejected
    cases hrejected
  · rw [hrecord] at hrecord'
    cases hrecord'
    exact hok q hq hrefuses

/-- A plan that was carried out was issued as it is, and all of it was acknowledged. -/
theorem carried_of_follows {plan : List Request} {exchanges : List (Request × Reply)}
    (h : Follows () (plan.map planned) exchanges (.ok ())) :
    exchanges.map Prod.fst = plan ∧ ∀ x ∈ exchanges, x.2.isOk = true := by
  refine ⟨by rw [h.issued, map_request_planned], fun x hx => ?_⟩
  obtain ⟨bytes, hbytes⟩ := h.acknowledged_of_ok x hx
  rw [hbytes]
  rfl

/-- A plan that was not carried out ends with its first transaction that failed, before the commit,
and the answer says that the device is not available. -/
theorem WritesAs.broken_of_follows {l : m.catalog.TagRegisters} {plan : List Request}
    (h : WritesAs m l r plan) {exchanges : List (Request × Reply)} {e : TagError}
    (hfollows : Follows () (plan.map planned) exchanges (.error e)) :
    (told (.error e)).status = 503 ∧
      ∃ earlier request cause, exchanges = earlier ++ [(request, .error cause)] ∧
        (∀ x ∈ earlier, x.2.isOk = true) ∧ exchanges.map Prod.fst <+: plan ∧
          m.commitPlan l ∉ succeeded exchanges := by
  obtain ⟨earlier, request, cause, hsplit, hearlier, hprefix⟩ := hfollows.stops
  rw [map_request_planned] at hprefix
  refine ⟨?_, earlier, request, cause, hsplit, hearlier, hprefix, ?_⟩
  · have he := Manager.isDeviceUnavailable_of_follows hfollows
    cases e <;> first | rfl | cases he
  · obtain ⟨staging, rfl, hcommit⟩ := h.exists_staging
    have hsucceeded := hfollows.succeeded_of_error
    rw [map_request_planned, List.dropLast_concat] at hsucceeded
    exact fun hmem => hcommit (hsucceeded.mem hmem)

/-- **What a write can come to**: it is refused without a transaction, or its plan is followed and the
answer tells how far. -/
theorem handleWrite_cases (bus : Bus σ) (m : Manager) (l : m.catalog.TagRegisters)
    (r : Http.Request) (w : World (σ × List (Request × Reply))) :
    let handled := (⟨bus.recorded, m⟩ : Daemon _).handleWrite r w
    (Refused m.catalog r ∧ handled.1.status = 400 ∧ handled.2.bus.2 = w.bus.2) ∨
      ∃ plan exchanges outcome, WritesAs m l r plan ∧ Follows () (plan.map planned) exchanges outcome ∧
        handled.1 = told outcome ∧ handled.2.bus.2 = w.bus.2 ++ exchanges := by
  intro handled
  cases hrecord : r.record with
  | error rejection =>
    obtain ⟨hresponse, hbus⟩ :=
      handleWrite_of_rejected (d := ⟨bus.recorded, m⟩) (w := w) hrecord
    refine .inl ⟨.inl ⟨rejection, hrecord⟩, ?_, congrArg Prod.snd hbus⟩
    exact congrArg Http.Response.status hresponse
  | ok record =>
    let run := (m.writeRecord record).run.run bus w.bus.1
    obtain ⟨hresponse, hbus⟩ :=
      handleWrite_of_record (d := ⟨bus.recorded, m⟩) (w := w) hrecord
    rw [Dialog.run_recorded] at hresponse hbus
    have hlog : handled.2.bus.2 = w.bus.2 ++ run.exchanges := congrArg Prod.snd hbus
    by_cases hok : ∀ q ∈ m.catalog.optional, ¬ record.optional.Refuses q
    · obtain ⟨name, values, bits, hcarried, hcarries⟩ := Manager.carries_writeRecord l hok
      exact .inr ⟨_, _, _, ⟨record, name, values, bits, hrecord, hok, hcarried, rfl⟩,
        hcarries σ bus w.bus.1, hresponse, hlog⟩
    · push Not at hok
      obtain ⟨q, hq, hrefuses⟩ := hok
      obtain ⟨first, hfirst, hfirstRefuses, hleast⟩ := Manager.exists_first_refused hq hrefuses
      obtain ⟨hexchanges, hresult⟩ :=
        Manager.run_writeRecord_of_refuses bus w.bus.1 hfirst hfirstRefuses hleast
      refine .inl ⟨.inr ⟨record, hrecord, q, hq, hrefuses⟩, ?_, ?_⟩
      · have hstatus := congrArg Http.Response.status hresponse
        rw [hresult] at hstatus
        exact hstatus
      · rw [hlog, hexchanges, List.append_nil]

/-! ### The answer -/

/-- **The answer to a write tells what happened on the device.** -/
theorem answer_tells (bus : Bus σ) (device : UInt8) (time : String) (r : Http.Request)
    (w : World (σ × List (Request × Reply))) (hpath : Route.ofPath? r.path = some .write)
    (hmethod : r.method = "POST") :
    let m : Manager := ⟨device, .standard⟩
    let handled := (⟨bus.recorded, m⟩ : Daemon _).handle time r w
    ∃ exchanges, handled.2.bus.2 = w.bus.2 ++ exchanges ∧
      handled.1.status ∈ [200, 400, 503] ∧
      (handled.1.status = 200 → handled.1 = written) ∧
      (handled.1.status = 200 ↔ ∃ plan, WritesAs m .standard r plan ∧
        exchanges.map Prod.fst = plan ∧ ∀ x ∈ exchanges, x.2.isOk = true) ∧
      (handled.1.status = 400 ↔ Refused m.catalog r) ∧
      (handled.1.status = 400 → exchanges = []) ∧
      (handled.1.status = 503 ↔ ∃ x ∈ exchanges, x.2.isOk = false) ∧
      (handled.1.status = 503 → ∃ plan earlier request cause, WritesAs m .standard r plan ∧
        exchanges = earlier ++ [(request, .error cause)] ∧ (∀ x ∈ earlier, x.2.isOk = true) ∧
          exchanges.map Prod.fst <+: plan ∧ m.commitPlan .standard ∉ succeeded exchanges) := by
  intro m handled
  have hhandled : handled = (⟨bus.recorded, m⟩ : Daemon _).handleWrite r w :=
    handle_write time hpath hmethod
  rw [hhandled]
  rcases handleWrite_cases bus m .standard r w with
    ⟨hrefused, hstatus, hlog⟩ | ⟨plan, exchanges, outcome, hplan, hfollows, hresponse, hlog⟩
  · refine ⟨[], by rw [hlog, List.append_nil], ?_⟩
    rw [hstatus]
    have h200 : (400 : Nat) ≠ 200 := by decide
    have h503 : (400 : Nat) ≠ 503 := by decide
    refine ⟨by decide, fun h => absurd h h200, ⟨fun h => absurd h h200, ?_⟩,
      ⟨fun _ => hrefused, fun _ => rfl⟩, fun _ => rfl, ⟨fun h => absurd h h503, by simp⟩,
      fun h => absurd h h503⟩
    rintro ⟨plan, hplan, -⟩
    exact absurd hplan (not_writesAs_of_refused hrefused)
  · refine ⟨exchanges, hlog, ?_⟩
    have hnotRefused : ¬ Refused m.catalog r := fun h => not_writesAs_of_refused h hplan
    rw [hresponse]
    cases outcome with
    | ok u =>
      obtain ⟨hissued, hok⟩ := carried_of_follows hfollows
      have hstatus : (told (.ok u)).status = 200 := rfl
      rw [hstatus]
      have h400 : (200 : Nat) ≠ 400 := by decide
      have h503 : (200 : Nat) ≠ 503 := by decide
      refine ⟨by decide, fun _ => rfl, ⟨fun _ => ⟨plan, hplan, hissued, hok⟩, fun _ => rfl⟩,
        ⟨fun h => absurd h h400, fun h => absurd h hnotRefused⟩, fun h => absurd h h400,
        ⟨fun h => absurd h h503, ?_⟩, fun h => absurd h h503⟩
      rintro ⟨x, hx, hfailed⟩
      rw [hok x hx] at hfailed
      cases hfailed
    | error e =>
      obtain ⟨hstatus, earlier, request, cause, hsplit, hearlier, hprefix, hcommit⟩ :=
        hplan.broken_of_follows hfollows
      have hfailed : (request, .error cause) ∈ exchanges := by
        rw [hsplit]
        exact List.mem_append_right _ List.mem_cons_self
      rw [hstatus]
      have h200 : (503 : Nat) ≠ 200 := by decide
      have h400 : (503 : Nat) ≠ 400 := by decide
      refine ⟨by decide, fun h => absurd h h200, ⟨fun h => absurd h h200, ?_⟩,
        ⟨fun h => absurd h h400, fun h => absurd h hnotRefused⟩, fun h => absurd h h400,
        ⟨fun _ => ⟨_, hfailed, rfl⟩, fun _ => rfl⟩,
        fun _ => ⟨plan, earlier, request, cause, hplan, hsplit, hearlier, hprefix, hcommit⟩⟩
      rintro ⟨plan', -, -, hok⟩
      cases hok _ hfailed

/-- A request to write what a text says. -/
def posting (text : List Char) : Http.Request where
  method := "POST"
  uri := Route.write.path
  headers := [("content-type", "application/json")]
  body := Text.Utf8.encode text

/-- A record with one optional field. -/
def specimen : Record := ⟨7, "PLA", 250, 1000, Fields.empty.insert "extr_temp" (.int32 210)⟩

/-- A record is written when the device is there, and nothing is committed when it is not. -/
theorem answer_tells_specimen :
    let m : Manager := ⟨0x42, .standard⟩
    let r := posting specimen.document.text
    let handled (attached : List UInt8) :=
      (⟨Memory.bus.recorded, m⟩ : Daemon _).handle "12:00" r ⟨({ attached }, []), {}, []⟩
    (handled [0x42]).1 = written ∧
      (∃ plan, WritesAs m .standard r plan ∧ (handled [0x42]).2.bus.2.map Prod.fst = plan) ∧
      (handled []).1.status = 503 ∧ m.commitPlan .standard ∉ succeeded (handled []).2.bus.2 := by
  intro m r handled
  have hpath : Route.ofPath? r.path = some .write := by decide
  have hwritten : (handled [0x42]).1.status = 200 := by decide +kernel
  have hfailed : (handled []).1.status = 503 := by decide +kernel
  obtain ⟨exchanges, hlog, -, hbody, hdone, -⟩ := answer_tells Memory.bus 0x42 "12:00" r
    ⟨({ attached := [0x42] }, []), {}, []⟩ hpath rfl
  obtain ⟨none, hnone, -, -, -, -, -, -, hbroken⟩ := answer_tells Memory.bus 0x42 "12:00" r
    ⟨({ attached := [] }, []), {}, []⟩ hpath rfl
  obtain ⟨plan, hplan, hissued, -⟩ := hdone.1 hwritten
  obtain ⟨-, -, -, -, -, -, -, -, hcommit⟩ := hbroken hfailed
  refine ⟨hbody hwritten, ⟨plan, hplan, ?_⟩, hfailed, ?_⟩
  · rw [hlog]
    exact hissued
  · rw [hnone]
    exact hcommit

end Daemon

end SpoolTag
