import SpoolTag.Proofs.Daemon.Answering
import SpoolTag.Proofs.Manager.RoundTrip
import SpoolTag.Proofs.Record.RoundTrip
import SpoolTag.Proofs.Value.Integers

/-! # Numbers that are posted for integer registers

A number in a posted record that is meant for a register of integers is refused before any transaction,
or the register holds an integer after the write (`Daemon.supplied_number`). The integer is the number if
that comes through reading as it is. Else it is another one that is near the number, since what is
converted is not the number but what it was rounded to (`Daemon.supplied_fraction`). -/

namespace SpoolTag

open SpoolTag.Json
open SpoolTag.Number

/-! ### Numbers in bodies -/

/-- The request supplies a number for an optional register: it posts the text of an object, in which the
number is the last member with the name of the register; and with a zero in the place of the number,
that object is a record of which every register takes its value. -/
structure Http.Request.Supplies (r : Http.Request) (q : Register) (n : Numeral) : Prop where
  path : Route.ofPath? r.path = some .write
  method : r.method = "POST"
  hasJson : r.hasJson = true
  length : r.body.length ≤ maxBody
  body : ∃ text before after record, r.body = Text.Utf8.encode text ∧
    Json.events text = (Document.object (before ++ (q.name, .number n) :: after)).events ++ [.finish] ∧
    q.name ∉ after.map Prod.fst ∧
    Record.ofEvents ((Document.object (before ++ (q.name, .int 0) :: after)).events ++ [.finish]) =
      .ok record ∧
    ∀ s ∈ Catalog.standard.optional, ¬ record.optional.Refuses s

/-- The body of a request is a record exactly if the text in it is. -/
theorem Http.Request.record_eq_ok_iff {r : Http.Request} (hjson : r.hasJson = true)
    (hlength : r.body.length ≤ maxBody) {text : List Char} (hbody : r.body = Text.Utf8.encode text)
    {record : Record} :
    r.record = .ok record ↔ Record.ofEvents (Json.events text) = .ok record := by
  unfold Http.Request.record
  rw [if_neg (not_not_intro hjson), if_neg (Nat.not_lt.2 hlength), hbody, Record.ofBytes_encode]
  cases Record.ofEvents (Json.events text) with
  | ok record' => constructor <;> rintro ⟨⟩ <;> rfl
  | error halt => constructor <;> rintro ⟨⟩

namespace Http.Request.Supplies

variable {r : Http.Request} {q : Register} {n : Numeral}

theorem spelled (h : r.Supplies q n) : Spelled n := by
  obtain ⟨text, before, after, -, -, hevents, -⟩ := h.body
  have hmember : ∀ members : List (String × Document),
      .number n ∈ Document.membersEvents (members ++ (q.name, .number n) :: after) := by
    intro members
    induction members with
    | nil => exact List.mem_cons_of_mem _ (List.mem_append_left _ (List.mem_singleton.2 rfl))
    | cons member rest ih => exact List.mem_cons_of_mem _ (List.mem_append_right _ ih)
  have hmem : .number n ∈ Json.events text := by
    rw [hevents]
    exact List.mem_append_left _ (List.mem_cons_of_mem _ (List.mem_append_left _ (hmember before)))
  exact spelled_of_mem_events hmem

/-- **What becomes of the body**: it is rejected with the number, or it is a record that has what the
number is read as under the name of the register, and in which every other register takes its value. -/
theorem record_cases (hq : q ∈ Catalog.standard.optional) (h : r.Supplies q n) :
    (Value.ofEvent? (.number n) = none ∧ ∃ rejection, r.record = .error rejection) ∨
      ∃ v record, Value.ofEvent? (.number n) = some v ∧ r.record = .ok record ∧
        record.optional.get? q.name = some v ∧
          ∀ s ∈ Catalog.standard.optional, s ≠ q → ¬ record.optional.Refuses s := by
  obtain ⟨text, before, after, zeroed, hbody, hevents, hafter, hread, hvalid⟩ := h.body
  have hkeys : ∀ s ∈ Catalog.standard.optional, Record.Mandatory.ofKey? s.name = none := by decide
  have hreplace := Record.ofEvents_replace (hkeys q hq) hafter hread (.number n)
  have hpassable : (Document.number n).passable 1 = (Number.ofNumeral? n).isSome := rfl
  have hrecord (record : Record) : r.record = .ok record ↔ Record.ofEvents
      ((Document.object (before ++ (q.name, .number n) :: after)).events ++ [.finish]) = .ok record :=
    hevents ▸ Http.Request.record_eq_ok_iff h.hasJson h.length hbody
  cases hnumber : Number.ofNumeral? n with
  | none =>
    refine .inl ⟨congrArg (Option.map Value.ofNumber) hnumber, ?_⟩
    rw [hpassable, hnumber] at hreplace
    cases hresult : r.record with
    | ok record =>
      exact absurd ((hreplace record).1 ((hrecord record).1 hresult)).1 Bool.false_ne_true
    | error rejection => exact ⟨rejection, rfl⟩
  | some number =>
    have hvalue : Value.ofEvent? (.number n) = some (Value.ofNumber number) :=
      congrArg (Option.map Value.ofNumber) hnumber
    rw [hpassable, hnumber, Document.first, hvalue] at hreplace
    have hread' := (hrecord _).2 ((hreplace _).2 ⟨rfl, rfl⟩)
    refine .inr ⟨_, _, hvalue, hread', ?_, fun s hs hne => ?_⟩
    · exact (Fields.get?_set _ _ _ _).trans (if_pos rfl)
    · have hname : q.name ≠ s.name := fun hsame =>
        hne (Catalog.eq_of_name_eq (Catalog.mem_of_mem_optional hs) (Catalog.mem_of_mem_optional hq)
          hsame.symm)
      have hget : (zeroed.optional.set q.name (some (Value.ofNumber number))).get? s.name =
          zeroed.optional.get? s.name := (Fields.get?_set _ _ _ _).trans (if_neg hname)
      unfold Fields.Refuses Fields.named Fields.valueFor
      dsimp only
      rw [hget]
      exact hvalid s hs

end Http.Request.Supplies

/-! ### Registers -/

/-- What is converted for a register of integers is an integer. -/
theorem Value.coerce?_int32 (v : Value) :
    v.coerce? .int32 = ((v.coerce? .int32).bind Value.int32?).map .int32 := by
  cases hw : v.coerce? .int32 with
  | none => rfl
  | some w =>
    have hkind := kind_of_coerce? hw
    cases w <;> cases hkind
    rfl

/-- After a write an optional register holds the value that the record has for it. -/
theorem Manager.get?_after_writeRecord {m : Manager} (l : m.catalog.TagRegisters) (hapart : l.Apart)
    {record : Record} {mem : Memory} (hattached : mem.attached.contains m.device)
    (hwritten : ((m.writeRecord record).run.run Memory.bus mem).result = .ok ()) {q : Register}
    (hq : q ∈ m.catalog.optional) {v : Value} (hv : record.optional.valueFor q = some v) :
    ((m.writeRecord record).run.run Memory.bus mem).state.get? m.device q.address = some v.bytes := by
  obtain ⟨name, values, bits, hcarried, hcarries⟩ :=
    carries_writeRecord l ((writeRecord_ok_iff l hattached).1 hwritten)
  have hfollows := hcarries Memory Memory.bus mem
  rw [hwritten] at hfollows
  rw [Dialog.state_run, hfollows.issued, Attempt.map_request_planned]
  have hassigned : (q, v) ∈ values :=
    (hcarried.assigned (q, v)).2 ⟨hq, Option.bind_eq_some_iff.1 hv⟩
  exact ((holdsTag_after_plan hapart hcarried hattached).optional _ hassigned).bytes

/-- Where one register only may refuse its value, this register decides: it does, and nothing happens, or
it holds its value after the write. -/
theorem Manager.writeRecord_of_others {m : Manager} (l : m.catalog.TagRegisters) (hapart : l.Apart)
    {record : Record} {mem : Memory} (hattached : mem.attached.contains m.device) {q : Register}
    (hq : q ∈ m.catalog.optional) (hnamed : record.optional.named q = true)
    (hothers : ∀ s ∈ m.catalog.optional, s ≠ q → ¬ record.optional.Refuses s) :
    let run := (m.writeRecord record).run.run Memory.bus mem
    match record.optional.valueFor q with
    | none => run.exchanges = [] ∧ run.state = mem ∧ run.result = .error (.kindMismatch q.name q.kind)
    | some v => run.result = .ok () ∧ run.state.get? m.device q.address = some v.bytes := by
  intro run
  cases hvalue : record.optional.valueFor q with
  | none =>
    have honly : ∀ s ∈ m.catalog.optional, record.optional.Refuses s → q.address ≤ s.address := by
      intro s hs hrefused
      by_cases hsame : s = q
      · rw [hsame]
        exact UInt8.le_refl _
      · exact absurd hrefused (hothers s hs hsame)
    obtain ⟨hexchanges, hresult⟩ :=
      run_writeRecord_of_refuses Memory.bus mem hq ⟨hnamed, hvalue⟩ honly
    refine ⟨hexchanges, ?_, hresult⟩
    rw [Dialog.state_run, hexchanges]
    rfl
  | some v =>
    have hnone : ∀ s ∈ m.catalog.optional, ¬ record.optional.Refuses s := by
      intro s hs hrefused
      by_cases hsame : s = q
      · rw [hsame, Fields.Refuses, hvalue] at hrefused
        cases hrefused.2
      · exact hothers s hs hsame hrefused
    have hwritten : run.result = .ok () := (writeRecord_ok_iff l hattached).2 hnone
    exact ⟨hwritten, get?_after_writeRecord l hapart hattached hwritten hq hvalue⟩

/-! ### Answers -/

namespace Daemon

variable {r : Http.Request} {q : Register} {n : Numeral}
  {w : World (Memory × List (Request × Reply))}

/-- What is read of the body decides the answer: it is rejected and nothing happens on the bus, or the
register holds the integer as which the number is taken. -/
theorem handle_supplied (device : UInt8) (time : String) (hq : q ∈ Catalog.standard.optional)
    (hkind : q.kind = .int32) (h : r.Supplies q n) (hattached : w.bus.1.attached.contains device) :
    let handled := (⟨Memory.bus.recorded, ⟨device, .standard⟩⟩ : Daemon _).handle time r w
    match n.taken? with
    | none => handled.1.status = 400 ∧ handled.2.bus = w.bus
    | some i => handled.1 = written ∧
        handled.2.bus.1.get? device q.address = some (wordBytes i.toUInt32) := by
  intro handled
  let m : Manager := ⟨device, .standard⟩
  have hhandled : handled = (⟨Memory.bus.recorded, m⟩ : Daemon _).handleWrite r w :=
    handle_write time h.path h.method
  rcases h.record_cases hq with
    ⟨hvalue, rejection, hrejected⟩ | ⟨v, record, hvalue, hrecord, hget, hothers⟩
  · have htaken : n.taken? = none := by
      unfold Numeral.taken?
      rw [hvalue]
      rfl
    obtain ⟨hresponse, hbus⟩ :=
      handleWrite_of_rejected (d := ⟨Memory.bus.recorded, m⟩) (w := w) hrejected
    rw [htaken, hhandled]
    exact ⟨congrArg Http.Response.status hresponse, hbus⟩
  · have htaken : n.taken? = (v.coerce? .int32).bind Value.int32? := by
      unfold Numeral.taken?
      rw [hvalue]
      rfl
    have hassigned : record.optional.valueFor q = n.taken?.map .int32 := by
      rw [Fields.valueFor_of_get? hget, hkind, htaken]
      exact v.coerce?_int32
    obtain ⟨hresponse, hbus⟩ :=
      handleWrite_of_record (d := ⟨Memory.bus.recorded, m⟩) (w := w) hrecord
    rw [← hhandled, Dialog.run_recorded] at hresponse hbus
    have hdecided := Manager.writeRecord_of_others (m := m) .standard
      (show Catalog.TagRegisters.standard.Apart by decide) hattached hq (Fields.named_of_get? hget) hothers
    cases hi : n.taken? with
    | none =>
      rw [hassigned, hi] at hdecided
      obtain ⟨hexchanges, hstate, hresult⟩ := hdecided
      rw [hresult] at hresponse
      rw [hstate, hexchanges, List.append_nil] at hbus
      exact ⟨congrArg Http.Response.status hresponse, hbus⟩
    | some i =>
      rw [hassigned, hi] at hdecided
      obtain ⟨hresult, hholds⟩ := hdecided
      rw [hresult] at hresponse
      refine ⟨hresponse, ?_⟩
      rw [hbus]
      exact hholds

/-- **A number that is posted for a register of integers** is rejected before any transaction, or the
register holds an integer near it afterwards. The integer is the number exactly if that comes through
reading as it is; and a number that does so is rejected only if it is no integer of 32 bits. -/
theorem supplied_number (device : UInt8) (time : String) (hq : q ∈ Catalog.standard.optional)
    (hkind : q.kind = .int32) (h : r.Supplies q n) (hattached : w.bus.1.attached.contains device) :
    let handled := (⟨Memory.bus.recorded, ⟨device, .standard⟩⟩ : Daemon _).handle time r w
    (handled.1.status = 400 ∧ handled.2.bus = w.bus ∧
        (n.Faithful → ∀ i : Int32, n.value ≠ i.toInt)) ∨
      (handled.1 = written ∧ ∃ i : Int32,
        handled.2.bus.1.get? device q.address = some (wordBytes i.toUInt32) ∧
        |(i.toInt : ℚ) - n.value| ≤ n.size / 2 ^ 23 + 1 / 2 ^ 149 ∧
        (n.value = i.toInt ↔ n.Faithful)) := by
  intro handled
  have houtcome := handle_supplied device time hq hkind h hattached
  cases hi : n.taken? with
  | none =>
    rw [hi] at houtcome
    refine .inl ⟨houtcome.1, houtcome.2, fun hfaithful i hvalue => ?_⟩
    rw [← Numeral.taken?_iff_of_faithful h.spelled hfaithful, hi] at hvalue
    cases hvalue
  | some i =>
    rw [hi] at houtcome
    exact .inr ⟨houtcome.1, i, houtcome.2, Numeral.taken?_near h.spelled hi,
      Numeral.faithful_of_taken? h.spelled hi,
      fun hfaithful => (Numeral.taken?_iff_of_faithful h.spelled hfaithful).1 hi⟩

/-- A record with a number for a temperature. -/
def heated (n : Numeral) : Document :=
  .object [("id", .int 7), ("name", .string "PLA"), ("spool_weight", .int 250),
    ("total_weight", .int 1000), ("extr_temp", .number n)]

theorem supplies_heated (hn : Spelled n) (hlength : (posting (heated n).text).body.length ≤ maxBody) :
    (posting (heated n).text).Supplies ⟨"extr_temp", 0x0A, .int32⟩ n where
  path := show Route.ofPath? (posting []).path = some .write by decide
  method := rfl
  hasJson := show (posting []).hasJson = true by decide
  length := hlength
  body := by
    have hsound : (heated n).Sound :=
      ⟨spelled_ofInt 7, trivial, spelled_ofInt 250, spelled_ofInt 1000, hn, trivial⟩
    refine ⟨(heated n).text, [("id", .int 7), ("name", .string "PLA"), ("spool_weight", .int 250),
      ("total_weight", .int 1000)], [], ⟨7, "PLA", 250, 1000, Fields.empty.insert "extr_temp" (.int32 0)⟩,
      rfl, events_text hsound, List.not_mem_nil, by decide +kernel, by decide⟩

/-- A number with a point and an exponent that is an integer is written. -/
theorem supplied_number_hundreds :
    let n : Numeral := { whole := ['2'], fraction := ['1'], exponent := some ⟨false, ['2']⟩ }
    let handled := (⟨Memory.bus.recorded, ⟨0x42, .standard⟩⟩ : Daemon _).handle "12:00"
      (posting (heated n).text) ⟨({ attached := [0x42] }, []), {}, []⟩
    n.value = 210 ∧ handled.1 = written ∧
      handled.2.bus.1.get? 0x42 0x0A = some [0xD2, 0x00, 0x00, 0x00] := by
  intro n handled
  have hspelled : Spelled n := {
    whole := ⟨List.cons_ne_nil _ _, List.all_eq_true.1 rfl⟩
    bare := by decide
    fraction := List.all_eq_true.1 rfl
    exponent := by
      rintro _ ⟨⟩
      exact ⟨List.cons_ne_nil _ _, List.all_eq_true.1 rfl⟩ }
  have hvalue : n.value = ((210 : Int32).toInt : ℚ) := by
    have hdigits : Nat.ofDigitChars 10 (n.whole ++ n.fraction) 0 = 21 := by decide
    have hexponent : exponentValue n.exponent - n.fraction.length = 1 := by decide
    have hsize : n.size = 210 := by
      rw [Numeral.size, hdigits, hexponent]
      norm_num
    rw [Numeral.value, if_neg (by decide), hsize]
    rfl
  have hfaithful : n.Faithful := by
    refine .inr ⟨.ofInt 210, by decide +kernel, ?_⟩
    rw [hvalue]
    exact (Single.value_ofInt_eq_iff (i := 210) (by decide)).2 ⟨210, 0, by decide, by decide⟩
  have hsupplies := supplies_heated hspelled (by decide +kernel)
  rcases supplied_number 0x42 "12:00" (by decide) rfl hsupplies
    (w := ⟨({ attached := [0x42] }, []), {}, []⟩) (by decide) with
    ⟨-, -, hrejected⟩ | ⟨hwritten, i, hholds, -, hexact⟩
  · exact absurd hvalue (hrejected hfaithful 210)
  · have hi := hexact.2 hfaithful
    rw [hvalue] at hi
    have hsame : (210 : Int32) = i := Int32.toInt_inj.1 (by exact_mod_cast hi)
    subst hsame
    exact ⟨hvalue, hwritten, hholds⟩

/-- A number with a fraction is written as an integer, where the fraction is lost in single precision. -/
theorem supplied_fraction :
    let n : Numeral := { whole := ['1', '6', '7', '7', '7', '2', '1', '6'], fraction := ['5'] }
    let r := posting (heated n).text
    let handled := (⟨Memory.bus.recorded, ⟨0x42, .standard⟩⟩ : Daemon _).handle "12:00" r
      ⟨({ attached := [0x42] }, []), {}, []⟩
    r.Supplies ⟨"extr_temp", 0x0A, .int32⟩ n ∧ n.value = 33554433 / 2 ∧
      (¬ ∃ i : ℤ, n.value = i) ∧ handled.1 = written ∧
      handled.2.bus.1.get? 0x42 0x0A = some [0x00, 0x00, 0x00, 0x01] := by
  intro n r handled
  have hspelled : Spelled n := {
    whole := ⟨List.cons_ne_nil _ _, List.all_eq_true.1 rfl⟩
    bare := by decide
    fraction := List.all_eq_true.1 rfl
    exponent := fun _ h => nomatch h }
  have hvalue : n.value = 33554433 / 2 := by
    have hdigits : Nat.ofDigitChars 10 (n.whole ++ n.fraction) 0 = 167772165 := by decide
    have hexponent : exponentValue n.exponent - n.fraction.length = -1 := by decide
    rw [Numeral.value, if_neg (by decide), Numeral.size, hdigits, hexponent]
    norm_num
  refine ⟨supplies_heated hspelled (by decide +kernel), hvalue, ?_, ?_⟩
  · rintro ⟨i, hi⟩
    rw [hvalue, div_eq_iff two_ne_zero] at hi
    have hint : (33554433 : ℤ) = i * 2 := by exact_mod_cast hi
    omega
  · constructor <;> decide +kernel

end Daemon

end SpoolTag
