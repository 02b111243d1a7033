import SpoolTag.Bus.Memory
import SpoolTag.Proofs.Manager.WritePlan

/-! # The protocol of a record write

What a record write does on a bus that fails where it likes. A record with a value that an optional
register refuses is not written at all, and the first such register by address is reported.
Otherwise the transactions are those of the plan up to and including the first that fails. The
commit is the last of them and goes to a register of its own, so it is only ever asked for when
everything else was acknowledged. -/

namespace SpoolTag

namespace Manager

open Attempt

variable {m : Manager}

/-- The first register by address that refuses its value is found. -/
theorem prepare_of_first_refused {c : Catalog} {fields : Fields} {r : Register} (hr : r ∈ c.optional)
    (hrefuses : fields.Refuses r)
    (hfirst : ∀ q ∈ c.optional, fields.Refuses q → r.address ≤ q.address) :
    prepare c fields c.optional = .error (.kindMismatch r.name r.kind) := by
  obtain ⟨before, after, hsplit⟩ := List.append_of_mem hr
  have hsorted := c.sorted_optional
  rw [hsplit] at hsorted
  have hbefore : ∀ q ∈ before, ¬ fields.Refuses q := by
    intro q hq hrefused
    have hlt : q.address < r.address :=
      (List.pairwise_append.1 hsorted).2.2 q hq r List.mem_cons_self
    have hle : r.address ≤ q.address := hfirst q (hsplit ▸ List.mem_append_left _ hq) hrefused
    exact absurd hle (UInt8.not_le.2 hlt)
  rw [hsplit]
  exact prepare_refused (fun s hs => hsplit ▸ hs) hbefore hrefuses

/-- The first register by address that refuses its value is reported, before any transaction. -/
theorem run_writeRecord_of_refuses {σ : Type} (bus : Bus σ) (s : σ) {record : Record} {r : Register}
    (hr : r ∈ m.catalog.optional) (hrefuses : record.optional.Refuses r)
    (hfirst : ∀ q ∈ m.catalog.optional, record.optional.Refuses q → r.address ≤ q.address) :
    ((m.writeRecord record).run.run bus s).exchanges = [] ∧
      ((m.writeRecord record).run.run bus s).result = .error (.kindMismatch r.name r.kind) :=
  run_writeRecord_refused bus s (prepare_of_first_refused hr hrefuses hfirst)

/-- Of the registers that refuse their values one is the first by address. -/
theorem exists_first_refused {c : Catalog} {fields : Fields} {r : Register} (hr : r ∈ c.optional)
    (hrefuses : fields.Refuses r) :
    ∃ first ∈ c.optional, fields.Refuses first ∧
      ∀ q ∈ c.optional, fields.Refuses q → first.address ≤ q.address := by
  have hmem : ∀ q, q ∈ c.optional.filter (fun q => decide (fields.Refuses q)) ↔
      q ∈ c.optional ∧ fields.Refuses q := by
    intro q
    rw [List.mem_filter, decide_eq_true_iff]
  have hsorted := c.sorted_optional.filter fun q => decide (fields.Refuses q)
  cases hrefused : c.optional.filter fun q => decide (fields.Refuses q) with
  | nil =>
    have := (hmem r).2 ⟨hr, hrefuses⟩
    rw [hrefused] at this
    cases this
  | cons first rest =>
    rw [hrefused] at hmem hsorted
    obtain ⟨hfirst, hfirstRefuses⟩ := (hmem first).1 List.mem_cons_self
    refine ⟨first, hfirst, hfirstRefuses, fun q hq hqRefuses => ?_⟩
    rcases List.mem_cons.1 ((hmem q).2 ⟨hq, hqRefuses⟩) with rfl | hrest
    · exact UInt8.le_refl _
    · exact UInt8.le_of_lt ((List.pairwise_cons.1 hsorted).1 q hrest)

/-- A record with a value that an optional register refuses is not written. -/
theorem run_writeRecord_of_refused {σ : Type} (bus : Bus σ) (s : σ) {record : Record} {r : Register}
    (hr : r ∈ m.catalog.optional) (hrefuses : record.optional.Refuses r) :
    ((m.writeRecord record).run.run bus s).exchanges = [] ∧
      ∃ e, ((m.writeRecord record).run.run bus s).result = .error e := by
  obtain ⟨first, hfirst, hfirstRefuses, hleast⟩ := exists_first_refused hr hrefuses
  obtain ⟨hexchanges, hresult⟩ := run_writeRecord_of_refuses bus s hfirst hfirstRefuses hleast
  exact ⟨hexchanges, _, hresult⟩

/-- A record is not written at all, or its plan is carried out. -/
theorem refused_or_carries (l : m.catalog.TagRegisters) (record : Record) :
    (∀ (σ : Type) (bus : Bus σ) (s : σ), ((m.writeRecord record).run.run bus s).exchanges = [] ∧
      ∃ e, ((m.writeRecord record).run.run bus s).result = .error e) ∨
    ∃ name values bits, Carried m.catalog record name values bits ∧
      Carries (m.writeRecord record) ((m.writePlan l record name values bits).map planned) () := by
  by_cases hok : ∀ r ∈ m.catalog.optional, ¬ record.optional.Refuses r
  · exact .inr (carries_writeRecord l hok)
  · push Not at hok
    obtain ⟨r, hr, hrefuses⟩ := hok
    exact .inl fun σ bus s => run_writeRecord_of_refused bus s hr hrefuses

/-- **The protocol of a record write**, on every bus and from every state of it. -/
theorem writeRecord_protocol {σ : Type} (bus : Bus σ) (s : σ) (m : Manager)
    (l : m.catalog.TagRegisters) (record : Record) :
    let run := (m.writeRecord record).run.run bus s
    (∀ r ∈ m.catalog.optional, record.optional.Refuses r →
      (∀ q ∈ m.catalog.optional, record.optional.Refuses q → r.address ≤ q.address) →
        run.exchanges = [] ∧ run.result = .error (.kindMismatch r.name r.kind)) ∧
    ((∀ r ∈ m.catalog.optional, ¬ record.optional.Refuses r) →
      ∃ name values bits, Carried m.catalog record name values bits ∧
        Follows () ((m.writePlan l record name values bits).map planned)
          run.exchanges run.result ∧
        ∀ reply, (m.commitPlan l, reply) ∈ run.exchanges →
          ∃ earlier, run.exchanges = earlier ++ [(m.commitPlan l, reply)] ∧
            earlier.map Prod.fst = m.stagingPlan l record name values bits ∧
            ∀ e ∈ earlier, ∃ bytes, e.2 = .ok bytes) := by
  intro run
  constructor
  · intro r hr hrefuses hfirst
    exact run_writeRecord_of_refuses bus s hr hrefuses hfirst
  · intro hok
    obtain ⟨name, values, bits, hcarried, hcarries⟩ := carries_writeRecord l hok
    refine ⟨name, values, bits, hcarried, hcarries σ bus s, fun reply hreply => ?_⟩
    have hfollows := hcarries σ bus s
    rw [writePlan, List.map_append] at hfollows
    have hrequests := map_request_planned (m.stagingPlan l record name values bits)
    have hlast : m.commitPlan l ∉ m.stagingPlan l record name values bits :=
      commitPlan_notMem_stagingPlan fun r hr => hcarried.mem_optional hr
    rw [← hrequests] at hlast ⊢
    exact hfollows.of_last hlast hreply

/-- Both cases on the device: a truth value is no multiplier, and a temperature is written. -/
theorem writeRecord_protocol_standard :
    let m : Manager := ⟨0x42, .standard⟩
    let good : Record := ⟨7, "PLA", 250, 1000, Fields.empty.insert "extr_temp" (.int32 210)⟩
    let bad := good.withField "extr_multiplier" (.bool true)
    let start : Memory := { attached := [0x42] }
    (((m.writeRecord bad).run.run Memory.bus start).exchanges = [] ∧
      ((m.writeRecord bad).run.run Memory.bus start).result =
        .error (.kindMismatch "extr_multiplier" .float32)) ∧
    ∃ name values bits, Carried m.catalog good name values bits ∧
      Follows () ((m.writePlan .standard good name values bits).map planned)
        ((m.writeRecord good).run.run Memory.bus start).exchanges
        ((m.writeRecord good).run.run Memory.bus start).result := by
  intro m good bad start
  constructor
  · exact (writeRecord_protocol Memory.bus start m .standard bad).1
      ⟨"extr_multiplier", 0x08, .float32⟩ (by decide) (by decide) (by decide)
  · obtain ⟨name, values, bits, hcarried, hfollows, -⟩ :=
      (writeRecord_protocol Memory.bus start m .standard good).2 (by decide)
    exact ⟨name, values, bits, hcarried, hfollows⟩

end Manager

end SpoolTag
