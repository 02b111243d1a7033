import SpoolTag.Bus.Dialog

/-! # Plans of transactions

A dialog that only writes does not look at what comes back, except to see whether it failed. So what
it does on a bus is said by a plan: the transactions it asks for when none fails. On any bus it
carries out the plan up to and including the first failure (`Follows`), and `Carries` says that a
dialog does so on every bus. Plans of the parts of a dialog add up (`Carries.bind`).

A dialog may also stop by itself, with an error that no transaction gave. `Ends` says how it ends
when its plan was carried out, and `Goes` tells both from a list of steps, of which each is a
transaction or a refusal: it takes the steps before the first refusal and ends with that one
(`Goes.bind`).

The state of the bus after a run is a matter of the transactions alone (`state_run`). -/

namespace SpoolTag

/-! ### The state of the bus -/

/-- The state of a bus after transactions. -/
def Bus.stateAfter {σ : Type} (bus : Bus σ) (requests : List Request) (s : σ) : σ :=
  requests.foldl (fun s r => (bus.answer r s).state) s

theorem Bus.stateAfter_cons {σ : Type} (bus : Bus σ) (r : Request) (rest : List Request) (s : σ) :
    bus.stateAfter (r :: rest) s = bus.stateAfter rest (bus.answer r s).state := rfl

theorem Bus.stateAfter_append {σ : Type} (bus : Bus σ) (requests more : List Request) (s : σ) :
    bus.stateAfter (requests ++ more) s = bus.stateAfter more (bus.stateAfter requests s) :=
  List.foldl_append

theorem Dialog.state_run {σ α : Type} (bus : Bus σ) (d : Dialog α) (s : σ) :
    (d.run bus s).state = bus.stateAfter ((d.run bus s).exchanges.map Prod.fst) s := by
  induction d generalizing s with
  | done a => rfl
  | note notice next ih => exact ih s
  | ask r next ih => exact ih _ _

/-- Nothing that follows a run in silence changes what was exchanged. -/
theorem Run.after_done {σ α β : Type} (before : Run σ α) (b : β) (s : σ) :
    before.after ⟨b, [], [], s⟩ = ⟨b, before.exchanges, before.notices, s⟩ := by
  simp only [Run.after, List.append_nil]

/-- A sequence that comes to a value has come to one in its first part, and goes on from there. -/
theorem Dialog.of_bind_ok {σ ε α β : Type} {bus : Bus σ} {d : ExceptT ε Dialog α}
    {f : α → ExceptT ε Dialog β} {s : σ} {b : β} (h : ((d >>= f).run.run bus s).result = .ok b) :
    ∃ a, (d.run.run bus s).result = .ok a ∧
      ((f a).run.run bus (d.run.run bus s).state).result = .ok b := by
  rw [ExceptT.run_bind, Dialog.run_bind] at h
  cases hd : (d.run.run bus s).result with
  | error e =>
    rw [hd] at h
    cases h
  | ok a =>
    rw [hd] at h
    exact ⟨a, rfl, h⟩

/-- A sequence whose first part comes to a value goes on from there. -/
theorem Dialog.run_of_bind_ok {σ ε α β : Type} {bus : Bus σ} {d : ExceptT ε Dialog α}
    {f : α → ExceptT ε Dialog β} {s : σ} {a : α} (h : (d.run.run bus s).result = .ok a) :
    (d >>= f).run.run bus s =
      (d.run.run bus s).after ((f a).run.run bus (d.run.run bus s).state) := by
  rw [ExceptT.run_bind, Dialog.run_bind, h]

/-- Another name for the errors changes nothing else. -/
theorem Dialog.run_adapt {σ ε ε' α : Type} (f : ε → ε') (d : ExceptT ε Dialog α) (bus : Bus σ)
    (s : σ) :
    (ExceptT.adapt f d).run.run bus s =
      { d.run.run bus s with result := (d.run.run bus s).result.mapError f } := by
  change (Except.mapError f <$> d.run).run bus s = _
  rw [← bind_pure_comp, Dialog.run_bind]
  simp [Run.after]

/-- Whatever the transactions of a run preserve holds of the states that gave the replies. -/
theorem Dialog.reply_of_mem {σ α : Type} (bus : Bus σ) {p : σ → Prop} (d : Dialog α) {s : σ}
    (hp : ∀ e ∈ (d.run bus s).exchanges, ∀ t, p t → p (bus.answer e.1 t).state) (hs : p s) :
    ∀ e ∈ (d.run bus s).exchanges, ∃ t, p t ∧ e.2 = (bus.answer e.1 t).reply := by
  induction d generalizing s with
  | done a => intro e he; cases he
  | note notice next ih => exact ih hp hs
  | ask r next ih =>
    intro e he
    rcases List.mem_cons.1 he with rfl | he
    · exact ⟨s, hs, rfl⟩
    · exact ih _ (fun e he => hp e (List.mem_cons_of_mem _ he)) (hp _ List.mem_cons_self s hs) e he

/-- The requests of the transactions that did not fail. -/
def succeeded (exchanges : List (Request × Reply)) : List Request :=
  (exchanges.filter fun e => e.2.isOk).map Prod.fst

/-! ### Plans -/

/-- A transaction of a plan, and what the whole fails with when it fails. -/
structure Planned (ε : Type) where
  request : Request
  failure : BusError → ε

/-- The transactions of a plan up to and including the first that fails, and the outcome: the value
if all are acknowledged, and otherwise what the failing one makes of its failure. -/
inductive Follows {ε α : Type} (a : α) :
    List (Planned ε) → List (Request × Reply) → Except ε α → Prop
  | finished : Follows a [] [] (.ok a)
  | acknowledged {p : Planned ε} {plan : List (Planned ε)} {exchanges : List (Request × Reply)}
      {outcome : Except ε α} (bytes : List UInt8) (h : Follows a plan exchanges outcome) :
      Follows a (p :: plan) ((p.request, .ok bytes) :: exchanges) outcome
  | failed {p : Planned ε} {plan : List (Planned ε)} (cause : BusError) :
      Follows a (p :: plan) [(p.request, .error cause)] (.error (p.failure cause))

namespace Follows

variable {ε ε' α β : Type} {a : α} {plan : List (Planned ε)} {exchanges : List (Request × Reply)}
  {outcome : Except ε α}

/-- A plan that was carried out to its end, and what follows it. -/
theorem append {b : β} {more : List (Planned ε)} {later : List (Request × Reply)}
    {result : Except ε β} (h : Follows a plan exchanges (.ok a)) (hb : Follows b more later result) :
    Follows b (plan ++ more) (exchanges ++ later) result := by
  generalize ho : (.ok a : Except ε α) = outcome at h
  induction h with
  | finished => exact hb
  | acknowledged bytes _ ih => exact .acknowledged bytes (ih ho)
  | failed cause => cases ho

/-- What follows a plan that was not carried out to its end does not matter. -/
theorem append_error {e : ε} (b : β) (more : List (Planned ε))
    (h : Follows a plan exchanges (.error e)) :
    Follows b (plan ++ more) exchanges (.error e) := by
  generalize ho : (.error e : Except ε α) = outcome at h
  induction h with
  | finished => cases ho
  | acknowledged bytes _ ih => exact .acknowledged bytes (ih ho)
  | failed cause => cases ho; exact .failed cause

theorem mapError (f : ε → ε') (h : Follows a plan exchanges outcome) :
    Follows a (plan.map fun p => ⟨p.request, f ∘ p.failure⟩) exchanges (outcome.mapError f) := by
  induction h with
  | finished => exact .finished
  | acknowledged bytes _ ih => exact .acknowledged bytes ih
  | @failed p plan cause => exact .failed (p := ⟨p.request, f ∘ p.failure⟩) cause

theorem eq_of_ok {b : α} (h : Follows a plan exchanges (.ok b)) : b = a := by
  generalize ho : (.ok b : Except ε α) = outcome at h
  induction h with
  | finished => cases ho; rfl
  | acknowledged bytes _ ih => exact ih ho
  | failed cause => cases ho

theorem of_nil (h : Follows a [] exchanges outcome) : exchanges = [] ∧ outcome = .ok a := by
  cases h
  exact ⟨rfl, rfl⟩

/-- A plan that was carried out to its end was issued as a whole. -/
theorem issued {b : α} (h : Follows a plan exchanges (.ok b)) :
    exchanges.map Prod.fst = plan.map Planned.request := by
  generalize ho : (.ok b : Except ε α) = outcome at h
  induction h with
  | finished => rfl
  | acknowledged bytes _ ih => simp [ih ho]
  | failed cause => cases ho

/-- Only transactions of the plan are asked for. -/
theorem request_mem (h : Follows a plan exchanges outcome) :
    ∀ e ∈ exchanges, e.1 ∈ plan.map Planned.request := by
  induction h with
  | finished => intro e he; cases he
  | acknowledged bytes _ ih =>
    rintro e he
    rcases List.mem_cons.1 he with rfl | he
    · exact List.mem_cons_self
    · exact List.mem_cons_of_mem _ (ih e he)
  | failed cause =>
    rintro e he
    rw [List.mem_singleton.1 he]
    exact List.mem_cons_self

/-- A plan of which nothing fails is carried out to its end. -/
theorem ok_of_acknowledged (h : Follows a plan exchanges outcome)
    (hok : ∀ e ∈ exchanges, ∃ bytes, e.2 = .ok bytes) : outcome = .ok a := by
  induction h with
  | finished => rfl
  | acknowledged bytes _ ih => exact ih fun e he => hok e (List.mem_cons_of_mem _ he)
  | failed cause =>
    obtain ⟨bytes, hbytes⟩ := hok _ List.mem_cons_self
    cases hbytes

/-- A plan that was carried out to its end was acknowledged as a whole. -/
theorem acknowledged_of_ok {b : α} (h : Follows a plan exchanges (.ok b)) :
    ∀ e ∈ exchanges, ∃ bytes, e.2 = .ok bytes := by
  generalize ho : (.ok b : Except ε α) = outcome at h
  induction h with
  | finished => intro e he; cases he
  | acknowledged bytes _ ih =>
    rintro e he
    rcases List.mem_cons.1 he with rfl | he
    · exact ⟨bytes, rfl⟩
    · exact ih ho e he
  | failed cause => cases ho

theorem succeeded_of_ok {b : α} (h : Follows a plan exchanges (.ok b)) :
    succeeded exchanges = plan.map Planned.request := by
  have hall : exchanges.filter (fun e => e.2.isOk) = exchanges :=
    List.filter_eq_self.2 fun e he => by
      obtain ⟨bytes, hbytes⟩ := h.acknowledged_of_ok e he
      rw [hbytes]
      rfl
  rw [succeeded, hall, h.issued]

/-- Of a plan that was not carried out to its end at least the last transaction is missing. -/
theorem succeeded_of_error {e : ε} (h : Follows a plan exchanges (.error e)) :
    succeeded exchanges <+: (plan.map Planned.request).dropLast := by
  generalize ho : (.error e : Except ε α) = outcome at h
  induction h with
  | finished => cases ho
  | @acknowledged p plan exchanges outcome bytes h ih =>
    cases plan with
    | nil =>
      cases h
      cases ho
    | cons q plan => exact (List.prefix_cons_inj p.request).2 (ih ho)
  | failed cause => exact List.nil_prefix

/-- A plan that was not carried out to its end fails with what one of its transactions makes of a
failure. -/
theorem exists_failure {e : ε} (h : Follows a plan exchanges (.error e)) :
    ∃ p ∈ plan, ∃ cause, e = p.failure cause := by
  generalize ho : (.error e : Except ε α) = outcome at h
  induction h with
  | finished => cases ho
  | acknowledged bytes _ ih =>
    obtain ⟨p, hp, hfailure⟩ := ih ho
    exact ⟨p, List.mem_cons_of_mem _ hp, hfailure⟩
  | failed cause => cases ho; exact ⟨_, List.mem_cons_self, cause, rfl⟩

/-- The transaction that failed is the one after those that were acknowledged. -/
theorem failed_after {e : ε} (h : Follows a plan exchanges (.error e)) :
    ∃ p cause, plan[(succeeded exchanges).length]? = some p ∧ e = p.failure cause := by
  generalize ho : (.error e : Except ε α) = outcome at h
  induction h with
  | finished => cases ho
  | acknowledged bytes _ ih => exact ih ho
  | @failed p plan cause => cases ho; exact ⟨p, cause, rfl, rfl⟩

/-- A plan that was not carried out to its end stops with the transaction that failed. -/
theorem stops {e : ε} (h : Follows a plan exchanges (.error e)) :
    ∃ earlier request cause, exchanges = earlier ++ [(request, .error cause)] ∧
      (∀ x ∈ earlier, x.2.isOk = true) ∧
        exchanges.map Prod.fst <+: plan.map Planned.request := by
  generalize ho : (.error e : Except ε α) = outcome at h
  induction h with
  | finished => cases ho
  | @acknowledged p plan exchanges outcome bytes _ ih =>
    obtain ⟨earlier, request, cause, rfl, hok, hissued⟩ := ih ho
    refine ⟨(p.request, .ok bytes) :: earlier, request, cause, rfl, ?_,
      (List.prefix_cons_inj p.request).2 hissued⟩
    rintro x hx
    rcases List.mem_cons.1 hx with rfl | hx
    · rfl
    · exact hok x hx
  | @failed p plan cause =>
    exact ⟨[], p.request, cause, rfl, by simp,
      (List.prefix_cons_inj p.request).2 List.nil_prefix⟩

/-- What a plan that was carried out to its end comes to does not matter for its transactions. -/
theorem forget (h : Follows a plan exchanges outcome) :
    ∃ done : Except ε Unit, Follows () plan exchanges done ∧ outcome = done.bind fun _ => .ok a := by
  induction h with
  | finished => exact ⟨.ok (), .finished, rfl⟩
  | acknowledged bytes _ ih =>
    obtain ⟨done, hdone, houtcome⟩ := ih
    exact ⟨done, .acknowledged bytes hdone, houtcome⟩
  | failed cause => exact ⟨.error _, .failed cause, rfl⟩

/-- The last transaction of a plan, when it is none of the others, comes after all of them were
acknowledged. -/
theorem of_last {last : Planned ε} (h : Follows a (plan ++ [last]) exchanges outcome)
    (hlast : last.request ∉ plan.map Planned.request) {reply : Reply}
    (hmem : (last.request, reply) ∈ exchanges) :
    ∃ earlier, exchanges = earlier ++ [(last.request, reply)] ∧
      earlier.map Prod.fst = plan.map Planned.request ∧ ∀ e ∈ earlier, ∃ bytes, e.2 = .ok bytes := by
  induction plan generalizing exchanges with
  | nil =>
    refine ⟨[], ?_, rfl, by simp⟩
    cases h with
    | acknowledged bytes h =>
      obtain ⟨rfl, -⟩ := h.of_nil
      rw [List.mem_singleton.1 hmem]
      rfl
    | failed cause =>
      rw [List.mem_singleton.1 hmem]
      rfl
  | cons p plan ih =>
    obtain ⟨hne, hrest⟩ := not_or.1 (mt List.mem_cons.2 hlast)
    cases h with
    | acknowledged bytes h =>
      have hlater := (List.mem_cons.1 hmem).resolve_left fun he => hne (Prod.mk.inj he).1
      obtain ⟨earlier, hexchanges, hissued, hok⟩ := ih h hrest hlater
      refine ⟨(p.request, .ok bytes) :: earlier, ?_, ?_, ?_⟩
      · rw [hexchanges]
        rfl
      · rw [List.map_cons, List.map_cons, hissued]
      · rintro e he
        rcases List.mem_cons.1 he with rfl | he
        · exact ⟨bytes, rfl⟩
        · exact hok e he
    | failed cause => exact absurd (Prod.mk.inj (List.mem_singleton.1 hmem)).1 hne

end Follows

/-- On every bus, the dialog carries out the plan and comes to the value. -/
def Carries {ε α : Type} (d : ExceptT ε Dialog α) (plan : List (Planned ε)) (a : α) : Prop :=
  ∀ (σ : Type) (bus : Bus σ) (s : σ),
    Follows a plan (d.run.run bus s).exchanges (d.run.run bus s).result

namespace Carries

variable {ε ε' α β : Type} {a : α} {b : β} {plan more : List (Planned ε)}

theorem pure (a : α) : Carries (ε := ε) (Pure.pure a) [] a := fun _ _ _ => .finished

/-- **Plans add up.** -/
theorem bind {d : ExceptT ε Dialog α} {f : α → ExceptT ε Dialog β} (h : Carries d plan a)
    (hf : Carries (f a) more b) : Carries (d >>= f) (plan ++ more) b := by
  intro σ bus s
  have hd := h σ bus s
  rw [ExceptT.run_bind, Dialog.run_bind]
  cases hr : (d.run.run bus s).result with
  | ok v =>
    rw [hr] at hd
    obtain rfl := hd.eq_of_ok
    exact hd.append (hf σ bus _)
  | error e =>
    rw [hr] at hd
    simpa [Run.after] using hd.append_error b more

/-- Plans add up when the second part does not look at what the first one comes to. -/
theorem seq {d : ExceptT ε Dialog α} {e : ExceptT ε Dialog β} (h : Carries d plan a)
    (he : Carries e more b) : Carries (d >>= fun _ => e) (plan ++ more) b :=
  h.bind (f := fun _ => e) he

theorem adapt (f : ε → ε') {d : ExceptT ε Dialog α} (h : Carries d plan a) :
    Carries (ExceptT.adapt f d) (plan.map fun p => ⟨p.request, f ∘ p.failure⟩) a := by
  intro σ bus s
  rw [Dialog.run_adapt]
  exact (h σ bus s).mapError f

/-- A part without transactions can be skipped. -/
theorem skip {σ : Type} {d : ExceptT ε Dialog α} (h : Carries d [] a) (f : α → ExceptT ε Dialog β)
    (bus : Bus σ) (s : σ) :
    ((d >>= f).run.run bus s).exchanges = ((f a).run.run bus s).exchanges ∧
      ((d >>= f).run.run bus s).result = ((f a).run.run bus s).result := by
  obtain ⟨hexchanges, hresult⟩ := (h σ bus s).of_nil
  have hstate : (d.run.run bus s).state = s := by
    rw [Dialog.state_run, hexchanges]
    rfl
  rw [ExceptT.run_bind, Dialog.run_bind, hresult, hstate]
  constructor
  · change (d.run.run bus s).exchanges ++ _ = _
    rw [hexchanges]
    rfl
  · rfl

end Carries

/-! ### Plans that stop -/

/-- On every bus, the dialog carries out the plan and then ends like this. -/
def Ends {ε α : Type} (d : ExceptT ε Dialog α) (plan : List (Planned ε)) (ending : Except ε α) :
    Prop :=
  ∀ (σ : Type) (bus : Bus σ) (s : σ), ∃ done : Except ε Unit,
    Follows () plan (d.run.run bus s).exchanges done ∧
      (d.run.run bus s).result = done.bind fun _ => ending

theorem Carries.ends {ε α : Type} {d : ExceptT ε Dialog α} {plan : List (Planned ε)} {a : α}
    (h : Carries d plan a) : Ends d plan (.ok a) := fun σ bus s => (h σ bus s).forget

namespace Ends

variable {ε α β : Type} {plan more : List (Planned ε)}

theorem bind {d : ExceptT ε Dialog α} {f : α → ExceptT ε Dialog β} {a : α} {ending : Except ε β}
    (h : Ends d plan (.ok a)) (hf : Ends (f a) more ending) :
    Ends (d >>= f) (plan ++ more) ending := by
  intro σ bus s
  obtain ⟨done, hdone, hresult⟩ := h σ bus s
  rw [ExceptT.run_bind, Dialog.run_bind]
  cases done with
  | ok u =>
    rw [hresult]
    obtain ⟨later, hlater, hending⟩ := hf σ bus (d.run.run bus s).state
    exact ⟨later, hdone.append hlater, hending⟩
  | error e =>
    rw [hresult]
    refine ⟨.error e, ?_, rfl⟩
    change Follows () _ (_ ++ []) _
    rw [List.append_nil]
    exact hdone.append_error () more

/-- What follows a dialog that stops by itself does not matter. -/
theorem stop {d : ExceptT ε Dialog α} {e : ε} (h : Ends d plan (.error e))
    (f : α → ExceptT ε Dialog β) : Ends (d >>= f) plan (.error e) := by
  intro σ bus s
  obtain ⟨done, hdone, hresult⟩ := h σ bus s
  have hstopped : ∃ e, (d.run.run bus s).result = .error e := by
    rw [hresult]
    cases done with
    | ok u => exact ⟨e, rfl⟩
    | error e' => exact ⟨e', rfl⟩
  obtain ⟨e', he'⟩ := hstopped
  refine ⟨done, ?_, ?_⟩
  · rw [ExceptT.run_bind, Dialog.run_bind, he']
    change Follows () plan (_ ++ []) done
    rw [List.append_nil]
    exact hdone
  · rw [ExceptT.run_bind, Dialog.run_bind, he']
    change Except.error e' = _
    have hsame := he'.symm.trans hresult
    cases done <;> exact congrArg Except.error (Except.error.inj hsame)

end Ends

section Steps

variable {ε α β γ : Type}

/-- The steps before the first that is refused. -/
def taken : List (Except ε β) → List β
  | .ok b :: rest => b :: taken rest
  | _ => []

/-- The first refusal, and the value if there is none. -/
def verdict (a : α) : List (Except ε β) → Except ε α
  | [] => .ok a
  | .ok _ :: rest => verdict a rest
  | .error e :: _ => .error e

theorem eq_of_verdict {a b : α} {steps : List (Except ε β)} (h : verdict a steps = .ok b) :
    b = a := by
  induction steps with
  | nil => cases h; rfl
  | cons step rest ih =>
    cases step with
    | ok _ => exact ih h
    | error e => cases h

theorem append_of_ok {a : α} {steps : List (Except ε β)} (h : verdict a steps = .ok a) (b : γ)
    (more : List (Except ε β)) :
    taken (steps ++ more) = taken steps ++ taken more ∧
      verdict b (steps ++ more) = verdict b more := by
  induction steps with
  | nil => exact ⟨rfl, rfl⟩
  | cons step rest ih =>
    cases step with
    | ok c => exact ⟨congrArg (c :: ·) (ih h).1, (ih h).2⟩
    | error e => cases h

/-- Nothing after a refusal matters. -/
theorem append_of_error {a : α} {steps : List (Except ε β)} {e : ε} (h : verdict a steps = .error e)
    (b : γ) (more : List (Except ε β)) :
    taken (steps ++ more) = taken steps ∧ verdict b (steps ++ more) = .error e := by
  induction steps with
  | nil => cases h
  | cons step rest ih =>
    cases step with
    | ok c => exact ⟨congrArg (c :: ·) (ih h).1, (ih h).2⟩
    | error e' => exact ⟨rfl, congrArg Except.error (Except.error.inj h)⟩

theorem taken_map (f : β → γ) (steps : List (Except ε β)) :
    taken (steps.map (Except.map f)) = (taken steps).map f := by
  induction steps with
  | nil => rfl
  | cons step rest ih =>
    cases step with
    | ok b => exact congrArg (f b :: ·) ih
    | error e => rfl

theorem verdict_map (a : α) (f : β → γ) (steps : List (Except ε β)) :
    verdict a (steps.map (Except.map f)) = verdict a steps := by
  induction steps with
  | nil => rfl
  | cons step rest ih =>
    cases step with
    | ok b => exact ih
    | error e => rfl

theorem taken_ok (l : List β) : taken (l.map (.ok : β → Except ε β)) = l := by
  induction l with
  | nil => rfl
  | cons b rest ih => exact congrArg (b :: ·) ih

theorem verdict_ok (a : α) (l : List β) : verdict a (l.map (.ok : β → Except ε β)) = .ok a := by
  induction l with
  | nil => rfl
  | cons b rest ih => exact ih

end Steps

/-- On every bus, the dialog takes the steps before the first that is refused, and if none of these
fails it stops with the refusal, or comes to the value if nothing is refused. -/
def Goes {ε α : Type} (d : ExceptT ε Dialog α) (steps : List (Except ε (Planned ε))) (a : α) :
    Prop :=
  Ends d (taken steps) (verdict a steps)

section Goes

variable {ε α β : Type} {a : α} {b : β} {steps more : List (Except ε (Planned ε))}

theorem Carries.goes {d : ExceptT ε Dialog α} {plan : List (Planned ε)} (h : Carries d plan a) :
    Goes d (plan.map .ok) a := by
  unfold Goes
  rw [taken_ok, verdict_ok]
  exact h.ends

/-- **Steps add up.** -/
theorem Goes.bind {d : ExceptT ε Dialog α} {f : α → ExceptT ε Dialog β} (h : Goes d steps a)
    (hf : Goes (f a) more b) : Goes (d >>= f) (steps ++ more) b := by
  unfold Goes at h hf ⊢
  cases hsteps : verdict a steps with
  | ok v =>
    obtain rfl := eq_of_verdict hsteps
    rw [(append_of_ok hsteps b more).1, (append_of_ok hsteps b more).2]
    rw [hsteps] at h
    exact h.bind hf
  | error e =>
    rw [(append_of_error hsteps b more).1, (append_of_error hsteps b more).2]
    rw [hsteps] at h
    exact h.stop f

end Goes

/-! ### Attempts -/

namespace Attempt

variable {σ α β : Type} {a : α} {plan : List (Planned TagError)}

/-- A transaction of an attempt makes the device unavailable when it fails. -/
def planned (r : Request) : Planned TagError := ⟨r, .deviceUnavailable r.device⟩

theorem map_request_planned (requests : List Request) :
    (requests.map planned).map Planned.request = requests := by
  rw [List.map_map]
  exact List.map_id _

theorem run_transact (bus : Bus σ) (r : Request) (s : σ) :
    (transact r).run.run bus s =
      ⟨(bus.answer r s).reply.mapError (.deviceUnavailable r.device),
        [(r, (bus.answer r s).reply)], (bus.answer r s).notices, (bus.answer r s).state⟩ := by
  have hask := Dialog.run_ask bus r s
  unfold transact
  rw [ExceptT.run_bind, ExceptT.run_liftM, ← bind_pure_comp, bind_assoc, Dialog.run_bind, hask]
  cases (bus.answer r s).reply with
  | ok bytes => exact Run.after_done _ (Except.ok bytes) _
  | error cause => exact Run.after_done _ (Except.error (TagError.deviceUnavailable r.device cause)) _

theorem carries_report (notice : Notice) : Carries (report notice) [] () := fun _ _ _ => .finished

theorem carries_ofExcept {result : Except TagError α} (h : result = .ok a) :
    Carries (ofExcept result) [] a := by
  subst h
  exact fun _ _ _ => .finished

/-- What is refused is refused without a transaction. -/
theorem goes_error (e : TagError) (steps : List (Except TagError (Planned TagError))) (a : α) :
    Goes (ofExcept (.error e)) (.error e :: steps) a := fun _ _ _ => ⟨.ok (), .finished, rfl⟩

theorem goes_error_bind (e : TagError) (f : α → Attempt β)
    (steps : List (Except TagError (Planned TagError))) (b : β) :
    Goes (ofExcept (.error e) >>= f) (.error e :: steps) b := fun _ _ _ => ⟨.ok (), .finished, rfl⟩

theorem goes_ok_bind {b : β} {f : α → Attempt β}
    {steps : List (Except TagError (Planned TagError))} (h : Goes (f a) steps b) :
    Goes (ofExcept (.ok a) >>= f) steps b := (carries_ofExcept rfl).goes.bind h

/-- A transaction whose reply is only looked at for a failure. -/
theorem carries_transact_bind {r : Request} {d : Attempt α} (h : Carries d plan a) :
    Carries (transact r >>= fun _ => d) (planned r :: plan) a := by
  intro σ bus s
  rw [ExceptT.run_bind, Dialog.run_bind, run_transact]
  cases (bus.answer r s).reply with
  | ok bytes => exact .acknowledged (p := planned r) bytes (h σ bus _)
  | error cause => exact .failed (p := planned r) cause

end Attempt

end SpoolTag
