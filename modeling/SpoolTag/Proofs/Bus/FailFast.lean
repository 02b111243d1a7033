import SpoolTag.Proofs.Bus.Asking

/-! # Dialogs that fail fast

A dialog fails fast if the first transaction that fails is the last one it asks for, the failure is
what it comes to, and nothing else it comes to looks like one (`Dialog.FailsFast`). This is a matter
of the dialog alone, whatever the replies are. Its parts may do something with the outcome of the
part before, as long as a failure stays what it is (`Dialog.FailsFast.bind`); for parts that go on
with a value and are skipped after an error this is always so (`Dialog.FailsFast.andThen`).

A run of such a dialog, on any bus, has no failed transaction or ends with the one that it has
(`Dialog.FailsFast.run`). -/

namespace SpoolTag

section Outcomes

variable {ε α : Type} (error : ε → TagError)

/-- The outcome is the failure of a transaction with the device, where `error` tells what the errors
are. -/
def Blames (device : UInt8) (cause : BusError) (outcome : Except ε α) : Prop :=
  ∃ e, outcome = .error e ∧ error e = .deviceUnavailable device cause

/-- The outcome is not the failure of a transaction. -/
def Clears (outcome : Except ε α) : Prop :=
  ∀ e, outcome = .error e → (error e).isDeviceUnavailable = false

variable {error}

theorem clears_ok (a : α) : Clears error (.ok a) := fun _ h => nomatch h

theorem clears_error {e : ε} (h : (error e).isDeviceUnavailable = false) :
    Clears error (.error e : Except ε α) := by
  rintro _ ⟨⟩
  exact h

end Outcomes

namespace Dialog

variable {ε ε' α β : Type} {error : ε → TagError} {error' : ε' → TagError} {p : Request → Prop}

/-- The dialog asks for nothing, and comes to something with the property. -/
def Settles (q : α → Prop) : Dialog α → Prop
  | .done a => q a
  | .note _ next => next.Settles q
  | .ask _ _ => False

/-- Whatever the replies are, all transactions have the property, nothing is asked for after one that
failed, and the dialog comes to this failure and to no other. -/
def FailsFast (p : Request → Prop) (error : ε → TagError) : Dialog (Except ε α) → Prop
  | .done outcome => Clears error outcome
  | .note _ next => next.FailsFast p error
  | .ask r next => p r ∧ (∀ bytes, (next (.ok bytes)).FailsFast p error) ∧
      ∀ cause, (next (.error cause)).Settles (Blames error r.device cause)

/-! ### Parts -/

theorem Settles.bind {q : α → Prop} {q' : β → Prop} {d : Dialog α} {k : α → Dialog β}
    (h : d.Settles q) (hk : ∀ a, q a → (k a).Settles q') : (d >>= k).Settles q' := by
  change (d.bind k).Settles q'
  induction d with
  | done a => exact hk a h
  | note notice next ih => exact ih h
  | ask r next ih => exact h.elim

namespace FailsFast

/-- **Parts add up** when a failure stays what it is. -/
theorem bind {d : Dialog (Except ε α)} {k : Except ε α → Dialog (Except ε' β)}
    (h : d.FailsFast p error)
    (hclears : ∀ outcome, Clears error outcome → (k outcome).FailsFast p error')
    (hblames : ∀ outcome device cause, Blames error device cause outcome →
      (k outcome).Settles (Blames error' device cause)) :
    (d >>= k).FailsFast p error' := by
  change (d.bind k).FailsFast p error'
  induction d with
  | done outcome => exact hclears outcome h
  | note notice next ih => exact ih h
  | ask r next ih =>
    obtain ⟨hr, hok, herror⟩ := h
    refine ⟨hr, fun bytes => ih (.ok bytes) (hok bytes), fun cause => ?_⟩
    exact (herror cause).bind fun outcome hblame => hblames outcome r.device cause hblame

theorem andThen {d : ExceptT ε Dialog α} {f : α → ExceptT ε Dialog β} (h : d.run.FailsFast p error)
    (hf : ∀ a, (f a).run.FailsFast p error) : (d >>= f).run.FailsFast p error := by
  rw [ExceptT.run_bind]
  refine bind h (fun outcome hclears => ?_) fun outcome device cause hblames => ?_
  · cases outcome with
    | ok a => exact hf a
    | error e => exact clears_error (hclears e rfl)
  · obtain ⟨e, rfl, he⟩ := hblames
    exact ⟨e, rfl, he⟩

/-- Another name for the errors changes nothing if it tells the same of them. -/
theorem adapt {g : ε → ε'} (hg : ∀ e, error' (g e) = error e) {d : ExceptT ε Dialog α}
    (h : d.run.FailsFast p error) : (ExceptT.adapt g d).run.FailsFast p error' := by
  change (Except.mapError g <$> d.run).FailsFast p error'
  rw [← bind_pure_comp]
  refine bind h (fun outcome hclears => ?_) fun outcome device cause hblames => ?_
  · cases outcome with
    | ok a => exact clears_ok a
    | error e => exact clears_error (hg e ▸ hclears e rfl)
  · obtain ⟨e, rfl, he⟩ := hblames
    exact ⟨g e, rfl, (hg e).trans he⟩

theorem pure (a : α) : (Pure.pure a : ExceptT ε Dialog α).run.FailsFast p error := clears_ok a

theorem throw {e : TagError} (h : e.isDeviceUnavailable = false) :
    (MonadExcept.throw e : Attempt α).run.FailsFast p id := clears_error h

theorem report (notice : Notice) : (Attempt.report notice).run.FailsFast p id := clears_ok ()

theorem transact {r : Request} (h : p r) : (Attempt.transact r).run.FailsFast p id :=
  ⟨h, clears_ok, fun _ => ⟨_, rfl, rfl⟩⟩

/-- What goes on with a result that is no failure need only be looked at for the value that it has. -/
theorem ofExcept {found : Except TagError α} {f : α → Attempt β} (hfound : Clears id found)
    (hf : ∀ a, found = .ok a → (f a).run.FailsFast p id) :
    (Attempt.ofExcept found >>= f).run.FailsFast p id := by
  cases found with
  | ok a => exact hf a rfl
  | error e => exact clears_error (hfound e rfl)

/-! ### Requests and runs -/

theorem asks {q : Request → Prop} {d : Dialog (Except ε α)} (h : d.FailsFast p error)
    (hq : ∀ r, p r → q r) : d.Asks q := by
  have hsettles : ∀ {d : Dialog (Except ε α)} {s : Except ε α → Prop}, d.Settles s → d.Asks q := by
    intro d s hd
    induction d with
    | done a => trivial
    | note notice next ih => exact ih hd
    | ask r next ih => exact hd.elim
  induction d with
  | done outcome => trivial
  | note notice next ih => exact ih h
  | ask r next ih =>
    obtain ⟨hr, hok, herror⟩ := h
    refine ⟨hq r hr, fun reply => ?_⟩
    cases reply with
    | ok bytes => exact ih _ (hok bytes)
    | error cause => exact hsettles (herror cause)

end FailsFast

theorem Settles.run {σ : Type} {q : α → Prop} {d : Dialog α} (h : d.Settles q) (bus : Bus σ) (s : σ) :
    (d.run bus s).exchanges = [] ∧ q (d.run bus s).result := by
  induction d with
  | done a => exact ⟨rfl, h⟩
  | note notice next ih => exact ih h
  | ask r next ih => exact h.elim

/-- **A run of a dialog that fails fast** has no failed transaction and comes to no failure, or it
ends with the one failed transaction that it has and comes to its failure. -/
theorem FailsFast.run {σ : Type} {d : Dialog (Except ε α)} (h : d.FailsFast p error) (bus : Bus σ)
    (s : σ) :
    ((∀ e ∈ (d.run bus s).exchanges, e.2.isOk = true) ∧ Clears error (d.run bus s).result) ∨
    ∃ earlier r cause, (d.run bus s).exchanges = earlier ++ [(r, .error cause)] ∧
      (∀ e ∈ earlier, e.2.isOk = true) ∧ p r ∧ Blames error r.device cause (d.run bus s).result := by
  induction d generalizing s with
  | done outcome => exact .inl ⟨by simp [Dialog.run], h⟩
  | note notice next ih => exact ih h s
  | ask r next ih =>
    obtain ⟨hr, hok, herror⟩ := h
    have hexchanges : ((ask r next).run bus s).exchanges = (r, (bus.answer r s).reply) ::
        ((next (bus.answer r s).reply).run bus (bus.answer r s).state).exchanges := rfl
    have hresult : ((ask r next).run bus s).result =
        ((next (bus.answer r s).reply).run bus (bus.answer r s).state).result := rfl
    rw [hexchanges, hresult]
    cases hreply : (bus.answer r s).reply with
    | error cause =>
      obtain ⟨hnone, hblames⟩ := (herror cause).run bus (bus.answer r s).state
      rw [hnone]
      exact .inr ⟨[], r, cause, rfl, by simp, hr, hblames⟩
    | ok bytes =>
      rcases ih _ (hok bytes) (bus.answer r s).state with
        ⟨hall, hclears⟩ | ⟨earlier, q, cause, hlast, hall, hq, hblames⟩
      · exact .inl ⟨List.forall_mem_cons.2 ⟨rfl, hall⟩, hclears⟩
      · rw [hlast]
        exact .inr ⟨(r, .ok bytes) :: earlier, q, cause, rfl,
          List.forall_mem_cons.2 ⟨rfl, hall⟩, hq, hblames⟩

end Dialog

end SpoolTag
