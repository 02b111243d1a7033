import SpoolTag.Proofs.Bus.Plans

/-! # What a dialog reports itself

The notices of a run are those of the dialog and those of the bus, in the order in which they were made.
A bus is left out by making it mute: it answers as before and says nothing (`Bus.mute`), so that the run
comes to the same and its notices are those of the dialog alone (`Dialog.told`). Of a kind of which the
bus makes none there are no other notices in the run on the bus itself (`Dialog.filter_told`).

`Dialog.Reports` says that all notices of a dialog have a property, whatever the replies are. -/

namespace SpoolTag

/-- The bus without what it reports. -/
def Bus.mute {σ : Type} (bus : Bus σ) : Bus σ where
  answer r s := { bus.answer r s with notices := [] }

namespace Dialog

variable {σ ε ε' α β : Type} {p : Notice → Prop}

/-! ### A bus that says nothing -/

/-- What the dialog itself reports in a run on the bus. -/
def told (d : Dialog α) (bus : Bus σ) (s : σ) : List Notice := (d.run bus.mute s).notices

theorem run_mute (d : Dialog α) (bus : Bus σ) (s : σ) :
    (d.run bus.mute s).result = (d.run bus s).result ∧
      (d.run bus.mute s).exchanges = (d.run bus s).exchanges ∧
        (d.run bus.mute s).state = (d.run bus s).state := by
  induction d generalizing s with
  | done a => exact ⟨rfl, rfl, rfl⟩
  | note notice next ih => exact ih s
  | ask r next ih =>
    obtain ⟨hresult, hexchanges, hstate⟩ := ih (bus.answer r s).reply (bus.answer r s).state
    exact ⟨hresult, congrArg ((r, (bus.answer r s).reply) :: ·) hexchanges, hstate⟩

/-- What a sequence reports is what its parts report, one after the other. -/
theorem told_bind (d : Dialog α) (f : α → Dialog β) (bus : Bus σ) (s : σ) :
    (d >>= f).told bus s =
      d.told bus s ++ (f (d.run bus s).result).told bus (d.run bus s).state := by
  obtain ⟨hresult, -, hstate⟩ := d.run_mute bus s
  unfold told
  rw [run_bind, hresult, hstate]
  rfl

/-- A part without transactions is skipped, but for what it reports. -/
theorem told_skip {d : ExceptT ε Dialog α} {a : α} (h : Carries d [] a) (f : α → ExceptT ε Dialog β)
    (bus : Bus σ) (s : σ) :
    (d >>= f).run.told bus s = d.run.told bus s ++ (f a).run.told bus s := by
  obtain ⟨hexchanges, hresult⟩ := (h σ bus s).of_nil
  have hstate : (d.run.run bus s).state = s := by
    rw [state_run, hexchanges]
    rfl
  rw [ExceptT.run_bind, told_bind, hresult, hstate]

/-- **Of a kind of which the bus makes none**, the notices of a run are those of the dialog. -/
theorem filter_told (d : Dialog α) (bus : Bus σ) (s : σ) (kind : Notice → Bool)
    (hbus : ∀ r t, ∀ notice ∈ (bus.answer r t).notices, kind notice = false) :
    (d.run bus s).notices.filter kind = (d.told bus s).filter kind := by
  induction d generalizing s with
  | done a => rfl
  | note notice next ih =>
    change (notice :: _).filter kind = (notice :: next.told bus s).filter kind
    rw [List.filter_cons, List.filter_cons, ih]
  | ask r next ih =>
    have hnone : (bus.answer r s).notices.filter kind = [] :=
      List.filter_eq_nil_iff.2 fun notice hmem => by
        rw [hbus r s notice hmem]
        exact Bool.false_ne_true
    change ((bus.answer r s).notices ++ _).filter kind = _
    rw [List.filter_append, hnone, List.nil_append, ih]
    rfl

/-! ### Notices of a kind -/

/-- Whatever the replies are, all that the dialog reports has the property. -/
def Reports (p : Notice → Prop) : Dialog α → Prop
  | .done _ => True
  | .note notice next => p notice ∧ next.Reports p
  | .ask _ next => ∀ reply, (next reply).Reports p

namespace Reports

theorem of_mem_told {d : Dialog α} (h : d.Reports p) (bus : Bus σ) (s : σ) :
    ∀ notice ∈ d.told bus s, p notice := by
  induction d generalizing s with
  | done a => intro notice hmem; cases hmem
  | note notice next ih =>
    intro other hmem
    rcases List.mem_cons.1 hmem with rfl | hmem
    · exact h.1
    · exact ih h.2 s other hmem
  | ask r next ih => exact ih _ (h _) _

theorem filter_eq_nil {kind : Notice → Bool} {d : Dialog α}
    (h : d.Reports fun notice => kind notice = false) (bus : Bus σ) (s : σ) :
    (d.told bus s).filter kind = [] :=
  List.filter_eq_nil_iff.2 fun notice hmem => by
    rw [h.of_mem_told bus s notice hmem]
    exact Bool.false_ne_true

theorem bind {d : Dialog α} {k : α → Dialog β} (h : d.Reports p) (hk : ∀ a, (k a).Reports p) :
    (d >>= k).Reports p := by
  change (d.bind k).Reports p
  induction d with
  | done a => exact hk a
  | note notice next ih => exact ⟨h.1, ih h.2⟩
  | ask r next ih => exact fun reply => ih reply (h reply)

theorem andThen {d : ExceptT ε Dialog α} {f : α → ExceptT ε Dialog β} (h : d.run.Reports p)
    (hf : ∀ a, (f a).run.Reports p) : (d >>= f).run.Reports p := by
  rw [ExceptT.run_bind]
  refine h.bind fun outcome => ?_
  cases outcome with
  | ok a => exact hf a
  | error e => trivial

theorem adapt {g : ε → ε'} {d : ExceptT ε Dialog α} (h : d.run.Reports p) :
    (ExceptT.adapt g d).run.Reports p := by
  change (Except.mapError g <$> d.run).Reports p
  rw [← bind_pure_comp]
  exact h.bind fun outcome => trivial

theorem pure (a : α) : (Pure.pure a : ExceptT ε Dialog α).run.Reports p := trivial

theorem throw (e : ε) : (MonadExcept.throw e : ExceptT ε Dialog α).run.Reports p := trivial

theorem report {notice : Notice} (h : p notice) : (Attempt.report notice).run.Reports p := ⟨h, trivial⟩

theorem transact (r : Request) : (Attempt.transact r).run.Reports p := by
  intro reply
  cases reply <;> trivial

theorem ofExcept (found : Except TagError α) : (Attempt.ofExcept found).run.Reports p := trivial

end Reports

end Dialog

end SpoolTag
