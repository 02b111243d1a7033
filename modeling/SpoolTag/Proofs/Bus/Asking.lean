import SpoolTag.Bus.Dialog

/-! # What a dialog may ask for

`Dialog.Asks` says that all transactions of a dialog have a property, whatever the replies are. A
dialog cannot tell two buses apart that agree on the transactions it may ask for
(`Dialog.run_eq_of_asks`). -/

namespace SpoolTag

/-- Whatever the replies are, all transactions that are asked for have the property. -/
def Dialog.Asks {α : Type} (p : Request → Prop) : Dialog α → Prop
  | .done _ => True
  | .note _ next => next.Asks p
  | .ask r next => p r ∧ ∀ reply, (next reply).Asks p

theorem Dialog.Asks.map {α β : Type} {p : Request → Prop} {d : Dialog α} (h : d.Asks p) (f : α → β) :
    (f <$> d).Asks p := by
  change (d.bind (.done ∘ f)).Asks p
  induction d with
  | done a => trivial
  | note notice next ih => exact ih h
  | ask r next ih => exact ⟨h.1, fun reply => ih reply (h.2 reply)⟩

theorem Dialog.Asks.of_mem_exchanges {σ α : Type} {p : Request → Prop} {d : Dialog α} (h : d.Asks p)
    (bus : Bus σ) (s : σ) : ∀ e ∈ (d.run bus s).exchanges, p e.1 := by
  induction d generalizing s with
  | done a => intro e he; cases he
  | note notice next ih => exact ih h s
  | ask r next ih =>
    intro e he
    rcases List.mem_cons.1 he with rfl | he
    · exact h.1
    · exact ih _ (h.2 _) _ e he

/-- Two buses that agree on some transactions, from states that are related, agree on every dialog
that asks for no others. -/
theorem Dialog.run_eq_of_asks {σ τ α : Type} {bus : Bus σ} {other : Bus τ} {p : Request → Prop}
    (related : σ → τ → Prop)
    (hanswer : ∀ r s t, p r → related s t →
      (bus.answer r s).reply = (other.answer r t).reply ∧
        related (bus.answer r s).state (other.answer r t).state)
    {d : Dialog α} (hd : d.Asks p) {s : σ} {t : τ} (h : related s t) :
    (d.run bus s).result = (d.run other t).result ∧
      related (d.run bus s).state (d.run other t).state := by
  induction d generalizing s t with
  | done a => exact ⟨rfl, h⟩
  | note notice next ih => exact ih hd h
  | ask r next ih =>
    obtain ⟨hreply, hstate⟩ := hanswer r s t hd.1 h
    have hnext := ih (other.answer r t).reply (hd.2 _) hstate
    unfold run
    dsimp only
    rw [hreply]
    exact hnext

end SpoolTag
