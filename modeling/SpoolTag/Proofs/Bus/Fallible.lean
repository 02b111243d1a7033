import SpoolTag.Proofs.Bus.FailFast
import SpoolTag.Proofs.Bus.Staging

/-! # Registers on a bus that may fail

A `Fallible` bus leads to registers in memory. Any transaction on it may fail, and nothing is said of
what one that fails leaves behind; what is acknowledged is what the registers alone would have
answered. So a dialog of which no transaction has failed comes to the same as on the registers alone
(`Fallible.run_of_acknowledged`), and an attempt that fails fast and has come to a value is such a
dialog (`Fallible.run_of_ok`). -/

namespace SpoolTag

/-- A bus to registers in memory on which transactions may fail. -/
structure Fallible (σ : Type) where
  bus : Bus σ
  memory : σ → Memory
  acknowledged : ∀ r s bytes, (bus.answer r s).reply = .ok bytes →
    (Memory.bus.answer r (memory s)).reply = .ok bytes ∧
      memory (bus.answer r s).state = (Memory.bus.answer r (memory s)).state

namespace Fallible

variable {σ α ε : Type}

/-- The registers on a bus on which some transactions, counted from the first of all, fail without
reaching them. -/
def failing (fails : Nat → Option BusError) : Fallible (Nat × Memory) where
  bus := Memory.bus.failing fails
  memory := Prod.snd
  acknowledged r s bytes h := by
    unfold Bus.failing at h ⊢
    dsimp only at h ⊢
    cases hfails : fails s.1 with
    | some cause =>
      rw [hfails] at h
      cases h
    | none =>
      rw [hfails] at h
      exact ⟨h, rfl⟩

variable (u : Fallible σ)

/-- **A dialog of which no transaction has failed** comes to the same as on the registers alone. -/
theorem run_of_acknowledged (d : Dialog α) (s : σ)
    (h : ∀ e ∈ (d.run u.bus s).exchanges, e.2.isOk = true) :
    (d.run u.bus s).result = (d.run Memory.bus (u.memory s)).result ∧
      u.memory (d.run u.bus s).state = (d.run Memory.bus (u.memory s)).state := by
  induction d generalizing s with
  | done a => exact ⟨rfl, rfl⟩
  | note notice next ih => exact ih s h
  | ask r next ih =>
    obtain ⟨hr, hrest⟩ := List.forall_mem_cons.1 h
    cases hreply : (u.bus.answer r s).reply with
    | error cause =>
      rw [hreply] at hr
      cases hr
    | ok bytes =>
      obtain ⟨hmemory, hstate⟩ := u.acknowledged r s bytes hreply
      have hnext := ih _ _ hrest
      rw [hreply, hstate] at hnext
      unfold Dialog.run
      dsimp only
      rw [hreply, hmemory]
      exact hnext

/-- An attempt that has come to a value has done so on the registers alone. -/
theorem run_of_ok {error : ε → TagError} {p : Request → Prop} {d : Dialog (Except ε α)}
    (hfast : d.FailsFast p error) {s : σ} {a : α} (h : (d.run u.bus s).result = .ok a) :
    (d.run Memory.bus (u.memory s)).result = .ok a ∧
      u.memory (d.run u.bus s).state = (d.run Memory.bus (u.memory s)).state := by
  rcases hfast.run u.bus s with ⟨hall, -⟩ | ⟨-, -, -, -, -, -, e, he, -⟩
  · obtain ⟨hresult, hstate⟩ := u.run_of_acknowledged d s hall
    exact ⟨hresult.symm.trans h, hstate⟩
  · cases h.symm.trans he

end Fallible

end SpoolTag
