import SpoolTag.Bus.Dialog

/-!
# One of two buses

A state that is the state of one of two buses, and the bus that answers for whichever it is.
-/

namespace SpoolTag

/-- The bus of the side on which the state is. -/
def Bus.choice {σ τ : Type} (left : Bus σ) (right : Bus τ) : Bus (σ ⊕ τ) where
  answer r
    | .inl s =>
      let answer := left.answer r s
      ⟨answer.reply, answer.notices, .inl answer.state⟩
    | .inr t =>
      let answer := right.answer r t
      ⟨answer.reply, answer.notices, .inr answer.state⟩

end SpoolTag
