import SpoolTag.Bus.Dialog

/-!
# A bus that fails as planned

Puts faults over another bus. A plan names some of the transactions to come by their number, counted
from the first one of all, and what goes wrong with them; of two plans for one transaction the later
one holds.
-/

namespace SpoolTag

/-- What goes wrong with a transaction. -/
inductive Mishap where
  /-- Nobody acknowledges, and the bus below is not asked. -/
  | silence
  /-- The transaction cannot be carried out, and the bus below is not asked. -/
  | refusal (reason : String)
  /-- A read that succeeds gives these bytes. -/
  | garble (bytes : List UInt8)
  deriving DecidableEq, Repr

/-- A mishap for the transactions `first`, …, `first + count - 1`. -/
structure Plan where
  first : Nat
  count : Nat
  mishap : Mishap
  deriving DecidableEq, Repr

/-- A bus under plans: the number of transactions so far, and the plans, the latest first. -/
structure Faulty (σ : Type) where
  below : σ
  elapsed : Nat := 0
  plans : List Plan := []

namespace Faulty

variable {σ : Type}

/-- Plans a mishap for `count` transactions after the next `delay` ones. -/
def schedule (f : Faulty σ) (delay count : Nat) (mishap : Mishap) : Faulty σ :=
  { f with plans := ⟨f.elapsed + delay, count, mishap⟩ :: f.plans }

def next? (f : Faulty σ) : Option Mishap :=
  (f.plans.find? fun p => p.first ≤ f.elapsed && f.elapsed < p.first + p.count).map Plan.mishap

def onBelow (f : Faulty σ) (g : σ → σ) : Faulty σ := { f with below := g f.below }

/-- Carries out a transaction under the plans. -/
def answer (bus : Bus σ) (r : Request) (f : Faulty σ) : Answer (Faulty σ) :=
  let later (below : σ) : Faulty σ := { f with below, elapsed := f.elapsed + 1 }
  match f.next? with
  | some .silence => ⟨.error (.noAcknowledge r.device), [], later f.below⟩
  | some (.refusal reason) => ⟨.error (.io (.other reason)), [], later f.below⟩
  | some (.garble bytes) =>
    let answer := bus.answer r f.below
    let reply := match r, answer.reply with
      | .read _ _ _, .ok _ => .ok bytes
      | _, reply => reply
    ⟨reply, answer.notices, later answer.state⟩
  | none =>
    let answer := bus.answer r f.below
    ⟨answer.reply, answer.notices, later answer.state⟩

def bus (below : Bus σ) : Bus (Faulty σ) := ⟨answer below⟩

end Faulty

end SpoolTag
