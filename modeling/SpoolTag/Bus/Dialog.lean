import SpoolTag.Notice

/-!
# Dialogs with a bus

Everything the library does on a bus is a dialog: it asks for one transaction, looks at the reply
and goes on. What answers is left open. A `Bus` answers requests from a state of its own, and
`Dialog.run` holds a dialog with it; the run keeps all transactions with their replies and
everything that was reported, in order.

`run_pure`, `run_bind` and `run_ask` say what a run is without looking at dialogs again: a run of a
sequence is the run of its first part followed by a run of the second from the state it left.
-/

namespace SpoolTag

/-- One transaction on a bus. -/
inductive Request where
  /-- Reads one byte without a register, to see whether the device answers. -/
  | probe (device : UInt8)
  | read (device register : UInt8) (count : Nat)
  | write (device register : UInt8) (bytes : List UInt8)
  deriving DecidableEq, Repr

/-- The device that a transaction is for. -/
def Request.device : Request → UInt8
  | .probe device => device
  | .read device _ _ => device
  | .write device _ _ => device

/-- The outcome of a transaction; only a read has bytes worth looking at. -/
abbrev Reply := Except BusError (List UInt8)

/-- A program that asks for transactions one after the other and may report what it does. -/
inductive Dialog (α : Type) where
  | done (a : α)
  | note (notice : Notice) (next : Dialog α)
  | ask (request : Request) (next : Reply → Dialog α)

/-- What a bus makes of one transaction. -/
structure Answer (σ : Type) where
  reply : Reply
  notices : List Notice
  state : σ

/-- Whatever answers requests. -/
structure Bus (σ : Type) where
  answer : Request → σ → Answer σ

/-- A finished dialog. -/
structure Run (σ α : Type) where
  result : α
  exchanges : List (Request × Reply)
  notices : List Notice
  state : σ

namespace Run

variable {σ α β : Type}

/-- Puts what happened before in front. -/
def after (before : Run σ α) (r : Run σ β) : Run σ β :=
  { r with
    exchanges := before.exchanges ++ r.exchanges
    notices := before.notices ++ r.notices }

end Run

namespace Dialog

variable {σ α β γ : Type}

/-- Goes on with what a dialog comes to. -/
def bind : Dialog α → (α → Dialog β) → Dialog β
  | done a, f => f a
  | note notice next, f => note notice (next.bind f)
  | ask request next, f => ask request fun reply => (next reply).bind f

instance : Monad Dialog where
  pure := done
  bind := bind

def request (r : Request) : Dialog Reply := ask r done

def report (notice : Notice) : Dialog Unit := note notice (done ())

def run (bus : Bus σ) : Dialog α → σ → Run σ α
  | done a, s => ⟨a, [], [], s⟩
  | note notice next, s =>
    let rest := next.run bus s
    { rest with notices := notice :: rest.notices }
  | ask request next, s =>
    let answer := bus.answer request s
    let rest := (next answer.reply).run bus answer.state
    { rest with
      exchanges := (request, answer.reply) :: rest.exchanges
      notices := answer.notices ++ rest.notices }

@[simp] theorem run_pure (bus : Bus σ) (a : α) (s : σ) :
    (pure a : Dialog α).run bus s = ⟨a, [], [], s⟩ := rfl

theorem run_ask (bus : Bus σ) (r : Request) (s : σ) :
    (request r).run bus s =
      ⟨(bus.answer r s).reply, [(r, (bus.answer r s).reply)], (bus.answer r s).notices,
        (bus.answer r s).state⟩ := by
  simp [request, run]

theorem run_bind (bus : Bus σ) (d : Dialog α) (f : α → Dialog β) (s : σ) :
    (d >>= f).run bus s =
      (d.run bus s).after ((f (d.run bus s).result).run bus (d.run bus s).state) := by
  change (d.bind f).run bus s = _
  induction d generalizing s with
  | done a => rfl
  | note notice next ih => simp [bind, run, Run.after, ih]
  | ask request next ih => simp [bind, run, Run.after, ih]

theorem bind_pure (d : Dialog α) : d.bind done = d := by
  induction d with
  | done a => rfl
  | note notice next ih => rw [bind, ih]
  | ask request next ih => rw [bind]; exact congrArg _ (funext ih)

theorem bind_assoc (d : Dialog α) (f : α → Dialog β) (g : β → Dialog γ) :
    (d.bind f).bind g = d.bind fun a => (f a).bind g := by
  induction d with
  | done a => rfl
  | note notice next ih => simp only [bind, ih]
  | ask request next ih => simp only [bind, ih]

instance : LawfulMonad Dialog :=
  LawfulMonad.mk' Dialog bind_pure (fun _ _ => rfl) bind_assoc

end Dialog

/-- A dialog that may fail. -/
abbrev Attempt (α : Type) := ExceptT TagError Dialog α

namespace Attempt

/-- One transaction; a failure of the bus makes the device unavailable. -/
def transact (r : Request) : Attempt (List UInt8) := do
  match ← (Dialog.request r : Dialog Reply) with
  | .ok bytes => pure bytes
  | .error cause => throw (.deviceUnavailable r.device cause)

def report (notice : Notice) : Attempt Unit := (Dialog.report notice : Dialog Unit)

/-- Goes on with a result, or fails with its error. -/
def ofExcept {α : Type} (result : Except TagError α) : Attempt α := ExceptT.mk (pure result)

end Attempt

end SpoolTag
