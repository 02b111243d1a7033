import Mathlib.Logic.Function.Basic
import SpoolTag.Proofs.Bus.Memory

/-! # What can be seen of devices

`Registers` is what a bus can show of the devices on it: which of them acknowledge, and what their
registers hold. An `Alteration` is something that is done to a device beside the bus. Registers in
memory follow alterations and transactions as `Registers` do (`Memory.registers_alter`,
`Memory.answer_eq`), so nothing else of their state decides what a transaction comes to.

What is done to one device, in either way, is not seen of another one (`Registers.view_alter_of_ne`,
`Registers.view_after_of_ne`), and what is seen of a device decides what is seen of it later. -/

namespace SpoolTag

/-- Which devices acknowledge, and what was put into their registers. -/
structure Registers where
  attached : UInt8 → Bool
  get? : UInt8 → UInt8 → Option (List UInt8)

/-- Something that is done to devices beside the bus. -/
inductive Alteration where
  | attach (device : UInt8)
  | detach (device : UInt8)
  | set (device register : UInt8) (bytes : List UInt8)
  deriving DecidableEq, Repr

/-- The device to which something is done. -/
def Alteration.device : Alteration → UInt8
  | .attach device | .detach device | .set device _ _ => device

namespace Registers

def set (v : Registers) (device register : UInt8) (bytes : List UInt8) : Registers :=
  { v with
    get? := fun d r => if (device, register) = (d, r) then some bytes else v.get? d r }

def alter (v : Registers) : Alteration → Registers
  | .attach device => { v with attached := Function.update v.attached device true }
  | .detach device => { v with attached := Function.update v.attached device false }
  | .set device register bytes => v.set device register bytes

/-- What a transaction leaves. -/
def after (v : Registers) : Request → Registers
  | .write device register bytes => if v.attached device then v.set device register bytes else v
  | .probe _ | .read _ _ _ => v

/-- What a transaction comes to. -/
def reply (v : Registers) (r : Request) : Reply :=
  if v.attached r.device then
    match r with
    | .read device register count => .ok (padTo count ((v.get? device register).getD []))
    | .probe _ | .write _ _ _ => .ok []
  else .error (.noAcknowledge r.device)

/-- A transaction succeeds if its device acknowledges. -/
theorem isOk_reply (v : Registers) (r : Request) : (v.reply r).isOk = v.attached r.device := by
  unfold reply
  cases h : v.attached r.device
  · rfl
  · cases r <;> rfl

/-! ### One device -/

/-- What can be seen of one device. -/
def view (v : Registers) (device : UInt8) : Bool × (UInt8 → Option (List UInt8)) :=
  (v.attached device, v.get? device)

variable {v w : Registers} {device : UInt8}

theorem view_set_of_ne {other : UInt8} (register : UInt8) (bytes : List UInt8)
    (h : other ≠ device) : (v.set other register bytes).view device = v.view device := by
  simp [view, set, h]

theorem view_set (other register : UInt8) (bytes : List UInt8) (h : v.view device = w.view device) :
    (v.set other register bytes).view device = (w.set other register bytes).view device := by
  simp only [view, Prod.mk.injEq] at h
  simp [view, set, h.1, h.2]

theorem view_alter_of_ne {a : Alteration} (h : a.device ≠ device) :
    (v.alter a).view device = v.view device := by
  cases a with
  | attach other | detach other =>
    have hne : device ≠ other := Ne.symm h
    simp [view, alter, Function.update_of_ne hne]
  | set other register bytes => exact view_set_of_ne register bytes h

theorem view_alter (a : Alteration) (h : v.view device = w.view device) :
    (v.alter a).view device = (w.alter a).view device := by
  by_cases ha : a.device = device
  · cases a with
    | attach other | detach other =>
      obtain rfl : other = device := ha
      simp only [view, Prod.mk.injEq] at h
      simp only [view, alter, Function.update_self, h.2]
    | set other register bytes => exact view_set other register bytes h
  · rw [view_alter_of_ne ha, view_alter_of_ne ha, h]

theorem view_after_of_ne {r : Request} (h : r.device ≠ device) :
    (v.after r).view device = v.view device := by
  cases r with
  | write other register bytes =>
    dsimp only [after]
    split
    · exact view_set_of_ne register bytes h
    · rfl
  | _ => rfl

/-- What is seen of a device decides what is seen of it after a transaction with it. -/
theorem view_after {r : Request} (h : v.view r.device = w.view r.device) :
    (v.after r).view r.device = (w.after r).view r.device := by
  cases r with
  | write other register bytes =>
    have hattached : v.attached other = w.attached other := congrArg Prod.fst h
    dsimp only [after]
    rw [hattached]
    split
    · exact view_set other register bytes h
    · exact h
  | _ => exact h

/-- What is seen of a device decides what a transaction with it comes to. -/
theorem reply_eq {r : Request} (h : v.view r.device = w.view r.device) : v.reply r = w.reply r := by
  have hattached : v.attached r.device = w.attached r.device := congrArg Prod.fst h
  have hget : v.get? r.device = w.get? r.device := congrArg Prod.snd h
  unfold reply
  rw [hattached]
  cases r with
  | read other register count =>
    dsimp only [Request.device] at hget ⊢
    rw [hget]
  | _ => rfl

end Registers

namespace Memory

def registers (m : Memory) : Registers := ⟨fun device => m.attached.contains device, m.get?⟩

def alter (m : Memory) : Alteration → Memory
  | .attach device => m.attach device
  | .detach device => m.detach device
  | .set device register bytes => m.set device register bytes

theorem registers_set (m : Memory) (device register : UInt8) (bytes : List UInt8) :
    (m.set device register bytes).registers = m.registers.set device register bytes := by
  unfold registers Registers.set
  congr 1
  funext d r
  exact Contents.get?_set (device, register) (d, r) bytes m.contents

theorem registers_alter (m : Memory) (a : Alteration) :
    (m.alter a).registers = m.registers.alter a := by
  cases a with
  | attach device | detach device =>
    unfold registers Registers.alter
    congr 1
    funext d
    by_cases h : d = device <;> simp [alter, attach, detach, h]
  | set device register bytes => exact m.registers_set device register bytes

/-- **Registers in memory answer as what can be seen of them tells.** -/
theorem answer_eq (r : Request) (m : Memory) :
    (bus.answer r m).reply = m.registers.reply r ∧
      (bus.answer r m).state.registers = m.registers.after r := by
  unfold Registers.reply Registers.after
  by_cases h : m.attached.contains r.device
  · have hattached : m.registers.attached r.device = true := h
    rw [answer_of_attached h, if_pos hattached]
    cases r with
    | write device register bytes =>
      have hdevice : m.registers.attached device = true := h
      dsimp only
      rw [if_pos hdevice]
      exact ⟨rfl, registers_set _ device register bytes⟩
    | _ => exact ⟨rfl, rfl⟩
  · have hattached : ¬ m.registers.attached r.device = true := h
    rw [answer_of_detached h, if_neg hattached]
    cases r with
    | write device register bytes =>
      have hdevice : ¬ m.registers.attached device = true := h
      dsimp only
      rw [if_neg hdevice]
      exact ⟨rfl, rfl⟩
    | _ => exact ⟨rfl, rfl⟩

end Memory

end SpoolTag
