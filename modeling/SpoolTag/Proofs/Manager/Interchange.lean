import SpoolTag.Proofs.Bus.Kernel
import SpoolTag.Proofs.Manager.Uses

/-! # An adapter in place of registers in memory

Every operation of a manager asks for transactions that an adapter can carry only
(`Driver.Use.failsFast`). So over a kernel that keeps registers a driver has the same answers as over
registers in memory, whatever happens to the devices in between (`Driver.interchangeable`). -/

namespace SpoolTag

namespace Driver

/-- What happens next: something is done to the devices, or the driver is used. -/
inductive Step where
  | alter (a : Alteration)
  | use (u : Use)

/-- What all uses of the driver come to, and the state in which everything is left. -/
def session {σ : Type} (bus : Bus σ) (alter : Alteration → σ → σ) :
    List Step → σ → List Upshot × σ
  | [], s => ([], s)
  | .alter a :: rest, s => session bus alter rest (alter a s)
  | .use u :: rest, s =>
    let run := u.attempt.run.run bus s
    let later := session bus alter rest run.state
    (⟨u, run.result⟩ :: later.1, later.2)

variable {κ : Type} {kernel : Kernel κ} (keeps : kernel.KeepsRegisters) {k : κ} {mem : Memory}

include keeps in
/-- One use of the driver comes to the same thing, and leaves the same registers. -/
theorem use_eq (u : Use) (h : keeps.registers k = mem.registers) :
    (u.attempt.run.run kernel.bus k).result = (u.attempt.run.run Memory.bus mem).result ∧
      keeps.registers (u.attempt.run.run kernel.bus k).state =
        (u.attempt.run.run Memory.bus mem).state.registers :=
  Dialog.run_eq_of_asks (fun k (mem : Memory) => keeps.registers k = mem.registers)
    (fun _ _ _ hr h => keeps.answer_eq hr h) (u.failsFast.asks fun _ hr => hr.2) h

/-- **An adapter before a kernel that keeps registers is as good as registers in memory**: whatever
is done to the devices and whatever the driver is used for, every use has the same result, and the
registers stay the same. -/
theorem interchangeable (steps : List Step) (h : keeps.registers k = mem.registers) :
    (session kernel.bus keeps.alter steps k).1 =
        (session Memory.bus (fun a m => m.alter a) steps mem).1 ∧
      keeps.registers (session kernel.bus keeps.alter steps k).2 =
        (session Memory.bus (fun a m => m.alter a) steps mem).2.registers := by
  induction steps generalizing k mem with
  | nil => exact ⟨rfl, h⟩
  | cons step rest ih =>
    cases step with
    | alter a =>
      have haltered : keeps.registers (keeps.alter a k) = (mem.alter a).registers := by
        rw [keeps.registers_alter, h, Memory.registers_alter]
      exact ih haltered
    | use u =>
      obtain ⟨hresult, hstate⟩ := use_eq keeps u h
      obtain ⟨hupshots, hlater⟩ := ih hstate
      refine ⟨?_, hlater⟩
      change Upshot.mk u _ :: _ = Upshot.mk u _ :: _
      rw [hresult, hupshots]

/-- A number is written and read back, and then the device is taken away. -/
def visit : List Step :=
  let m : Manager := ⟨0x42, .standard⟩
  let number : Register := ⟨Register.filamentId, 0x02, .int32⟩
  [.alter (.attach 0x42), .use (.connect 0x42 .standard), .use (.write m number (.int32 7)),
    .use (.read m number), .alter (.detach 0x42), .use (.read m number)]

theorem interchangeable_visit :
    let nobody : Registers := ⟨fun _ => false, fun _ _ => none⟩
    nobody = ({} : Memory).registers ∧
      (session Registers.kernel.bus Registers.keepsRegisters.alter visit nobody).1 =
        (session Memory.bus (fun a m => m.alter a) visit {}).1 ∧
      (session Registers.kernel.bus Registers.keepsRegisters.alter visit nobody).2 =
        (session Memory.bus (fun a m => m.alter a) visit {}).2.registers :=
  have same := interchangeable Registers.keepsRegisters visit
    (show ⟨fun _ => false, fun _ _ => none⟩ = ({} : Memory).registers from rfl)
  ⟨rfl, same.1, same.2⟩

end Driver

end SpoolTag
