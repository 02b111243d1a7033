import SpoolTag.Proofs.Bus.Memory

/-! # Devices that stage what is written

A device does not apply a write at once. It keeps what is written to its registers until a commit
comes to the operation register, and then applies all of it; reads show what is applied. `Staging`
is a bus of such devices, and `Bus.failing` one on which any transactions may fail before they reach
a device. What such a bus has done is then a matter of the transactions that did not fail
(`Dialog.state_failing`), and what only reads comes to the same on the applied registers alone
(`Staging.result_of_reads`). -/

namespace SpoolTag

/-! ### Devices -/

/-- What the registers of the devices show, and the writes that no commit has applied, in order. -/
structure Staging where
  applied : Memory
  staged : List Request := []

namespace Staging

/-- Applies the writes that are staged for a device. -/
def commit (d : Staging) (device : UInt8) : Staging where
  applied := Memory.bus.stateAfter (d.staged.filter fun r => r.device == device) d.applied
  staged := d.staged.filter fun r => r.device != device

/-- What a device makes of a write. The operation register, at the given address, accepts the code
for a commit; other codes do nothing. -/
def write (operation device address : UInt8) (bytes : List UInt8) (d : Staging) : Staging :=
  if address ≠ operation then { d with staged := d.staged ++ [.write device address bytes] }
  else if bytes = [Operation.commit.code] then d.commit device
  else d

def answer (operation : UInt8) (r : Request) (d : Staging) : Answer Staging :=
  match r with
  | .write device address bytes =>
    if ¬ d.applied.attached.contains device then ⟨.error (.noAcknowledge device), [], d⟩
    else ⟨.ok [], [], d.write operation device address bytes⟩
  | r => ⟨(Memory.answer r d.applied).reply, (Memory.answer r d.applied).notices, d⟩

/-- Devices with the operation register at the given address. -/
def bus (operation : UInt8) : Bus Staging := ⟨answer operation⟩

variable {operation device address : UInt8} {bytes : List UInt8} {d : Staging}
  {requests : List Request}

theorem answer_of_detached (h : ¬ d.applied.attached.contains device) :
    (bus operation).answer (.write device address bytes) d =
      ⟨.error (.noAcknowledge device), [], d⟩ := if_pos h

theorem answer_of_attached (h : d.applied.attached.contains device) :
    (bus operation).answer (.write device address bytes) d =
      ⟨.ok [], [], d.write operation device address bytes⟩ := if_neg fun hnot => hnot h

theorem write_of_ne (h : address ≠ operation) : d.write operation device address bytes =
    { d with staged := d.staged ++ [.write device address bytes] } := if_pos h

theorem write_commit :
    d.write operation device operation [Operation.commit.code] = d.commit device :=
  (if_neg (not_not_intro rfl)).trans (if_pos rfl)

theorem attached_write : (d.write operation device address bytes).applied.attached =
    d.applied.attached := by
  unfold write
  split
  · rfl
  · split
    · exact Memory.attached_after _ _
    · rfl

theorem attached_answer (r : Request) (d : Staging) :
    ((bus operation).answer r d).state.applied.attached = d.applied.attached := by
  cases r with
  | probe device => rfl
  | read device address count => rfl
  | write device address bytes =>
    by_cases h : d.applied.attached.contains device
    · rw [answer_of_attached h]
      exact attached_write
    · rw [answer_of_detached h]

/-- A device that does not acknowledge is left as it is. -/
theorem state_of_error {r : Request} {cause : BusError}
    (herror : ((bus operation).answer r d).reply = .error cause) :
    ((bus operation).answer r d).state = d := by
  cases r with
  | probe device => rfl
  | read device address count => rfl
  | write device address bytes =>
    by_cases h : d.applied.attached.contains device
    · rw [answer_of_attached h] at herror
      cases herror
    · rw [answer_of_detached h]

/-- Only a device that is attached acknowledges a write. -/
theorem attached_of_ok {reply : List UInt8}
    (hok : ((bus operation).answer (.write device address bytes) d).reply = .ok reply) :
    d.applied.attached.contains device := by
  by_cases h : d.applied.attached.contains device
  · exact h
  · rw [answer_of_detached h] at hok
    cases hok

/-! ### Staging -/

/-- Writes to registers of a device other than its operation register. -/
def Stages (operation device : UInt8) (requests : List Request) : Prop :=
  ∀ r ∈ requests, ∃ address bytes, r = .write device address bytes ∧ address ≠ operation

/-- **Nothing is applied without a commit.** -/
theorem applied_after (h : Stages operation device requests) :
    ∀ d : Staging, ((bus operation).stateAfter requests d).applied = d.applied := by
  induction requests with
  | nil => intro d; rfl
  | cons r rest ih =>
    intro d
    obtain ⟨address, bytes, rfl, haddress⟩ := h r List.mem_cons_self
    rw [Bus.stateAfter_cons, ih fun q hq => h q (List.mem_cons_of_mem _ hq)]
    by_cases hattached : d.applied.attached.contains device
    · rw [answer_of_attached hattached, write_of_ne haddress]
    · rw [answer_of_detached hattached]

theorem stateAfter_of_stages (h : Stages operation device requests) :
    ∀ d : Staging, d.applied.attached.contains device →
      (bus operation).stateAfter requests d = { d with staged := d.staged ++ requests } := by
  induction requests with
  | nil =>
    intro d _
    rw [List.append_nil]
    rfl
  | cons r rest ih =>
    intro d hattached
    obtain ⟨address, bytes, rfl, haddress⟩ := h r List.mem_cons_self
    rw [Bus.stateAfter_cons, answer_of_attached hattached, write_of_ne haddress]
    refine (ih (fun q hq => h q (List.mem_cons_of_mem _ hq))
      { d with staged := d.staged ++ [.write device address bytes] } hattached).trans ?_
    dsimp only
    rw [List.append_assoc, List.singleton_append]

/-- **A commit applies what was left behind, and then what was staged last.** -/
theorem applied_after_commit (h : Stages operation device requests)
    (hattached : d.applied.attached.contains device) :
    ((bus operation).stateAfter
        (requests ++ [.write device operation [Operation.commit.code]]) d).applied =
      Memory.bus.stateAfter (d.staged.filter (fun r => r.device == device) ++ requests)
        d.applied := by
  have hdevice : requests.filter (fun r => r.device == device) = requests :=
    List.filter_eq_self.2 fun r hr => by
      obtain ⟨address, bytes, rfl, -⟩ := h r hr
      exact beq_self_eq_true device
  have hcommit : (bus operation).answer (.write device operation [Operation.commit.code])
      { d with staged := d.staged ++ requests } = ⟨.ok [], [], write operation device operation
        [Operation.commit.code] { d with staged := d.staged ++ requests }⟩ :=
    answer_of_attached hattached
  rw [Bus.stateAfter_append, stateAfter_of_stages h d hattached, Bus.stateAfter_cons, hcommit,
    write_commit]
  change Memory.bus.stateAfter (List.filter _ (d.staged ++ requests)) d.applied = _
  rw [List.filter_append, hdevice]

/-! ### Reading -/

/-- What a read shows does not depend on the transactions that were kept. -/
theorem answer_read (mem : Memory) (recent : List Request) (device address : UInt8) (count : Nat) :
    let r : Request := .read device address count
    Memory.bus.answer r { mem with recent } =
      { Memory.bus.answer r mem with state := Memory.record { mem with recent } r } := by
  intro r
  by_cases h : mem.attached.contains r.device
  · have h' : ({ mem with recent } : Memory).attached.contains r.device := h
    rw [Memory.answer_of_attached h, Memory.answer_of_attached h']
    rfl
  · have h' : ¬ ({ mem with recent } : Memory).attached.contains r.device := h
    rw [Memory.answer_of_detached h, Memory.answer_of_detached h']

/-- What only reads comes to the same on the applied registers alone. -/
theorem result_of_reads {α : Type} (q : Dialog α) (d : Staging) (recent : List Request)
    (h : ∀ e ∈ (q.run (bus operation) d).exchanges, ∃ device address count,
      e.1 = .read device address count) :
    (q.run (bus operation) d).result = (q.run Memory.bus { d.applied with recent }).result := by
  induction q generalizing recent with
  | done a => rfl
  | note notice next ih => exact ih recent h
  | ask r next ih =>
    obtain ⟨device, address, count, rfl⟩ := h _ List.mem_cons_self
    let r : Request := .read device address count
    change _ = ((next (Memory.bus.answer r { d.applied with recent }).reply).run Memory.bus
      (Memory.bus.answer r { d.applied with recent }).state).result
    rw [answer_read]
    exact ih _ _ fun e he => h e (List.mem_cons_of_mem _ he)

end Staging

/-! ### Failing transactions -/

/-- The bus on which transactions, counted from the first of all, may fail without reaching it. -/
def Bus.failing {σ : Type} (fails : Nat → Option BusError) (bus : Bus σ) : Bus (Nat × σ) where
  answer r s :=
    match fails s.1 with
    | some cause => ⟨.error cause, [], (s.1 + 1, s.2)⟩
    | none =>
      let answer := bus.answer r s.2
      ⟨answer.reply, answer.notices, (s.1 + 1, answer.state)⟩

/-- A transaction fails and leaves everything as it was, or the bus has answered it. -/
theorem Bus.failing_answer {σ : Type} {fails : Nat → Option BusError} {bus : Bus σ}
    (hbus : ∀ r s cause, (bus.answer r s).reply = .error cause → (bus.answer r s).state = s)
    (r : Request) (s : Nat × σ) :
    (∃ cause, ((bus.failing fails).answer r s).reply = .error cause ∧
      ((bus.failing fails).answer r s).state.2 = s.2) ∨
    ∃ bytes, ((bus.failing fails).answer r s).reply = .ok bytes ∧
      (bus.answer r s.2).reply = .ok bytes ∧
        ((bus.failing fails).answer r s).state.2 = (bus.answer r s.2).state := by
  unfold failing
  dsimp only
  cases fails s.1 with
  | some cause => exact .inl ⟨cause, rfl, rfl⟩
  | none =>
    dsimp only
    cases hreply : (bus.answer r s.2).reply with
    | error cause => exact .inl ⟨cause, rfl, hbus r s.2 cause hreply⟩
    | ok bytes => exact .inr ⟨bytes, rfl, rfl, rfl⟩

/-- **Only the transactions that did not fail have reached the bus**, when it leaves its state alone
whenever it fails itself. -/
theorem Dialog.state_failing {σ α : Type} {fails : Nat → Option BusError} {bus : Bus σ}
    (hbus : ∀ r s cause, (bus.answer r s).reply = .error cause → (bus.answer r s).state = s)
    (d : Dialog α) (s : Nat × σ) :
    (d.run (bus.failing fails) s).state.2 =
      bus.stateAfter (succeeded (d.run (bus.failing fails) s).exchanges) s.2 := by
  induction d generalizing s with
  | done a => rfl
  | note notice next ih => exact ih s
  | ask r next ih =>
    let answer := (bus.failing fails).answer r s
    change ((next answer.reply).run (bus.failing fails) answer.state).state.2 =
      bus.stateAfter (succeeded ((r, answer.reply) :: _)) s.2
    rw [ih]
    rcases Bus.failing_answer hbus r s with ⟨cause, hreply, hstate⟩ | ⟨bytes, hreply, -, hstate⟩
    · rw [hreply, hstate]
      rfl
    · rw [hreply, hstate]
      rfl

/-- Only an attached device has acknowledged a write. -/
theorem Staging.attached_of_written {α : Type} {fails : Nat → Option BusError}
    {operation device address : UInt8} {bytes reply : List UInt8} {d : Dialog α} {s : Nat × Staging}
    (h : (.write device address bytes, .ok reply) ∈
      (d.run ((bus operation).failing fails) s).exchanges) :
    s.2.applied.attached.contains device := by
  have hkept : ∀ r (t : Nat × Staging), t.2.applied.attached = s.2.applied.attached →
      (((bus operation).failing fails).answer r t).state.2.applied.attached =
        s.2.applied.attached := by
    intro r t ht
    rcases Bus.failing_answer (fun _ _ _ => state_of_error) r t with
      ⟨_, _, hstate⟩ | ⟨_, _, _, hstate⟩
    · rw [hstate, ht]
    · rw [hstate, attached_answer, ht]
  obtain ⟨t, ht, hreply⟩ := Dialog.reply_of_mem _ d (fun e _ => hkept e.1) rfl _ h
  rcases Bus.failing_answer (fun _ _ _ => state_of_error)
    (.write device address bytes) t with ⟨_, herror, _⟩ | ⟨_, _, hok, _⟩
  · cases hreply.trans herror
  · rw [← ht]
    exact attached_of_ok hok

end SpoolTag
