import SpoolTag.Bus.Memory
import SpoolTag.Proofs.Bus.Plans

/-! # Registers in memory, written and read

A device that is attached acknowledges everything, and no transaction detaches it
(`attached_answer`). After writes to registers of which no two are the same, every register holds
what was written to it (`get?_after_of_mem`) and the others hold what they held
(`get?_after_of_notMem`).

What only reads leaves the registers alone, so its parts see the same contents. `Shows` says what
such an attempt ends like; the parts add up like those of a plan (`Shows.bind`). What is `Still` does
so for any contents. -/

namespace SpoolTag

theorem padTo_of_length {bytes : List UInt8} {count : Nat} (h : bytes.length = count) :
    padTo count bytes = bytes := by
  rw [padTo, List.take_of_length_le (Nat.le_of_eq h), h, Nat.sub_self, List.replicate_zero,
    List.append_nil]

namespace Memory

variable {device address : UInt8} {mem : Memory}

/-! ### Writing -/

theorem answer_of_detached {r : Request} (h : ¬ mem.attached.contains r.device) :
    bus.answer r mem = ⟨.error (.noAcknowledge r.device), [], mem.record r⟩ := if_pos h

theorem answer_of_attached {r : Request} :
    mem.attached.contains r.device → bus.answer r mem = match r with
      | .probe _ => ⟨.ok [], [], mem.record r⟩
      | .read device register count =>
        ⟨.ok (padTo count ((mem.get? device register).getD [])),
          [.memoryRead device register count], mem.record r⟩
      | .write device register bytes =>
        ⟨.ok [], [.memoryWrite device register bytes.length],
          (mem.record r).set device register bytes⟩ := fun h => if_neg fun hnot => hnot h

theorem attached_answer (r : Request) (mem : Memory) :
    (bus.answer r mem).state.attached = mem.attached := by
  by_cases h : mem.attached.contains r.device
  · rw [answer_of_attached h]
    cases r <;> rfl
  · rw [answer_of_detached h]
    rfl

theorem reply_of_attached {r : Request} (h : mem.attached.contains r.device) :
    ∃ bytes, (bus.answer r mem).reply = .ok bytes := by
  rw [answer_of_attached h]
  cases r <;> exact ⟨_, rfl⟩

theorem get?_answer_write (h : mem.attached.contains device) (address : UInt8)
    (bytes : List UInt8) (other register : UInt8) :
    (bus.answer (.write device address bytes) mem).state.get? other register =
      if (device, address) = (other, register) then some bytes else mem.get? other register := by
  rw [answer_of_attached h]
  exact Contents.get?_set (device, address) (other, register) bytes mem.contents

/-- The writes of bytes to registers of a device. -/
def writes (device : UInt8) (contents : List (UInt8 × List UInt8)) : List Request :=
  contents.map fun p => .write device p.1 p.2

/-- Other registers, and all registers of other devices, hold what they held. -/
theorem get?_after_of_notMem {contents : List (UInt8 × List UInt8)} {other : UInt8}
    (h : mem.attached.contains device)
    (haddress : other = device → address ∉ contents.map Prod.fst) :
    (bus.stateAfter (writes device contents) mem).get? other address =
      mem.get? other address := by
  induction contents generalizing mem with
  | nil => rfl
  | cons p rest ih =>
    have hattached : (bus.answer (.write device p.1 p.2) mem).state.attached.contains device := by
      rw [attached_answer]
      exact h
    have hne : (device, p.1) ≠ (other, address) := by
      rintro ⟨⟩
      exact haddress rfl List.mem_cons_self
    refine (ih hattached fun he hmem => haddress he (List.mem_cons_of_mem _ hmem)).trans ?_
    rw [get?_answer_write h, if_neg hne]

/-- **Every register holds what was written to it**, when no register is written twice. -/
theorem get?_after_of_mem {contents : List (UInt8 × List UInt8)} {bytes : List UInt8}
    (h : mem.attached.contains device) (hdistinct : (contents.map Prod.fst).Nodup)
    (hmem : (address, bytes) ∈ contents) :
    (bus.stateAfter (writes device contents) mem).get? device address = some bytes := by
  induction contents generalizing mem with
  | nil => cases hmem
  | cons p rest ih =>
    obtain ⟨hnotMem, hrest⟩ := List.nodup_cons.1 hdistinct
    have hattached : (bus.answer (.write device p.1 p.2) mem).state.attached.contains device := by
      rw [attached_answer]
      exact h
    rcases List.mem_cons.1 hmem with rfl | hmem
    · refine (get?_after_of_notMem hattached fun _ => hnotMem).trans ?_
      rw [get?_answer_write h, if_pos rfl]
    · exact ih hattached hrest hmem

theorem attached_after (requests : List Request) :
    ∀ mem : Memory, (bus.stateAfter requests mem).attached = mem.attached := by
  induction requests with
  | nil => intro mem; rfl
  | cons r rest ih => intro mem; exact (ih _).trans (attached_answer r mem)

/-- What only asks an attached device for a plan is carried out to its end. -/
theorem result_of_carries {ε α : Type} {d : ExceptT ε Dialog α} {plan : List (Planned ε)} {a : α}
    (hd : Carries d plan a) (h : mem.attached.contains device)
    (hdevice : ∀ r ∈ plan.map Planned.request, r.device = device) :
    (d.run.run bus mem).result = .ok a := by
  have hfollows := hd Memory bus mem
  refine hfollows.ok_of_acknowledged fun e he => ?_
  obtain ⟨t, ht, hreply⟩ := Dialog.reply_of_mem bus
    (p := fun t => t.attached.contains device) d.run
    (fun e _ t ht => by rw [attached_answer]; exact ht) h e he
  rw [hreply]
  refine reply_of_attached ?_
  rw [hdevice e.1 (hfollows.request_mem e he)]
  exact ht

/-- What only writes to an attached device is carried out to its end, and leaves what was written. -/
theorem run_of_carries_writes {ε α : Type} {d : ExceptT ε Dialog α} {plan : List (Planned ε)} {a : α}
    {contents : List (UInt8 × List UInt8)} (hd : Carries d plan a)
    (hplan : plan.map Planned.request = writes device contents) (h : mem.attached.contains device) :
    (d.run.run bus mem).result = .ok a ∧
      (d.run.run bus mem).state = bus.stateAfter (writes device contents) mem := by
  have hresult : (d.run.run bus mem).result = .ok a := by
    refine result_of_carries hd h fun r hr => ?_
    rw [hplan] at hr
    obtain ⟨p, -, rfl⟩ := List.mem_map.1 hr
    rfl
  have hfollows := hd Memory bus mem
  rw [hresult] at hfollows
  refine ⟨hresult, ?_⟩
  rw [Dialog.state_run, hfollows.issued, hplan]

/-! ### Reading -/

/-- What a read of so many bytes shows of a register. -/
def shown (mem : Memory) (device address : UInt8) (count : Nat) : List UInt8 :=
  padTo count ((mem.get? device address).getD [])

@[simp] theorem length_shown (mem : Memory) (device address : UInt8) (count : Nat) :
    (mem.shown device address count).length = count := length_padTo _ _

/-- A read of as many bytes as were put into a register shows them. -/
theorem shown_of_get? {bytes : List UInt8} (h : mem.get? device address = some bytes) :
    mem.shown device address bytes.length = bytes := by
  rw [shown, h, Option.getD_some, padTo_of_length rfl]

/-- The attempt ends like this and leaves the registers alone, whatever transactions were kept
before. -/
def Shows {α : Type} (mem : Memory) (d : Attempt α) (outcome : Except TagError α) : Prop :=
  ∀ recent, (d.run.run bus { mem with recent }).result = outcome ∧
    ∃ later, (d.run.run bus { mem with recent }).state = { mem with recent := later }

namespace Shows

variable {α β : Type} {a : α} {outcome : Except TagError β}

theorem result {d : Attempt β} (h : Shows mem d outcome) : (d.run.run bus mem).result = outcome :=
  (h mem.recent).1

theorem state {d : Attempt β} (h : Shows mem d outcome) :
    ∃ later, (d.run.run bus mem).state = { mem with recent := later } := (h mem.recent).2

theorem pure (mem : Memory) (a : α) : Shows mem (Pure.pure a) (.ok a) :=
  fun recent => ⟨rfl, recent, rfl⟩

theorem throw (mem : Memory) (e : TagError) : Shows mem (MonadExcept.throw e : Attempt α) (.error e) :=
  fun recent => ⟨rfl, recent, rfl⟩

theorem report (mem : Memory) (notice : Notice) : Shows mem (Attempt.report notice) (.ok ()) :=
  fun recent => ⟨rfl, recent, rfl⟩

theorem ofExcept (mem : Memory) {found : Except TagError β} (h : found = outcome) :
    Shows mem (Attempt.ofExcept found) outcome := fun recent => ⟨h, recent, rfl⟩

theorem bind {d : Attempt α} {f : α → Attempt β} (h : Shows mem d (.ok a))
    (hf : Shows mem (f a) outcome) : Shows mem (d >>= f) outcome := by
  intro recent
  obtain ⟨hresult, later, hstate⟩ := h recent
  obtain ⟨hresult', later', hstate'⟩ := hf later
  rw [ExceptT.run_bind, Dialog.run_bind, hresult, hstate]
  exact ⟨hresult', later', hstate'⟩

theorem bind_error {d : Attempt α} {e : TagError} (f : α → Attempt β) (h : Shows mem d (.error e)) :
    Shows mem (d >>= f) (.error e) := by
  intro recent
  obtain ⟨hresult, later, hstate⟩ := h recent
  rw [ExceptT.run_bind, Dialog.run_bind, hresult, hstate]
  exact ⟨rfl, later, rfl⟩

/-- A read shows as many bytes as it asks for of what the register holds. -/
theorem read (h : mem.attached.contains device) (address : UInt8) (count : Nat) :
    Shows mem (Attempt.transact (.read device address count))
      (.ok (mem.shown device address count)) := by
  intro recent
  have hattached : ({ mem with recent } : Memory).attached.contains device := h
  rw [Attempt.run_transact, answer_of_attached hattached]
  exact ⟨rfl, _, rfl⟩

theorem detached {r : Request} (h : ¬ mem.attached.contains r.device) :
    Shows mem (Attempt.transact r) (.error (.deviceUnavailable r.device (.noAcknowledge r.device))) := by
  intro recent
  have hdetached : ¬ ({ mem with recent } : Memory).attached.contains r.device := h
  rw [Attempt.run_transact, answer_of_detached hdetached]
  exact ⟨rfl, _, rfl⟩

end Shows

/-- What the attempt ends like is a matter of the registers alone, and it leaves them alone. -/
def Still {α : Type} (d : Attempt α) : Prop := ∀ mem, ∃ outcome, Shows mem d outcome

namespace Still

variable {α β : Type}

theorem pure (a : α) : Still (Pure.pure a) := fun mem => ⟨_, Shows.pure mem a⟩

theorem throw (e : TagError) : Still (MonadExcept.throw e : Attempt α) :=
  fun mem => ⟨_, Shows.throw mem e⟩

theorem report (notice : Notice) : Still (Attempt.report notice) :=
  fun mem => ⟨_, Shows.report mem notice⟩

theorem ofExcept (outcome : Except TagError α) : Still (Attempt.ofExcept outcome) :=
  fun mem => ⟨outcome, Shows.ofExcept mem rfl⟩

theorem bind {d : Attempt α} {f : α → Attempt β} (h : Still d) (hf : ∀ a, Still (f a)) :
    Still (d >>= f) := by
  intro mem
  obtain ⟨outcome, hd⟩ := h mem
  cases outcome with
  | ok a =>
    obtain ⟨outcome, hfa⟩ := hf a mem
    exact ⟨outcome, hd.bind hfa⟩
  | error e => exact ⟨_, hd.bind_error f⟩

theorem read (device address : UInt8) (count : Nat) :
    Still (Attempt.transact (.read device address count)) := by
  intro mem
  by_cases h : mem.attached.contains device
  · exact ⟨_, Shows.read h address count⟩
  · exact ⟨_, Shows.detached (r := .read device address count) h⟩

theorem result_eq {d : Attempt α} (h : Still d) (mem : Memory) (recent : List Request) :
    (d.run.run bus { mem with recent }).result = (d.run.run bus mem).result := by
  obtain ⟨outcome, hshows⟩ := h mem
  rw [(hshows recent).1, hshows.result]

theorem state_eq {d : Attempt α} (h : Still d) (mem : Memory) :
    ∃ later, (d.run.run bus mem).state = { mem with recent := later } := by
  obtain ⟨outcome, hshows⟩ := h mem
  exact hshows.state

end Still

end Memory

/-- Bytes that are cut or filled up are the bytes as far as they go, and then zeros. -/
theorem getElem?_padTo {count i : Nat} (bytes : List UInt8) (hi : i < count) :
    (padTo count bytes)[i]? = some (bytes.getD i 0) := by
  unfold padTo
  by_cases h : i < bytes.length
  · have hlt : i < (bytes.take count).length := by simp; omega
    rw [List.getElem?_append_left hlt]
    simp [hi, h]
  · have hle : (bytes.take count).length ≤ i := by simp; omega
    rw [List.getElem?_append_right hle]
    have hrest : i - min count bytes.length < count - bytes.length := by omega
    have hdefault : bytes.length ≤ i := by omega
    simp [hrest, hdefault]

end SpoolTag
