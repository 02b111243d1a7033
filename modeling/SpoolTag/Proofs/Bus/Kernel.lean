import SpoolTag.Bus.Adapter
import SpoolTag.Proofs.Bus.Memory
import SpoolTag.Proofs.Bus.Registers

/-! # A kernel that keeps registers

Registers in memory and an adapter before a kernel that keeps registers are two buses for the same
devices. `Kernel.KeepsRegisters` is what is relied on of the kernel: what it makes of the transfers
of an adapter, and nothing about others.

The two answer a transaction in the same way and leave the same registers (`answer_eq`), provided
that 16 bits tell the lengths of its messages and that it is not a read of no bytes, which an adapter
does not carry out (`Request.Fits`). -/

namespace SpoolTag

/-! ### What is relied on of a kernel -/

/-- A kernel keeps registers for the devices behind it. A message that writes, alone in its transfer,
puts what follows the address into the register. After a message that writes an address, one that
reads is filled with what the register holds, cut or filled up with zeros. A message that reads one
byte, alone in its transfer, succeeds. All messages are refused with one of the codes for a missing
acknowledgment when nobody is at their device. -/
structure Kernel.KeepsRegisters {κ : Type} (kernel : Kernel κ) where
  registers : κ → Registers
  alter : Alteration → κ → κ
  registers_alter (a : Alteration) (k : κ) : registers (alter a k) = (registers k).alter a
  stores {m : Message} {k : κ} {register : UInt8} {bytes : List UInt8} :
    (registers k).attached m.device = true → m.reading = false → m.sent = register :: bytes →
      ∃ replies later, kernel.transfer [m] k = (.ok replies, later) ∧
        registers later = (registers k).set m.device register bytes
  fills (address : Message) {m : Message} {k : κ} {register : UInt8} :
    (registers k).attached m.device = true → address.device = m.device →
      address.reading = false → address.sent = [register] → m.reading = true →
        ∃ first later, kernel.transfer [address, m] k =
            (.ok [first, padTo m.length.toNat (((registers k).get? m.device register).getD [])],
              later) ∧
          registers later = registers k
  answers {m : Message} {k : κ} :
    (registers k).attached m.device = true → m.reading = true → m.length = 1 →
      ∃ replies later, kernel.transfer [m] k = (.ok replies, later) ∧
        registers later = registers k
  refuses {messages : List Message} {k : κ} {device : UInt8} :
    (registers k).attached device = false → messages ≠ [] →
      (∀ m ∈ messages, m.device = device) →
        ∃ code later, kernel.transfer messages k = (.error code, later) ∧
          code ∈ SystemError.notAcknowledged ∧ registers later = registers k

/-! ### What an adapter carries -/

/-- The transaction is a transfer of messages whose lengths 16 bits can tell. -/
def Request.Fits : Request → Prop
  | .probe _ => True
  | .read _ _ count => 0 < count ∧ count < UInt16.size
  | .write _ _ bytes => bytes.length + 1 < UInt16.size

theorem Message.toNat_length_of {device : UInt8} {reading : Bool} {buffer : List UInt8}
    (h : buffer.length < UInt16.size) :
    (Message.of device reading buffer).length.toNat = buffer.length :=
  UInt16.toNat_ofNat_of_lt h

theorem Message.sent_of {device : UInt8} {reading : Bool} {buffer : List UInt8}
    (h : buffer.length < UInt16.size) : (Message.of device reading buffer).sent = buffer := by
  unfold sent
  rw [toNat_length_of h]
  exact List.take_length

namespace Kernel.KeepsRegisters

variable {κ : Type} {kernel : Kernel κ} (keeps : kernel.KeepsRegisters) {k : κ} {mem : Memory}

include keeps in
theorem exchange_of_refused (messages : List Message) {device : UInt8}
    (h : (keeps.registers k).attached device = false) (hne : messages ≠ [])
    (hdevice : ∀ m ∈ messages, m.device = device) :
    ∃ later, kernel.exchange device messages k = (.error (.noAcknowledge device), later) ∧
      keeps.registers later = keeps.registers k := by
  obtain ⟨code, later, htransfer, hcode, hsame⟩ := keeps.refuses h hne hdevice
  refine ⟨later, ?_, hsame⟩
  unfold exchange
  rw [htransfer]
  dsimp only
  rw [failure, if_pos hcode]

theorem exchange_of_ok {messages : List Message} {device : UInt8} {replies : List (List UInt8)}
    {later : κ} (h : kernel.transfer messages k = (.ok replies, later)) :
    kernel.exchange device messages k =
      (.ok ((messages.zip replies).map fun (m, b) => m.filled b), later) := by
  unfold exchange
  rw [h]

/-- A buffer that is filled with as many bytes as it has. -/
theorem filled_padTo {device : UInt8} {count : Nat} (h : count < UInt16.size)
    (bytes : List UInt8) :
    (Message.of device true (List.replicate count 0)).filled (padTo count bytes) =
      padTo count bytes := by
  have hlength : (Message.of device true (List.replicate count 0)).length.toNat = count := by
    rw [Message.toNat_length_of (by rwa [List.length_replicate]), List.length_replicate]
  unfold Message.filled
  rw [hlength, padTo_of_length (length_padTo count bytes)]
  change (if true then _ ++ (List.replicate count 0).drop count else _) = _
  rw [if_pos rfl, List.drop_of_length_le (Nat.le_of_eq List.length_replicate), List.append_nil]

/-! ### What an adapter answers -/

section Attached

variable (device : UInt8) (h : (keeps.registers k).attached device = true)

include keeps h

theorem answer_probe : ∃ later, kernel.bus.answer (.probe device) k = ⟨.ok [], [], later⟩ ∧
    keeps.registers later = keeps.registers k := by
  obtain ⟨replies, later, htransfer, hsame⟩ := keeps.answers (m := .of device true [0]) h rfl rfl
  refine ⟨later, ?_, hsame⟩
  change kernel.answer (.probe device) k = _
  unfold answer
  dsimp only
  rw [exchange_of_ok htransfer]

theorem answer_read (register : UInt8) {count : Nat} (hpos : 0 < count)
    (hsize : count < UInt16.size) :
    ∃ later, kernel.bus.answer (.read device register count) k =
        ⟨.ok (padTo count (((keeps.registers k).get? device register).getD [])),
          [.adapterRead device register count], later⟩ ∧
      keeps.registers later = keeps.registers k := by
  have haddress : (Message.of device false [register]).sent = [register] :=
    Message.sent_of (show 1 < 65536 by decide)
  obtain ⟨first, later, htransfer, hsame⟩ := keeps.fills (.of device false [register])
    (m := .of device true (List.replicate count 0)) h rfl rfl haddress rfl
  have hcount : (Message.of device true (List.replicate count 0)).length.toNat = count := by
    rw [Message.toNat_length_of (by rwa [List.length_replicate]), List.length_replicate]
  rw [hcount] at htransfer
  refine ⟨later, ?_, hsame⟩
  change kernel.answer (.read device register count) k = _
  unfold answer
  dsimp only
  rw [if_neg (Nat.ne_of_gt hpos), exchange_of_ok htransfer]
  exact congrArg (fun bytes => Answer.mk (.ok bytes) [.adapterRead device register count] later)
    (filled_padTo hsize _)

theorem answer_write (register : UInt8) {bytes : List UInt8}
    (hsize : bytes.length + 1 < UInt16.size) :
    ∃ later, kernel.bus.answer (.write device register bytes) k =
        ⟨.ok [], [.adapterWrite device register bytes.length], later⟩ ∧
      keeps.registers later = (keeps.registers k).set device register bytes := by
  obtain ⟨replies, later, htransfer, hset⟩ :=
    keeps.stores (m := .of device false (register :: bytes)) h rfl (Message.sent_of hsize)
  refine ⟨later, ?_, hset⟩
  change kernel.answer (.write device register bytes) k = _
  unfold answer
  dsimp only
  rw [exchange_of_ok htransfer]

end Attached

include keeps in
/-- Nobody acknowledges a transaction with a device that is not there. -/
theorem answer_of_absent {r : Request} (hr : r.Fits)
    (h : (keeps.registers k).attached r.device = false) :
    ∃ later, kernel.bus.answer r k = ⟨.error (.noAcknowledge r.device), [], later⟩ ∧
      keeps.registers later = keeps.registers k := by
  cases r with
  | probe device =>
    obtain ⟨later, hexchange, hsame⟩ := keeps.exchange_of_refused [.of device true [0]] h
      (by simp) (by simp [Message.of, Request.device])
    refine ⟨later, ?_, hsame⟩
    change kernel.answer (.probe device) k = _
    unfold answer
    dsimp only [Request.device] at hexchange ⊢
    rw [hexchange]
  | read device register count =>
    obtain ⟨later, hexchange, hsame⟩ := keeps.exchange_of_refused
      [.of device false [register], .of device true (List.replicate count 0)] h
      (by simp) (by simp [Message.of, Request.device])
    refine ⟨later, ?_, hsame⟩
    change kernel.answer (.read device register count) k = _
    unfold answer
    dsimp only [Request.device] at hexchange ⊢
    rw [if_neg (Nat.ne_of_gt hr.1), hexchange]
  | write device register bytes =>
    obtain ⟨later, hexchange, hsame⟩ := keeps.exchange_of_refused
      [.of device false (register :: bytes)] h (by simp) (by simp [Message.of, Request.device])
    refine ⟨later, ?_, hsame⟩
    change kernel.answer (.write device register bytes) k = _
    unfold answer
    dsimp only [Request.device] at hexchange ⊢
    rw [hexchange]

/-- **An adapter answers like registers in memory**, and leaves the same registers. -/
theorem answer_eq {r : Request} (hr : r.Fits) (h : keeps.registers k = mem.registers) :
    (kernel.bus.answer r k).reply = (Memory.bus.answer r mem).reply ∧
      keeps.registers (kernel.bus.answer r k).state =
        (Memory.bus.answer r mem).state.registers := by
  have hpresence : (keeps.registers k).attached r.device = mem.attached.contains r.device := by
    rw [h]
    rfl
  by_cases hattached : mem.attached.contains r.device
  · rw [hattached] at hpresence
    rw [Memory.answer_of_attached hattached]
    cases r with
    | probe device =>
      obtain ⟨later, hanswer, hsame⟩ := keeps.answer_probe device hpresence
      rw [hanswer]
      exact ⟨rfl, hsame.trans h⟩
    | read device register count =>
      obtain ⟨later, hanswer, hsame⟩ := keeps.answer_read device hpresence register hr.1 hr.2
      rw [hanswer, h]
      exact ⟨rfl, hsame.trans h⟩
    | write device register bytes =>
      obtain ⟨later, hanswer, hset⟩ := keeps.answer_write device hpresence register hr
      rw [hanswer]
      refine ⟨rfl, hset.trans ?_⟩
      rw [h, ← Memory.registers_set]
      rfl
  · rw [Bool.eq_false_iff.2 hattached] at hpresence
    rw [Memory.answer_of_detached hattached]
    obtain ⟨later, hanswer, hsame⟩ := keeps.answer_of_absent hr hpresence
    rw [hanswer]
    exact ⟨rfl, hsame.trans h⟩

end Kernel.KeepsRegisters

/-! ### Registers as a kernel -/

namespace Registers

/-- Carries out a transfer of one message, or of an address and a message that reads; nothing else
is supported. Who is missing is told in one of two ways. -/
def transfer (messages : List Message) (v : Registers) :
    Except Nat (List (List UInt8)) × Registers :=
  match messages.find? fun m => ¬ v.attached m.device with
  | some m => (.error (if m.reading then 6 else 121), v)
  | none =>
    match messages with
    | [m] =>
      if m.reading then (.ok [padTo m.length.toNat []], v)
      else
        match m.sent with
        | [] => (.ok [[]], v)
        | register :: bytes => (.ok [[]], v.set m.device register bytes)
    | [address, m] =>
      match address.sent with
      | [register] =>
        (.ok [[], padTo m.length.toNat ((v.get? m.device register).getD [])], v)
      | _ => (.error 95, v)
    | _ => (.error 95, v)

def kernel : Kernel Registers := ⟨transfer⟩

theorem transfer_of_attached {messages : List Message} {v : Registers}
    (h : ∀ m ∈ messages, v.attached m.device = true) :
    messages.find? (fun m => ¬ v.attached m.device) = none := by
  rw [List.find?_eq_none]
  intro m hm
  simp [h m hm]

def keepsRegisters : kernel.KeepsRegisters where
  registers v := v
  alter a v := v.alter a
  registers_alter _ _ := rfl
  stores {m v register bytes} hm hwriting hsent := by
    refine ⟨[[]], v.set m.device register bytes, ?_, rfl⟩
    change transfer [m] v = _
    unfold transfer
    rw [transfer_of_attached (by simpa using hm)]
    dsimp only
    rw [if_neg (by rw [hwriting]; decide), hsent]
  fills address {m v register} hm hdevice _ hsent _ := by
    refine ⟨[], v, ?_, rfl⟩
    change transfer [address, m] v = _
    unfold transfer
    rw [transfer_of_attached (by simpa [hdevice] using hm)]
    dsimp only
    rw [hsent]
  answers {m v} hm hreading _ := by
    refine ⟨[padTo m.length.toNat []], v, ?_, rfl⟩
    change transfer [m] v = _
    unfold transfer
    rw [transfer_of_attached (by simpa using hm)]
    dsimp only
    rw [if_pos hreading]
  refuses {messages v device} hdevice hne hall := by
    obtain ⟨m, rest, rfl⟩ := List.exists_cons_of_ne_nil hne
    have hfind : (m :: rest).find? (fun m => ¬ v.attached m.device) = some m := by
      have hm : v.attached m.device = false := by
        rw [hall m List.mem_cons_self]
        exact hdevice
      rw [List.find?_cons_of_pos (by simpa using hm)]
    refine ⟨if m.reading then 6 else 121, v, ?_, ?_, rfl⟩
    · change transfer (m :: rest) v = _
      unfold transfer
      rw [hfind]
    · split <;> decide

end Registers

end SpoolTag
