import Mathlib.Data.List.Forall2
import Mathlib.Data.List.TakeDrop
import SpoolTag.Proofs.Bus.Kernel

/-! # The lengths of messages

A message tells the length of its buffer in 16 bits and no more bytes than that take part in the
transfer. Of a buffer that is too long for it a message tells the remainder, and the transfer still
succeeds: the end of what was to be written never gets to the bus, and the end of what was to be read
is the zeros with which the buffer was made (`Kernel.whole_buffers_exactly`,
`Kernel.lost_beyond_length`).

A bus does not show the transfers that its transactions take. `Kernel.recorded` keeps them in the
state of the kernel, which no adapter can see. -/

namespace SpoolTag

/-! ### Messages -/

namespace Message

/-- The length of the message is that of its buffer. -/
def Whole (m : Message) : Prop := m.length.toNat = m.buffer.length

variable (device : UInt8) (reading : Bool) (buffer : List UInt8)

theorem toNat_length_eq_mod :
    (of device reading buffer).length.toNat = buffer.length % UInt16.size :=
  UInt16.toNat_ofNat'

theorem whole_of_iff : (of device reading buffer).Whole ↔ buffer.length < UInt16.size := by
  have hpos : 0 < UInt16.size := by decide
  unfold Whole
  rw [toNat_length_eq_mod]
  constructor
  · intro h
    exact h ▸ Nat.mod_lt _ hpos
  · exact Nat.mod_eq_of_lt

theorem sent_eq_take :
    (of device reading buffer).sent = buffer.take (buffer.length % UInt16.size) := by
  unfold sent
  rw [toNat_length_eq_mod]
  rfl

/-- A buffer of zeros that gets as many bytes as its message tells keeps its other zeros. -/
theorem filled_zeros (count : Nat) {bytes : List UInt8} (h : bytes.length = count % UInt16.size) :
    (of device true (List.replicate count 0)).filled bytes =
      bytes ++ List.replicate (count - count % UInt16.size) 0 := by
  have hlength : (of device true (List.replicate count 0)).length.toNat = bytes.length := by
    rw [toNat_length_eq_mod, List.length_replicate, h]
  unfold filled
  rw [hlength, padTo_of_length rfl, h]
  change (if true then bytes ++ (List.replicate count 0).drop _ else _) = _
  rw [if_pos rfl, List.drop_replicate]

end Message

/-! ### Transfers -/

/-- The messages of a transfer, and what the kernel made of them. -/
structure Transfer where
  messages : List Message
  outcome : Except Nat (List (List UInt8))

namespace Transfer

/-- Every message tells the length of its buffer. -/
def Whole (t : Transfer) : Prop := ∀ m ∈ t.messages, m.Whole

/-- The bytes that the messages put on the bus. -/
def written (t : Transfer) : List UInt8 :=
  t.messages.flatMap fun m => if m.reading then [] else m.sent

/-- The bytes that the kernel gave for the messages that read. -/
def delivered (t : Transfer) : List UInt8 :=
  (t.messages.zip (t.outcome.toOption.getD [])).flatMap fun (m, bytes) =>
    if m.reading then bytes else []

theorem whole_read (device register : UInt8) (count : Nat)
    (outcome : Except Nat (List (List UInt8))) :
    (⟨[.of device false [register], .of device true (List.replicate count 0)], outcome⟩ :
        Transfer).Whole ↔ count < UInt16.size := by
  have haddress : (Message.of device false [register]).Whole :=
    (Message.whole_of_iff device false [register]).2 (show 1 < 65536 by decide)
  unfold Whole
  rw [List.forall_mem_cons, List.forall_mem_singleton, Message.whole_of_iff device true,
    List.length_replicate]
  exact and_iff_right haddress

theorem whole_write (device register : UInt8) (bytes : List UInt8)
    (outcome : Except Nat (List (List UInt8))) :
    (⟨[.of device false (register :: bytes)], outcome⟩ : Transfer).Whole ↔
      bytes.length + 1 < UInt16.size := by
  unfold Whole
  rw [List.forall_mem_singleton, Message.whole_of_iff, List.length_cons]

end Transfer

/-- A length is its own remainder exactly if 16 bits can tell it. -/
theorem mod_size_eq_iff {n : Nat} : n % UInt16.size = n ↔ n < UInt16.size :=
  Nat.mod_eq_iff_lt (by decide)

namespace Kernel

variable {κ : Type} {kernel : Kernel κ}

/-- A kernel that carries out a transfer gives every message that reads as many bytes as its length
says. -/
def Delivers (kernel : Kernel κ) : Prop :=
  ∀ messages k replies later, kernel.transfer messages k = (.ok replies, later) →
    List.Forall₂ (fun (m : Message) bytes => m.reading = true → bytes.length = m.length.toNat)
      messages replies

/-- The kernel with all transfers so far. -/
def recorded (kernel : Kernel κ) : Kernel (κ × List Transfer) where
  transfer messages k :=
    let after := kernel.transfer messages k.1
    (after.1, (after.2, k.2 ++ [⟨messages, after.1⟩]))

/-- A read of some bytes is one transfer: it fails as this does, or gives the buffer that was
filled. -/
theorem answer_recorded_read (hkernel : kernel.Delivers) (k : κ) (device register : UInt8)
    {count : Nat} (hcount : count ≠ 0) :
    let address : Message := .of device false [register]
    let body : Message := .of device true (List.replicate count 0)
    let answer := kernel.recorded.bus.answer (.read device register count) (k, [])
    (∃ code, answer.state.2 = [⟨[address, body], .error code⟩] ∧
        answer.reply = .error (failure device code)) ∨
      ∃ first bytes, bytes.length = count % UInt16.size ∧
        answer.state.2 = [⟨[address, body], .ok [first, bytes]⟩] ∧
          answer.reply = .ok (bytes ++ List.replicate (count - count % UInt16.size) 0) := by
  intro address body answer
  have hanswer : answer = kernel.recorded.answer (.read device register count) (k, []) := rfl
  unfold Kernel.answer at hanswer
  dsimp only at hanswer
  rw [if_neg hcount] at hanswer
  unfold exchange recorded at hanswer
  dsimp only at hanswer
  rcases htransfer : kernel.transfer [address, body] k with ⟨outcome, later⟩
  rw [htransfer] at hanswer
  cases outcome with
  | error code =>
    rw [hanswer]
    exact .inl ⟨code, rfl, rfl⟩
  | ok replies =>
    obtain ⟨first, _, -, hrest, rfl⟩ :=
      List.forall₂_cons_left_iff.1 (hkernel _ _ _ _ htransfer)
    obtain ⟨bytes, _, hbody, hnone, rfl⟩ := List.forall₂_cons_left_iff.1 hrest
    obtain rfl := List.forall₂_nil_left_iff.1 hnone
    have hlength : bytes.length = count % UInt16.size := by
      rw [hbody rfl, Message.toNat_length_eq_mod, List.length_replicate]
    rw [hanswer]
    exact .inr ⟨first, bytes, hlength, rfl,
      congrArg Except.ok (Message.filled_zeros device count hlength)⟩

/-- A write is one transfer of one message, and it fails as the transfer does. -/
theorem answer_recorded_write (kernel : Kernel κ) (k : κ) (device register : UInt8)
    (bytes : List UInt8) :
    let answer := kernel.recorded.bus.answer (.write device register bytes) (k, [])
    ∃ outcome, answer.state.2 = [⟨[.of device false (register :: bytes)], outcome⟩] ∧
      answer.reply = match outcome with
        | .error code => .error (failure device code)
        | .ok _ => .ok [] := by
  intro answer
  have hanswer : answer = kernel.recorded.answer (.write device register bytes) (k, []) := rfl
  unfold Kernel.answer exchange recorded at hanswer
  dsimp only at hanswer
  rcases htransfer : kernel.transfer [.of device false (register :: bytes)] k with
    ⟨outcome, later⟩
  rw [htransfer] at hanswer
  refine ⟨outcome, ?_⟩
  cases outcome with
  | error code =>
    rw [hanswer]
    exact ⟨rfl, rfl⟩
  | ok replies =>
    rw [hanswer]
    exact ⟨rfl, rfl⟩

/-- What a write puts on the bus if its transfer is carried out. -/
theorem written_recorded_write (kernel : Kernel κ) (k : κ) (device register : UInt8)
    (bytes : List UInt8) :
    (kernel.recorded.bus.answer (.write device register bytes) (k, [])).state.2.flatMap
        Transfer.written =
      (register :: bytes).take ((bytes.length + 1) % UInt16.size) := by
  obtain ⟨outcome, hstate, -⟩ := answer_recorded_write kernel k device register bytes
  rw [hstate, List.flatMap_singleton]
  exact (List.append_nil _).trans (Message.sent_eq_take device false (register :: bytes))

/-- **Which buffers are transferred as a whole.** Every message of a read or a write tells the length
of its buffer exactly if 16 bits can; whatever they tell, the transaction succeeds if the kernel
carries out its transfer. A read that succeeds has the bytes that the kernel gave, as many as 16 bits
tell, and zeros in place of the others; a write that succeeds has put as many bytes on the bus as 16
bits tell. -/
theorem whole_buffers_exactly (hkernel : kernel.Delivers) (k : κ) (device register : UInt8) :
    (∀ count : Nat,
      let answer := kernel.recorded.bus.answer (.read device register count) (k, [])
      let delivered := answer.state.2.flatMap Transfer.delivered
      ((∀ t ∈ answer.state.2, t.Whole) ↔ count < UInt16.size) ∧
      (answer.reply.isOk = answer.state.2.all fun t => t.outcome.isOk) ∧
      ∀ bytes, answer.reply = .ok bytes → bytes.length = count ∧
        bytes = delivered ++ List.replicate (count - count % UInt16.size) 0 ∧
        (bytes = delivered ↔ count < UInt16.size)) ∧
    ∀ bytes : List UInt8,
      let answer := kernel.recorded.bus.answer (.write device register bytes) (k, [])
      let written := answer.state.2.flatMap Transfer.written
      ((∀ t ∈ answer.state.2, t.Whole) ↔ bytes.length + 1 < UInt16.size) ∧
      (answer.reply.isOk = answer.state.2.all fun t => t.outcome.isOk) ∧
      written = (register :: bytes).take ((bytes.length + 1) % UInt16.size) ∧
      (written = register :: bytes ↔ bytes.length + 1 < UInt16.size) := by
  have hpos : 0 < UInt16.size := by decide
  refine ⟨fun count => ?_, fun bytes => ?_⟩
  · intro answer delivered
    by_cases hcount : count = 0
    · -- nothing is asked of the kernel then, and so no message is wrong
      subst hcount
      refine ⟨⟨fun _ => hpos, fun _ t ht => nomatch ht⟩, rfl, ?_⟩
      rintro bytes ⟨⟩
      exact ⟨rfl, rfl, ⟨fun _ => hpos, fun _ => rfl⟩⟩
    · rcases answer_recorded_read hkernel k device register hcount with
        ⟨code, hstate, hreply⟩ | ⟨first, bytes, hlength, hstate, hreply⟩
      · refine ⟨?_, ?_, fun bytes hok => ?_⟩
        · rw [hstate, List.forall_mem_singleton, Transfer.whole_read]
        · rw [hstate, hreply]
          rfl
        · rw [hreply] at hok
          cases hok
      · have hdelivered : delivered = bytes := by
          change answer.state.2.flatMap Transfer.delivered = bytes
          rw [hstate, List.flatMap_singleton]
          exact List.append_nil bytes
        refine ⟨?_, ?_, fun found hok => ?_⟩
        · rw [hstate, List.forall_mem_singleton, Transfer.whole_read]
        · rw [hstate, hreply]
          rfl
        · rw [hreply] at hok
          obtain rfl := Except.ok.inj hok
          have hle : count % UInt16.size ≤ count := Nat.mod_le _ _
          rw [hdelivered, List.append_right_eq_self, List.replicate_eq_nil_iff, ← mod_size_eq_iff,
            List.length_append, List.length_replicate, hlength]
          exact ⟨by omega, rfl, by omega⟩
  · intro answer written
    obtain ⟨outcome, hstate, hreply⟩ := answer_recorded_write kernel k device register bytes
    have hwritten : written = _ := written_recorded_write kernel k device register bytes
    refine ⟨?_, ?_, hwritten, ?_⟩
    · rw [hstate, List.forall_mem_singleton, Transfer.whole_write]
    · rw [hstate, hreply]
      cases outcome <;> rfl
    · rw [hwritten, List.take_eq_self_iff, List.length_cons, ← mod_size_eq_iff]
      have hle : (bytes.length + 1) % UInt16.size ≤ bytes.length + 1 := Nat.mod_le _ _
      omega

/-- A kernel behind which nobody drives the bus, so that all bits that are read are set. -/
def released : Kernel Unit where
  transfer messages k :=
    (.ok (messages.map fun m =>
      if m.reading then List.replicate m.length.toNat 0xFF else []), k)

theorem delivers_released : released.Delivers := by
  intro messages k replies later h
  obtain rfl := Except.ok.inj (congrArg Prod.fst h)
  rw [List.forall₂_map_right_iff, List.forall₂_same]
  intro m _ hm
  rw [if_pos hm, List.length_replicate]

/-- Of a read of two bytes more than 16 bits can tell only these two are transferred, and of a write
of the longest data whose length they can tell nothing is, for the register takes a byte too. -/
theorem whole_buffers_exactly_released :
    let read := released.recorded.bus.answer (.read 0x42 0x04 65538) ((), [])
    let write :=
      released.recorded.bus.answer (.write 0x42 0x04 (List.replicate 65535 0xAA)) ((), [])
    released.Delivers ∧ read.reply.isOk = true ∧ write.reply.isOk = true ∧
      (∀ bytes, read.reply = .ok bytes → bytes.length = 65538 ∧
        bytes = read.state.2.flatMap Transfer.delivered ++ List.replicate 65536 0) ∧
      write.state.2.flatMap Transfer.written = [] ∧
      (¬ ∀ t ∈ read.state.2, t.Whole) ∧ ¬ ∀ t ∈ write.state.2, t.Whole := by
  intro read write
  obtain ⟨hread, hwrite⟩ := whole_buffers_exactly delivers_released () 0x42 0x04
  obtain ⟨hwhole, hok, hbytes⟩ := hread 65538
  obtain ⟨hwhole', hok', hwritten, -⟩ := hwrite (List.replicate 65535 0xAA)
  rw [List.length_replicate] at hwhole' hwritten
  refine ⟨delivers_released, hok.trans rfl, hok'.trans rfl, fun bytes h => ?_, hwritten.trans rfl,
    fun h => absurd (hwhole.1 h) (by decide), fun h => absurd (hwhole'.1 h) (by decide)⟩
  obtain ⟨hlength, hfilled, -⟩ := hbytes bytes h
  exact ⟨hlength, hfilled⟩

/-- A read of too many bytes that succeeds with a single one from the bus, and a write of too many
that succeeds without any byte on the bus. -/
theorem lost_beyond_length :
    let read := released.recorded.bus.answer (.read 0x42 0x04 65537) ((), [])
    let write :=
      released.recorded.bus.answer (.write 0x42 0x04 (List.replicate 65535 0xAA)) ((), [])
    (∃ bytes, read.reply = .ok bytes ∧ bytes.length = 65537 ∧
        (read.state.2.flatMap Transfer.delivered).length = 1 ∧
        ¬ ∀ t ∈ read.state.2, t.Whole) ∧
      write.reply = .ok [] ∧ write.state.2.flatMap Transfer.written = [] ∧
        ¬ ∀ t ∈ write.state.2, t.Whole := by
  intro read write
  refine ⟨?_, rfl, ?_, ?_⟩
  · have hcount : 65537 ≠ 0 := by decide
    rcases answer_recorded_read delivers_released () 0x42 0x04 hcount with
      ⟨code, hstate, -⟩ | ⟨first, bytes, hlength, hstate, hreply⟩
    · cases hstate
    · refine ⟨_, hreply, ?_, ?_, ?_⟩
      · rw [List.length_append, List.length_replicate, hlength]
        rfl
      · rw [hstate, List.flatMap_singleton]
        exact (congrArg List.length (List.append_nil bytes)).trans hlength
      · rw [hstate, List.forall_mem_singleton, Transfer.whole_read]
        decide
  · rw [written_recorded_write, List.length_replicate]
    rfl
  · obtain ⟨outcome, hstate, -⟩ :=
      answer_recorded_write released () 0x42 0x04 (List.replicate 65535 0xAA)
    rw [hstate, List.forall_mem_singleton, Transfer.whole_write, List.length_replicate]
    decide

end Kernel

end SpoolTag
