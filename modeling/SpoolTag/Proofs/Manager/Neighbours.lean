import SpoolTag.Proofs.Bus.Registers
import SpoolTag.Proofs.Manager.Uses

/-! # Devices side by side

Several clients share registers in memory, each using a driver for a device of its own. A client
takes its steps one by one, none of them larger than a transaction, so the uses of different clients
may be interleaved in any way, with alterations of the devices in between.

A step of a client is not seen of other devices (`Client.view_step_of_ne`), and what is seen of its
own device decides what the step comes to and what is seen of the device afterwards
(`Client.step_eq`). So nothing that is done to one device matters for the others: if all of it is
left out, the clients of the others get the same results, and their registers hold the same
(`Commons.undisturbed`). -/

namespace SpoolTag

open Driver

/-! ### Clients -/

/-- A client that uses a driver: the dialogs it has still to go through, the current one first, and
what its uses of the driver came to so far. -/
structure Client where
  work : List (Dialog Upshot)
  upshots : List Upshot := []

namespace Client

/-- A client that is about to use a driver for one thing after the other, all with one device. -/
def about {device : UInt8} (uses : List { u : Use // u.device = device }) : Client where
  work := uses.map fun u => Upshot.mk u.1 <$> u.1.attempt.run

/-- The next step of a client: a transaction, a report, or the end of a use. -/
def step (c : Client) (mem : Memory) : Client × Memory :=
  match c.work with
  | [] => (c, mem)
  | .done upshot :: rest => (⟨rest, c.upshots ++ [upshot]⟩, mem)
  | .note _ next :: rest => (⟨next :: rest, c.upshots⟩, mem)
  | .ask r next :: rest =>
    let answer := Memory.bus.answer r mem
    (⟨next answer.reply :: rest, c.upshots⟩, answer.state)

/-- All that is left for the client to do concerns the device. -/
def Concerns (device : UInt8) (c : Client) : Prop :=
  ∀ d ∈ c.work, d.Asks fun r => r.device = device

variable {device : UInt8} {c : Client} {mem other : Memory}

theorem concerns_about (uses : List { u : Use // u.device = device }) :
    (about uses).Concerns device := by
  intro d hd
  obtain ⟨⟨u, hu⟩, -, rfl⟩ := List.mem_map.1 hd
  have hasks : u.attempt.run.Asks fun r => r.device = device :=
    u.failsFast.asks fun r hr => hr.1.trans hu
  exact hasks.map _

theorem Concerns.step (h : c.Concerns device) : (c.step mem).1.Concerns device := by
  obtain ⟨work, upshots⟩ := c
  cases work with
  | nil => exact h
  | cons d rest =>
    obtain ⟨hd, hrest⟩ := List.forall_mem_cons.1 h
    cases d with
    | done upshot => exact hrest
    | note notice next => exact List.forall_mem_cons.2 ⟨hd, hrest⟩
    | ask r next => exact List.forall_mem_cons.2 ⟨hd.2 _, hrest⟩

/-- **A step of a client is not seen of other devices.** -/
theorem view_step_of_ne (h : c.Concerns device) {d : UInt8} (hd : d ≠ device) :
    (c.step mem).2.registers.view d = mem.registers.view d := by
  obtain ⟨work, upshots⟩ := c
  rcases work with _ | ⟨upshot | ⟨notice, next⟩ | ⟨r, next⟩, rest⟩
  · rfl
  · rfl
  · rfl
  · have hr : r.device = device := (h _ List.mem_cons_self).1
    change (Memory.bus.answer r mem).state.registers.view d = _
    rw [(Memory.answer_eq r mem).2, Registers.view_after_of_ne (hr ▸ Ne.symm hd)]

/-- **What is seen of its device decides a step of a client**, and what is seen of the device
afterwards. -/
theorem step_eq (h : c.Concerns device)
    (hview : mem.registers.view device = other.registers.view device) :
    (c.step mem).1 = (c.step other).1 ∧
      (c.step mem).2.registers.view device = (c.step other).2.registers.view device := by
  obtain ⟨work, upshots⟩ := c
  rcases work with _ | ⟨upshot | ⟨notice, next⟩ | ⟨r, next⟩, rest⟩
  · exact ⟨rfl, hview⟩
  · exact ⟨rfl, hview⟩
  · exact ⟨rfl, hview⟩
  · obtain rfl : r.device = device := (h _ List.mem_cons_self).1
    obtain ⟨hreply, hstate⟩ := Memory.answer_eq r mem
    obtain ⟨hreply', hstate'⟩ := Memory.answer_eq r other
    have hsame : (Memory.bus.answer r mem).reply = (Memory.bus.answer r other).reply := by
      rw [hreply, hreply', Registers.reply_eq hview]
    constructor
    · change Client.mk (next (Memory.bus.answer r mem).reply :: rest) upshots =
        Client.mk (next (Memory.bus.answer r other).reply :: rest) upshots
      rw [hsame]
    · change (Memory.bus.answer r mem).state.registers.view r.device =
        (Memory.bus.answer r other).state.registers.view r.device
      rw [hstate, hstate', Registers.view_after hview]

end Client

/-! ### Clients on one bus -/

/-- Registers in memory, and the clients that share them. -/
structure Commons (ι : Type) where
  memory : Memory
  client : ι → Client

/-- What may happen next. -/
inductive Commons.Move (ι : Type) where
  | go (i : ι)
  | alter (a : Alteration)

namespace Commons

variable {ι : Type}

/-- The device to which a move is addressed, where the clients have these devices. -/
def Move.device (device : ι → UInt8) : Move ι → UInt8
  | .go i => device i
  | .alter a => a.device

/-- What is left of moves without those that are addressed to a device. -/
def without (gone : UInt8) (device : ι → UInt8) (moves : List (Move ι)) : List (Move ι) :=
  moves.filter fun move => move.device device != gone

variable [DecidableEq ι]

def turn (s : Commons ι) : Move ι → Commons ι
  | .go i =>
    let after := (s.client i).step s.memory
    ⟨after.2, Function.update s.client i after.1⟩
  | .alter a => { s with memory := s.memory.alter a }

def play (s : Commons ι) (moves : List (Move ι)) : Commons ι := moves.foldl turn s

/-- The same can be seen of all devices but one, and their clients are where they are. -/
structure Alike (gone : UInt8) (device : ι → UInt8) (s t : Commons ι) : Prop where
  client : ∀ i, device i ≠ gone → s.client i = t.client i
  view : ∀ d, d ≠ gone → s.memory.registers.view d = t.memory.registers.view d

variable {gone : UInt8} {device : ι → UInt8} {s t : Commons ι}

theorem concerns_turn (h : ∀ i, (s.client i).Concerns (device i)) (move : Move ι) :
    ∀ i, ((s.turn move).client i).Concerns (device i) := by
  cases move with
  | go k =>
    intro i
    by_cases hi : i = k
    · subst hi
      simpa [turn] using (h i).step
    · simpa [turn, hi] using h i
  | alter a => exact h

/-- A move that is addressed to the device is not seen of the others. -/
theorem Alike.turn_left (h : Alike gone device s t) (hs : ∀ i, (s.client i).Concerns (device i))
    {move : Move ι} (hmove : move.device device = gone) : Alike gone device (s.turn move) t := by
  cases move with
  | go k =>
    have hk : device k = gone := hmove
    refine ⟨fun i hi => ?_, fun d hd => ?_⟩
    · have hne : i ≠ k := fun heq => hi (heq ▸ hk)
      rw [← h.client i hi]
      simp [turn, hne]
    · rw [← h.view d hd]
      exact Client.view_step_of_ne (hs k) (hk ▸ hd)
  | alter a =>
    have ha : a.device = gone := hmove
    refine ⟨h.client, fun d hd => ?_⟩
    rw [← h.view d hd]
    change (s.memory.alter a).registers.view d = _
    rw [Memory.registers_alter, Registers.view_alter_of_ne (ha ▸ Ne.symm hd)]

/-- Any other move is seen in the same way. -/
theorem Alike.turn (h : Alike gone device s t) (hs : ∀ i, (s.client i).Concerns (device i))
    {move : Move ι} (hmove : move.device device ≠ gone) :
    Alike gone device (s.turn move) (t.turn move) := by
  cases move with
  | go k =>
    have hk : device k ≠ gone := hmove
    obtain ⟨hclient, hview⟩ := Client.step_eq (hs k) (h.view _ hk)
    have ht : (t.client k).Concerns (device k) := h.client k hk ▸ hs k
    rw [h.client k hk] at hclient
    refine ⟨fun i hi => ?_, fun d hd => ?_⟩
    · by_cases hik : i = k
      · subst hik
        simpa [Commons.turn, h.client i hi] using hclient
      · simpa [Commons.turn, hik] using h.client i hi
    · by_cases hdk : d = device k
      · subst hdk
        rw [h.client k hk] at hview
        simpa [Commons.turn, h.client k hk] using hview
      · have hleft : (s.turn (.go k)).memory.registers.view d = s.memory.registers.view d :=
          Client.view_step_of_ne (hs k) hdk
        have hright : (t.turn (.go k)).memory.registers.view d = t.memory.registers.view d :=
          Client.view_step_of_ne ht hdk
        rw [hleft, hright, h.view d hd]
  | alter a =>
    refine ⟨h.client, fun d hd => ?_⟩
    change (s.memory.alter a).registers.view d = (t.memory.alter a).registers.view d
    rw [Memory.registers_alter, Memory.registers_alter, Registers.view_alter a (h.view d hd)]

theorem Alike.play (h : Alike gone device s t) (hs : ∀ i, (s.client i).Concerns (device i))
    (moves : List (Move ι)) :
    Alike gone device (s.play moves) (t.play (without gone device moves)) := by
  induction moves generalizing s t with
  | nil => exact h
  | cons move rest ih =>
    by_cases hmove : move.device device = gone
    · have hkept : without gone device (move :: rest) = without gone device rest := by
        simp [without, hmove]
      rw [hkept]
      exact ih (h.turn_left hs hmove) (concerns_turn hs move)
    · have hkept : without gone device (move :: rest) = move :: without gone device rest := by
        simp [without, hmove]
      rw [hkept]
      exact ih (h.turn hs hmove) (concerns_turn hs move)

/-- **Nothing that is done to one device matters for the others**: without the steps of its clients
and without its alterations, the clients of other devices come to the same results, and the other
devices acknowledge and hold the same. -/
theorem undisturbed (mem : Memory) (device : ι → UInt8)
    (uses : ∀ i, List { u : Use // u.device = device i }) (moves : List (Move ι)) (gone : UInt8) :
    let start : Commons ι := ⟨mem, fun i => .about (uses i)⟩
    let whole := start.play moves
    let apart := start.play (without gone device moves)
    (∀ i, device i ≠ gone → (whole.client i).upshots = (apart.client i).upshots) ∧
      ∀ d, d ≠ gone → whole.memory.attached.contains d = apart.memory.attached.contains d ∧
        ∀ register, whole.memory.get? d register = apart.memory.get? d register := by
  intro start whole apart
  have hstart : ∀ i, (start.client i).Concerns (device i) := fun i => Client.concerns_about (uses i)
  have halike : Alike gone device whole apart :=
    Alike.play ⟨fun _ _ => rfl, fun _ _ => rfl⟩ hstart moves
  refine ⟨fun i hi => congrArg Client.upshots (halike.client i hi), fun d hd => ?_⟩
  obtain ⟨hattached, hget⟩ := Prod.mk.inj (halike.view d hd)
  exact ⟨hattached, fun register => congrFun hget register⟩

end Commons

end SpoolTag
