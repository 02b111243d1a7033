import SpoolTag.Bus.Faulty
import SpoolTag.Bus.Memory
import SpoolTag.Proofs.Daemon.Answering
import SpoolTag.Proofs.Manager.Flags

/-! # What a watcher remembers

A poll reads the status, and if that is not the one that the watcher remembers it looks at the device,
which reads the status again. Whatever happens between any two transactions, the watcher remembers
nothing or the status of the latest change it sent, and a poll sends a change exactly if it finds
another status and its look works (`Vigil.remembers_what_it_sent`).

So a status that stays as it is gets into a change with the next poll, unless it has a record and this
cannot be read: then every poll fails, although the bus carries out all transactions
(`Vigil.forgets_unreadable`). -/

namespace SpoolTag

variable {σ : Type}

/-- A watcher in its world, in which the bus keeps all transactions, with the changes that it sent,
the latest first. -/
structure Vigil (σ : Type) where
  world : World (σ × List (Request × Reply))
  watcher : Watcher := {}
  sent : List Change := []

namespace Vigil

/-- One of the things that happen in turn: others change the world, the watcher polls, or it makes a
round and forgets what it remembered if its poll fails. -/
inductive Turn (σ : Type) where
  | change (f : World (σ × List (Request × Reply)) → World (σ × List (Request × Reply)))
  | poll (time : String)
  | tick (time : String)

variable (bus : Bus σ) (m : Manager)

def daemon : Daemon (σ × List (Request × Reply)) := ⟨bus.recorded, m⟩

def polled (time : String) (s : Vigil σ) : Except TagError (Option Change) :=
  (s.watcher.poll (daemon bus m) time s.world).1.1

/-- The changes sent so far and in a poll that ended like this. -/
def sentAfter (s : Vigil σ) : Except TagError (Option Change) → List Change
  | .ok (some change) => change :: s.sent
  | _ => s.sent

def poll (time : String) (s : Vigil σ) : Vigil σ :=
  let after := s.watcher.poll (daemon bus m) time s.world
  { world := after.2, watcher := after.1.2, sent := s.sentAfter after.1.1 }

def tick (time : String) (s : Vigil σ) : Vigil σ :=
  let after := s.watcher.tick (daemon bus m) time s.world
  { world := after.2, watcher := after.1, sent := s.sentAfter (s.polled bus m time) }

def turn (s : Vigil σ) : Turn σ → Vigil σ
  | .change f => { s with world := f s.world }
  | .poll time => s.poll bus m time
  | .tick time => s.tick bus m time

/-- What turns make of the watcher, one after the other. -/
def play (s : Vigil σ) (turns : List (Turn σ)) : Vigil σ := turns.foldl (turn bus m) s

/-! ### The invariant -/

/-- The watcher remembers nothing or the status of the latest change it sent. -/
def Sound (s : Vigil σ) : Prop :=
  s.watcher.last = none ∨ s.watcher.last = s.sent.head?.map Change.status

/-- What a poll leaves, when it ended like this: a change that it sent is the latest one, and its
status is remembered. -/
def Leaves (s after : Vigil σ) : Except TagError (Option Change) → Prop
  | .ok (some change) => after.watcher.last = some change.status ∧ after.sent = change :: s.sent ∧
      after.world.channel = s.world.channel.send change
  | _ => after.watcher = s.watcher ∧ after.sent = s.sent ∧
      after.world.channel = s.world.channel

variable {bus m} {s : Vigil σ} {time : String}

/-- **What a poll comes to**: its first reading of the status fails, or gives what the watcher
remembers, or something else, and then a look decides. -/
theorem polled_cases (bus : Bus σ) (m : Manager) (time : String) (s : Vigil σ) :
    let first := m.readStatus.run.run bus.recorded s.world.bus
    let look := m.look.run.run bus.recorded first.state
    (∃ e, first.result = .error e ∧ s.polled bus m time = .error e) ∨
    (∃ status, first.result = .ok status ∧ s.watcher.last = some status ∧
      s.polled bus m time = .ok none ∧ (s.poll bus m time).world.bus = first.state) ∨
    ∃ status, first.result = .ok status ∧ s.watcher.last ≠ some status ∧
      ((∃ e, look.result = .error e ∧ s.polled bus m time = .error e) ∨
      ∃ seen, look.result = .ok seen ∧ s.polled bus m time = .ok (some ⟨seen, time⟩)) := by
  intro first look
  rcases s.watcher.poll_cases (daemon bus m) time s.world with
    ⟨e, hfirst, hafter, -⟩ | ⟨status, hfirst, hlast, hafter, hbus, -⟩ |
      ⟨status, hfirst, hlast, -, ⟨e, hlook, hafter, -⟩ | ⟨seen, hlook, hafter, -⟩⟩
  · exact .inl ⟨e, hfirst, congrArg Prod.fst hafter⟩
  · exact .inr (.inl ⟨status, hfirst, hlast, congrArg Prod.fst hafter, hbus⟩)
  · exact .inr (.inr ⟨status, hfirst, hlast, .inl ⟨e, hlook, congrArg Prod.fst hafter⟩⟩)
  · exact .inr (.inr ⟨status, hfirst, hlast, .inr ⟨seen, hlook, congrArg Prod.fst hafter⟩⟩)

theorem leaves_poll (bus : Bus σ) (m : Manager) (time : String) (s : Vigil σ) :
    s.Leaves (s.poll bus m time) (s.polled bus m time) := by
  have hsent : (s.poll bus m time).sent = s.sentAfter (s.polled bus m time) := rfl
  rcases s.watcher.poll_cases (daemon bus m) time s.world with
    ⟨e, -, hafter, -, hchannel⟩ | ⟨status, -, -, hafter, -, hchannel⟩ |
      ⟨status, -, -, -, ⟨e, -, hafter, hchannel⟩ | ⟨seen, -, hafter, hchannel⟩⟩
  all_goals
    have houtcome : s.polled bus m time = _ := congrArg Prod.fst hafter
    have hwatcher : (s.poll bus m time).watcher = _ := congrArg Prod.snd hafter
    rw [houtcome] at hsent ⊢
  · exact ⟨hwatcher, hsent, hchannel⟩
  · exact ⟨hwatcher, hsent, hchannel⟩
  · exact ⟨hwatcher, hsent, hchannel⟩
  · exact ⟨congrArg Watcher.last hwatcher, hsent, hchannel⟩

theorem Sound.of_leaves {after : Vigil σ} {outcome : Except TagError (Option Change)}
    (h : s.Sound) (hleaves : s.Leaves after outcome) : after.Sound := by
  unfold Sound
  match outcome, hleaves with
  | .ok (some change), ⟨hlast, hsent, _⟩ =>
    rw [hlast, hsent]
    exact .inr rfl
  | .ok none, ⟨hwatcher, hsent, _⟩ | .error _, ⟨hwatcher, hsent, _⟩ =>
    rw [hwatcher, hsent]
    exact h

theorem Sound.poll (h : s.Sound) : (s.poll bus m time).Sound :=
  h.of_leaves (leaves_poll bus m time s)

/-- A round forgets what its poll remembers, or keeps it. -/
theorem Sound.tick (h : s.Sound) : (s.tick bus m time).Sound := by
  have htick := s.watcher.tick_eq (daemon bus m) time s.world
  have hwatcher : (s.tick bus m time).watcher =
      ((s.poll bus m time).watcher.after (s.polled bus m time)).2 := congrArg Prod.fst htick
  have hsent : (s.tick bus m time).sent = (s.poll bus m time).sent := rfl
  unfold Sound
  rw [hwatcher, hsent]
  cases s.polled bus m time with
  | error e => exact .inl rfl
  | ok found => exact h.poll

theorem Sound.play (h : s.Sound) (turns : List (Turn σ)) : (s.play bus m turns).Sound := by
  induction turns generalizing s with
  | nil => exact h
  | cons turn rest ih =>
    cases turn with
    | change f => exact ih (s := { s with world := f s.world }) h
    | poll time => exact ih h.poll
    | tick time => exact ih h.tick

/-! ### Polls -/

/-- A poll sends a change exactly if its first reading of the status gives another one than the
watcher remembers and there is something to find in a look then. -/
theorem polled_eq_some_iff {change : Change} :
    let first := m.readStatus.run.run bus.recorded s.world.bus
    s.polled bus m time = .ok (some change) ↔ change.time = time ∧
      (∃ status, first.result = .ok status ∧ s.watcher.last ≠ some status) ∧
        m.Finds bus.recorded first.state change.sighting := by
  intro first
  rw [← Manager.look_eq_ok_iff]
  rcases polled_cases bus m time s with ⟨e, hfirst, hpolled⟩ | ⟨status, hfirst, hlast, hpolled, -⟩ |
    ⟨status, hfirst, hlast, ⟨e, hlook, hpolled⟩ | ⟨seen, hlook, hpolled⟩⟩
  all_goals rw [hpolled]
  · refine iff_of_false nofun ?_
    rintro ⟨-, ⟨status, hok, -⟩, -⟩
    cases hfirst.symm.trans hok
  · refine iff_of_false nofun ?_
    rintro ⟨-, ⟨other, hok, hne⟩, -⟩
    cases hfirst.symm.trans hok
    exact hne hlast
  · refine iff_of_false nofun ?_
    rintro ⟨-, -, hok⟩
    cases hlook.symm.trans hok
  · constructor
    · rintro ⟨⟩
      exact ⟨rfl, ⟨status, hfirst, hlast⟩, hlook⟩
    · rintro ⟨rfl, -, hok⟩
      cases hlook.symm.trans hok
      rfl

/-- A poll that finds what the watcher remembers has read the two flags and nothing else. -/
theorem flags_of_polled_none (h : s.polled bus m time = .ok none) :
    ∃ status flags, s.watcher.last = some status ∧
      (s.poll bus m time).world.bus.2 = s.world.bus.2 ++ flags ∧ m.ReadsFlags status flags := by
  rcases polled_cases bus m time s with ⟨e, -, hpolled⟩ | ⟨status, hfirst, hlast, -, hbus⟩ |
    ⟨status, -, -, ⟨e, -, hpolled⟩ | ⟨seen, -, hpolled⟩⟩
  · cases hpolled.symm.trans h
  · rw [Dialog.run_recorded] at hfirst hbus
    exact ⟨status, _, hlast, congrArg Prod.snd hbus, Manager.readsFlags_of_readStatus hfirst⟩
  · cases hpolled.symm.trans h
  · cases hpolled.symm.trans h

/-- After a poll during which the status stays as it is the watcher remembers it, exactly if it did so
before or can read the record that the status may have. -/
theorem last_poll_eq_iff {status : Status} :
    let first := m.readStatus.run.run bus.recorded s.world.bus
    let second := m.readStatus.run.run bus.recorded first.state
    first.result = .ok status → second.result = .ok status →
      ((s.poll bus m time).watcher.last = some status ↔ s.watcher.last = some status ∨
        (status.hasRecord = true →
          ∃ record, (m.readRecord.run.run bus.recorded second.state).result = .ok record)) := by
  intro first second hfirst hsecond
  rw [← Manager.exists_finds_iff hsecond]
  have hleaves := leaves_poll bus m time s
  rcases polled_cases bus m time s with ⟨e, hother, -⟩ | ⟨other, hother, hlast, hpolled, -⟩ |
    ⟨other, hother, hlast, hlook⟩
  · cases hother.symm.trans hfirst
  · -- the poll does not look, so it does not matter here whether a record can be read
    cases hother.symm.trans hfirst
    rw [hpolled] at hleaves
    rw [hleaves.1]
    exact iff_of_true hlast (.inl hlast)
  · cases hother.symm.trans hfirst
    rcases hlook with ⟨e, hlook, hpolled⟩ | ⟨seen, hlook, hpolled⟩
    · rw [hpolled] at hleaves
      rw [hleaves.1]
      refine iff_of_false hlast ?_
      rintro (h | ⟨seen, hfinds⟩)
      · exact hlast h
      · cases hlook.symm.trans (Manager.look_eq_ok_iff.2 hfinds)
    · rw [hpolled] at hleaves
      have hfinds := Manager.look_eq_ok_iff.1 hlook
      cases hsecond.symm.trans hfinds.status
      exact iff_of_true hleaves.1 (.inr ⟨seen, hfinds⟩)

/-- **What a watcher remembers**: nothing or the status of the latest change it sent. A poll sends a
change exactly if its first reading of the status gives another one and the look that follows works;
a poll that sends nothing and does not fail has read the two flags only, and they are what the watcher
remembers. While the status stays as it is, a poll makes it the status that the watcher remembers and
sent last, unless it has a record and this cannot be read. -/
theorem remembers_what_it_sent (bus : Bus σ) (m : Manager)
    (world : World (σ × List (Request × Reply))) (turns : List (Turn σ)) :
    let s : Vigil σ := play bus m { world } turns
    (s.watcher.last = none ∨ s.watcher.last = s.sent.head?.map Change.status) ∧
    ∀ time : String,
      let first := m.readStatus.run.run bus.recorded s.world.bus
      let second := m.readStatus.run.run bus.recorded first.state
      let after := s.poll bus m time
      (∀ change, s.polled bus m time = .ok (some change) ↔ change.time = time ∧
        (∃ status, first.result = .ok status ∧ s.watcher.last ≠ some status) ∧
          m.Finds bus.recorded first.state change.sighting) ∧
      s.Leaves after (s.polled bus m time) ∧
      (s.polled bus m time = .ok none → ∃ status flags, s.watcher.last = some status ∧
        after.world.bus.2 = s.world.bus.2 ++ flags ∧ m.ReadsFlags status flags) ∧
      ∀ status, first.result = .ok status → second.result = .ok status →
        (after.watcher.last = some status ∧ after.sent.head?.map Change.status = some status ↔
          s.watcher.last = some status ∨ (status.hasRecord = true →
            ∃ record, (m.readRecord.run.run bus.recorded second.state).result = .ok record)) := by
  intro s
  have hsound : s.Sound := Sound.play (.inl rfl) turns
  refine ⟨hsound, fun time => ?_⟩
  intro first second after
  refine ⟨fun change => polled_eq_some_iff, leaves_poll bus m time s, flags_of_polled_none,
    fun status hfirst hsecond => ?_⟩
  rw [← last_poll_eq_iff hfirst hsecond]
  refine and_iff_left_of_imp fun hlast => ?_
  rcases hsound.poll with hnone | hsent
  · cases hlast.symm.trans hnone
  · exact hsent.symm.trans hlast

/-- The flag of presence is set, and the third transaction replies as if it were not. -/
def flickering : World (Faulty Memory × List (Request × Reply)) where
  bus :=
    (⟨{ attached := [0x42], contents := [((0x42, 0x00), [1])] }, 0, [⟨2, 1, .garble [0]⟩]⟩, [])

/-- A watcher after a poll whose two readings differ. -/
def flickered : Vigil (Faulty Memory) :=
  play (Faulty.bus Memory.bus) ⟨0x42, .standard⟩ { world := flickering } [.poll "1"]

/-- Of two readings that differ the second one is remembered, and the next poll makes up for it. -/
theorem remembers_what_it_sent_flickering :
    flickered.sent = [⟨⟨⟨false, false⟩, none⟩, "1"⟩] ∧
      flickered.watcher.last = some ⟨false, false⟩ ∧
      let after := flickered.poll (Faulty.bus Memory.bus) ⟨0x42, .standard⟩ "2"
      after.watcher.last = some ⟨true, false⟩ ∧
        after.sent.head?.map Change.status = some ⟨true, false⟩ := by
  refine ⟨rfl, rfl, ?_⟩
  obtain ⟨-, hpoll⟩ :=
    remembers_what_it_sent (Faulty.bus Memory.bus) ⟨0x42, .standard⟩ flickering [.poll "1"]
  obtain ⟨-, -, -, hsteady⟩ := hpoll "2"
  have hsecond := hsteady ⟨true, false⟩ rfl rfl
  exact hsecond.2 (.inr nofun)

/-- Both flags are set, and the one byte of the name is not the text of anything. -/
def illegible : World (Memory × List (Request × Reply)) where
  bus := ({
    attached := [0x42]
    contents := [((0x42, 0x00), [1]), ((0x42, 0x01), [1]), ((0x42, 0x03), [1, 0, 0, 0]),
      ((0x42, 0x04), [0xFF])] }, [])

/-- The status stays as it is before, in and after a poll, and all transactions are carried out; but
the poll fails, and the watcher remembers nothing and has sent nothing. -/
theorem forgets_unreadable :
    let m : Manager := ⟨0x42, .standard⟩
    let status (w : World (Memory × List (Request × Reply))) :=
      m.readStatus.run.run Memory.bus.recorded w.bus
    let after : Vigil Memory := play Memory.bus m { world := illegible } [.poll "1"]
    (status illegible).result = .ok ⟨true, true⟩ ∧
      (m.readStatus.run.run Memory.bus.recorded (status illegible).state).result =
        .ok ⟨true, true⟩ ∧
      (status after.world).result = .ok ⟨true, true⟩ ∧
      (after.world.bus.2.all fun e => e.2.isOk) = true ∧
      after.watcher.last = none ∧ after.sent = [] :=
  ⟨rfl, rfl, rfl, rfl, rfl, rfl⟩

end Vigil

end SpoolTag
