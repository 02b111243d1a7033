import SpoolTag.Proofs.Daemon.Polling
import SpoolTag.Proofs.Manager.Looking

/-! # A watcher beside refreshes

The watcher compares the status with the one it sent itself, while a refresh sends what it sees to
the same channel and tells the watcher nothing. `Turn` is what may happen one after the other, and
`Sound` is what ties the watcher and the channel to the changes that were sent: the watcher knows
the status of the latest change of its own, and the channel ends with the latest change of all.

After a poll that works the latest change of the watcher has the status of the device. The latest
change of all has it too, except when a refresh saw another status in the meantime and the device
has gone back since (`agrees_after_poll_iff`). -/

namespace SpoolTag

/-- Who sends a change. -/
inductive Sender where
  | refresh
  | watcher
  deriving DecidableEq, Repr

/-- One of the things that happen in turn: something is done to the registers, a client asks for a
refresh, or the watcher polls. -/
inductive Turn where
  | change (f : Memory → Memory)
  | refresh (time : String)
  | poll (time : String)

/-- The world of a daemon with its watcher, and what was sent in it, the latest first. -/
structure Watch where
  world : World Memory
  watcher : Watcher := {}
  sent : List (Sender × Change) := []

namespace Watch

variable (m : Manager)

/-- The daemon of a manager on registers in memory. -/
def daemon : Daemon Memory := ⟨Memory.bus, m⟩

def refresh (time : String) (s : Watch) : Watch :=
  let after := (daemon m).refresh time s.world
  { s with
    world := after.2
    sent := match after.1 with
      | .ok change => (.refresh, change) :: s.sent
      | .error _ => s.sent }

def polled (time : String) (s : Watch) : Except TagError (Option Change) :=
  (s.watcher.poll (daemon m) time s.world).1.1

def poll (time : String) (s : Watch) : Watch :=
  let after := s.watcher.poll (daemon m) time s.world
  { world := after.2
    watcher := after.1.2
    sent := match after.1.1 with
      | .ok (some change) => (.watcher, change) :: s.sent
      | _ => s.sent }

/-- What a turn makes of the world. -/
def turn (s : Watch) : Turn → Watch
  | .change f => { s with world := { s.world with bus := f s.world.bus } }
  | .refresh time => s.refresh m time
  | .poll time => s.poll m time

/-- What turns make of the world, one after the other. -/
def play (s : Watch) (turns : List Turn) : Watch := turns.foldl (turn m) s

def status (s : Watch) : Except TagError Status :=
  (m.readStatus.run.run Memory.bus s.world.bus).result

/-- The latest change that the watcher sent. -/
def own (s : Watch) : Option Change := (s.sent.find? (·.1 == .watcher)).map Prod.snd

def latest (s : Watch) : Option Change := s.world.channel.kept.head?

/-! ### The invariant -/

/-- The watcher knows the status of the latest change of its own, and the channel ends with the
latest change that was sent. -/
structure Sound (s : Watch) : Prop where
  last : s.watcher.last = s.own.map Change.status
  channel : ∀ e ∈ s.sent.head?, s.latest = some e.2

variable {m} {s : Watch} {time : String}

theorem latest_send {change : Change} {channel : Channel Change}
    (h : s.world.channel = channel.send change) : s.latest = some change := by
  rw [latest, h]
  rfl

theorem latest_of_channel {after : Watch} (h : after.world.channel = s.world.channel) :
    after.latest = s.latest := by rw [latest, latest, h]

theorem Sound.refresh (h : s.Sound) : (s.refresh m time).Sound := by
  obtain ⟨-, ⟨e, -, hresult, hchannel⟩ | ⟨seen, -, hresult, hchannel⟩⟩ :=
    (daemon m).refresh_cases time s.world
  · have hafter : s.refresh m time = { s with world := ((daemon m).refresh time s.world).2 } := by
      dsimp only [Watch.refresh]
      rw [hresult]
    rw [hafter]
    refine ⟨h.last, fun e he => ?_⟩
    rw [latest_of_channel hchannel]
    exact h.channel e he
  · have hafter : s.refresh m time = ⟨((daemon m).refresh time s.world).2, s.watcher,
        (.refresh, ⟨seen, time⟩) :: s.sent⟩ := by
      dsimp only [Watch.refresh]
      rw [hresult]
    rw [hafter]
    refine ⟨h.last, fun e he => ?_⟩
    obtain rfl := Option.some.inj he
    exact latest_send hchannel

/-- **What a poll does to the watch**: it fails, or it finds what the watcher knew and sends
nothing, or it sends a change of its own with the status of the device. -/
theorem poll_outcome (m : Manager) (time : String) (s : Watch) :
    (∃ e, s.polled m time = .error e ∧ (s.poll m time).watcher = s.watcher ∧
      (s.poll m time).sent = s.sent ∧ (s.poll m time).latest = s.latest) ∨
    (∃ status, s.status m = .ok status ∧ s.polled m time = .ok none ∧
      s.watcher.last = some status ∧ (s.poll m time).watcher = s.watcher ∧
      (s.poll m time).sent = s.sent ∧ (s.poll m time).latest = s.latest) ∨
    ∃ status change, s.status m = .ok status ∧ s.polled m time = .ok (some change) ∧
      change.status = status ∧ (s.poll m time).watcher.last = some status ∧
      (s.poll m time).sent = (.watcher, change) :: s.sent ∧
      (s.poll m time).latest = some change := by
  have hsent : (s.poll m time).sent = match s.polled m time with
      | .ok (some change) => (.watcher, change) :: s.sent
      | _ => s.sent := rfl
  rcases s.watcher.poll_cases (daemon m) time s.world with
    ⟨e, -, hafter, -, hchannel⟩ | ⟨status, hstatus, hlast, hafter, -, hchannel⟩ |
      ⟨status, hstatus, -, -, ⟨e, -, hafter, hchannel⟩ | ⟨seen, hlook, hafter, hchannel⟩⟩
  · have hpolled : s.polled m time = .error e := congrArg Prod.fst hafter
    rw [hpolled] at hsent
    exact .inl ⟨e, hpolled, congrArg Prod.snd hafter, hsent, latest_of_channel hchannel⟩
  · have hpolled : s.polled m time = .ok none := congrArg Prod.fst hafter
    rw [hpolled] at hsent
    exact .inr (.inl ⟨status, hstatus, hpolled, hlast, congrArg Prod.snd hafter, hsent,
      latest_of_channel hchannel⟩)
  · have hpolled : s.polled m time = .error e := congrArg Prod.fst hafter
    rw [hpolled] at hsent
    exact .inl ⟨e, hpolled, congrArg Prod.snd hafter, hsent, latest_of_channel hchannel⟩
  · have hpolled : s.polled m time = .ok (some ⟨seen, time⟩) := congrArg Prod.fst hafter
    rw [hpolled] at hsent
    -- nothing happens between the two looks of a poll, so they find the same status
    have hsame : seen.status = status := by
      obtain ⟨later, hstate⟩ := m.still_readStatus.state_eq s.world.bus
      have hsecond := m.readStatus_of_look hlook
      change (m.readStatus.run.run Memory.bus
        (m.readStatus.run.run Memory.bus s.world.bus).state).result = _ at hsecond
      rw [hstate, m.still_readStatus.result_eq] at hsecond
      exact Except.ok.inj (hsecond.symm.trans hstatus)
    have hlast : (s.poll m time).watcher.last = some seen.status :=
      congrArg (fun after => after.2.last) hafter
    exact .inr (.inr ⟨status, ⟨seen, time⟩, hstatus, hpolled, hsame, hsame ▸ hlast, hsent,
      latest_send hchannel⟩)

theorem Sound.poll (h : s.Sound) : (s.poll m time).Sound := by
  rcases s.poll_outcome m time with ⟨e, -, hwatcher, hsent, hlatest⟩ |
    ⟨status, -, -, -, hwatcher, hsent, hlatest⟩ |
      ⟨status, change, -, -, hchange, hlast, hsent, hlatest⟩
  · refine ⟨?_, fun e he => ?_⟩
    · rw [hwatcher, h.last, own, own, hsent]
    · rw [hlatest]
      exact h.channel e (hsent ▸ he)
  · refine ⟨?_, fun e he => ?_⟩
    · rw [hwatcher, h.last, own, own, hsent]
    · rw [hlatest]
      exact h.channel e (hsent ▸ he)
  · refine ⟨?_, fun e he => ?_⟩
    · rw [hlast, own, hsent, ← hchange]
      rfl
    · rw [hsent] at he
      rw [hlatest]
      exact congrArg some (congrArg Prod.snd (Option.some.inj he))

theorem Sound.play (h : s.Sound) (turns : List Turn) : (s.play m turns).Sound := by
  induction turns generalizing s with
  | nil => exact h
  | cons turn rest ih =>
    cases turn with
    | change f => exact ih ⟨h.last, h.channel⟩
    | refresh time => exact ih h.refresh
    | poll time => exact ih h.poll

/-! ### After a poll -/

/-- **Whether clients agree with the device after a poll that works**: the latest change of the
watcher has the status of the device, and the latest change of all has it unless the poll sent
nothing and a refresh that saw another status was the last to send. -/
theorem agrees_after_poll_iff (m : Manager) (world : World Memory) (turns : List Turn)
    (time : String) (found : Option Change) :
    let before : Watch := play m { world } turns
    let after : Watch := before.poll m time
    before.polled m time = .ok found →
      ∃ status, before.status m = .ok status ∧ after.own.map Change.status = some status ∧
        (after.latest.map Change.status = some status ↔
          ¬ (found = none ∧ ∃ change, before.sent.head? = some (.refresh, change) ∧
            change.status ≠ status)) := by
  intro before after hok
  have hstart : Sound { world } := ⟨rfl, fun e he => by cases he⟩
  have hbefore : before.Sound := hstart.play turns
  have hafter : after.Sound := hbefore.poll
  rcases before.poll_outcome m time with ⟨e, herror, -⟩ |
    ⟨status, hstatus, hnone, hlast, hwatcher, hsent, hlatest⟩ |
      ⟨status, change, hstatus, hsome, hchange, hlast, hsent, hlatest⟩
  · rw [hok] at herror
    cases herror
  · obtain rfl : found = none := Except.ok.inj (hok.symm.trans hnone)
    have hown : after.own.map Change.status = some status := by
      rw [← hafter.last, hwatcher, hlast]
    refine ⟨status, hstatus, hown, ?_⟩
    rw [own, hsent] at hown
    rw [hlatest]
    cases hhead : before.sent with
    | nil =>
      rw [hhead] at hown
      cases hown
    | cons e rest =>
      obtain ⟨sender, change⟩ := e
      rw [hbefore.channel (sender, change) (by rw [hhead]; rfl), Option.map_some,
        Option.some.injEq, List.head?_cons]
      cases sender with
      | refresh =>
        constructor
        · rintro heq ⟨-, other, hother, hne⟩
          obtain rfl := (Prod.mk.inj (Option.some.inj hother)).2
          exact hne heq
        · intro h
          by_cases heq : change.status = status
          · exact heq
          · exact absurd ⟨rfl, change, rfl, heq⟩ h
      | watcher =>
        rw [hhead] at hown
        have heq : change.status = status := Option.some.inj hown
        constructor
        · rintro - ⟨-, other, hother, -⟩
          cases hother
        · intro _
          exact heq
  · obtain rfl : found = some change := Except.ok.inj (hok.symm.trans hsome)
    refine ⟨status, hstatus, by rw [← hafter.last, hlast], ?_⟩
    rw [hlatest, Option.map_some, hchange]
    exact ⟨fun _ h => Option.some_ne_none _ h.1, fun _ => rfl⟩

/-- A watch over an attached device with nothing in its registers. -/
def blank : Watch := { world := { bus := { attached := [0x42] } } }

/-- The flag of presence is set or taken back. -/
def flag (b : UInt8) : Turn := .change (·.set 0x42 0x00 [b])

/-- The first poll of an attached device agrees with it, after a refresh too. -/
theorem agrees_after_first_poll :
    let m : Manager := ⟨0x42, .standard⟩
    let before : Watch := play m blank [.refresh "1", flag 1]
    ∃ status, before.status m = .ok status ∧
      (before.poll m "2").own.map Change.status = some status ∧
      ((before.poll m "2").latest.map Change.status = some status ↔
        ¬ (some (⟨⟨⟨true, false⟩, none⟩, "2"⟩ : Change) = none ∧
          ∃ change, before.sent.head? = some (.refresh, change) ∧ change.status ≠ status)) :=
  agrees_after_poll_iff ⟨0x42, .standard⟩ { bus := { attached := [0x42] } } [.refresh "1", flag 1]
    "2" (some ⟨⟨⟨true, false⟩, none⟩, "2"⟩) rfl

/-- A flag that is set for a refresh and taken back before the next poll: nothing fails, the poll
sends nothing, and the latest change has a status that the device no longer has. -/
theorem disagrees_after_poll :
    let m : Manager := ⟨0x42, .standard⟩
    let before : Watch := play m blank [.poll "1", flag 1, .refresh "2", flag 0]
    before.sent = [(.refresh, ⟨⟨⟨true, false⟩, none⟩, "2"⟩),
        (.watcher, ⟨⟨⟨false, false⟩, none⟩, "1"⟩)] ∧
      before.status m = .ok ⟨false, false⟩ ∧ before.polled m "3" = .ok none ∧
      (before.poll m "3").latest.map Change.status = some ⟨true, false⟩ :=
  ⟨rfl, rfl, rfl, rfl⟩

end Watch

end SpoolTag
