import Mathlib.Data.List.Infix
import SpoolTag.Proofs.Bus.Fallible
import SpoolTag.Proofs.Daemon.Requests
import SpoolTag.Proofs.Manager.Looking
import SpoolTag.Proofs.Manager.Uses

/-! # What a subscriber hears

A `Feed` is what happens one after the other since a client subscribed: the daemon is called, also by
requests, on a bus on which transactions may fail, the device changes, other clients come and go, and
the client receives. Kept beside the world are the events that the calls have returned, each with the
registers of that moment, and what the client has got.

The channel carries the events that were returned (`Channel.Carries`), so a client that never falls
behind by more than the channel keeps hears them all, in order and once each; and each of them shows
what the registers held (`Feed.hears_what_is_returned`). A call that fails on its way returns nothing
and sends nothing, wherever the failure strikes. -/

namespace SpoolTag

/-! ### The channel -/

namespace Channel

variable {α : Type} {first k : Nat} {items : List α} {c : Channel α}

/-- These are the items that were sent after the first ones, and the latest of them are kept. -/
structure Carries (first : Nat) (items : List α) (c : Channel α) : Prop where
  sent : c.sent = first + items.length
  kept : items.reverse.take capacity <+: c.kept

theorem Carries.send (h : c.Carries first items) (a : α) :
    (c.send a).Carries first (items ++ [a]) := by
  refine ⟨?_, ?_⟩
  · have hsent := h.sent
    simp [Channel.send]
    omega
  · -- the item that is dropped is none of the latest
    have htake : (a :: items.reverse).take capacity =
        (a :: items.reverse.take capacity).take capacity := by
      simp [capacity, List.take_take]
    rw [List.reverse_append, List.reverse_singleton, List.singleton_append, htake]
    exact List.IsPrefix.take ((List.prefix_cons_inj a).2 h.kept) capacity

/-- **A receiver that is not too far behind gets the next item**, if there is one. -/
theorem Carries.receive (h : c.Carries first items) (hk : k ≤ items.length)
    (hbehind : items.length ≤ k + capacity) :
    c.receive ⟨first + k⟩ = (items[k]?).elim (.nothing, ⟨first + k⟩)
      fun a => (.item a, ⟨first + k + 1⟩) := by
  have hsent := h.sent
  have hlength : min capacity items.length ≤ c.kept.length := by
    simpa using h.kept.length_le
  unfold Channel.receive
  rcases Nat.eq_or_lt_of_le hk with rfl | hlt
  · rw [if_pos (Nat.le_of_eq hsent), List.getElem?_eq_none (Nat.le_refl _)]
    rfl
  · have hnew : ¬ c.sent ≤ first + k := by omega
    have hold : ¬ first + k < c.oldest := by
      unfold oldest
      omega
    have hitem : c.item? (first + k) = some items[k] := by
      have hindex : c.sent - 1 - (first + k) = items.length - 1 - k := by omega
      have hinside : items.length - 1 - k < (items.reverse.take capacity).length := by
        simp
        omega
      have hback : items.length - 1 - (items.length - 1 - k) = k := by omega
      unfold item?
      rw [hindex, List.prefix_iff_getElem?.1 h.kept _ hinside]
      simp [hback]
    rw [if_neg hnew, if_neg hold, hitem, List.getElem?_eq_getElem hlt]
    rfl

end Channel

def Received.item? {α : Type} : Received α → Option α
  | .item a => some a
  | .lagged _ | .nothing => none

/-! ### Events and registers -/

section Events

variable {σ : Type} (u : Fallible σ) (m : Manager)

theorem Manager.failsFast_look : m.look.run.FailsFast (Request.For m.device) id := by
  refine m.failsFast_readStatus.andThen fun status => ?_
  split
  · exact m.failsFast_readRecord.andThen fun record => .pure _
  · exact .pure _

/-- **An event shows the registers** from which its call started: nothing has failed in such a call,
and it has only read. -/
theorem Call.look_of_event {c : Call} {w : World σ} {change : Change}
    (h : (c.act ⟨u.bus, m⟩ w).1.event? = some change) :
    (m.look.run.run Memory.bus (u.memory w.bus)).result = .ok change.sighting := by
  cases c with
  | status | record | write r => cases h
  | refresh time =>
    change (Outcome.refresh ((⟨u.bus, m⟩ : Daemon σ).refresh time w).1).event? = _ at h
    obtain ⟨-, ⟨e, -, hresult, -⟩ | ⟨seen, hlook, hresult, -⟩⟩ :=
      (⟨u.bus, m⟩ : Daemon σ).refresh_cases time w
    · rw [hresult] at h
      cases h
    · rw [hresult] at h
      cases h
      exact (u.run_of_ok m.failsFast_look hlook).1
  | poll time watcher =>
    change (Outcome.poll (watcher.poll ⟨u.bus, m⟩ time w).1.1
      (watcher.poll ⟨u.bus, m⟩ time w).1.2).event? = _ at h
    rcases watcher.poll_cases (⟨u.bus, m⟩ : Daemon σ) time w with ⟨e, -, hafter, -⟩ |
      ⟨s, -, -, hafter, -⟩ |
      ⟨s, hstatus, -, -, ⟨e, -, hafter, -⟩ | ⟨seen, hlook, hafter, -⟩⟩
    · rw [hafter] at h
      cases h
    · rw [hafter] at h
      cases h
    · rw [hafter] at h
      cases h
    · rw [hafter] at h
      cases h
      -- the status that was read first has left the registers as they were
      obtain ⟨later, hlater⟩ := m.still_readStatus.state_eq (u.memory w.bus)
      have hmemory := (u.run_of_ok m.failsFast_readStatus hstatus).2
      have hfound := (u.run_of_ok m.failsFast_look hlook).1
      rw [hmemory, hlater, m.still_look.result_eq] at hfound
      exact hfound

end Events

/-! ### A subscription -/

/-- Something that happens while a client is subscribed. -/
inductive Feed.Step (σ : Type) where
  | call (c : Call)
  | request (time : String) (r : Http.Request)
  /-- Something is done to the device. -/
  | change (f : σ → σ)
  /-- Another client subscribes. -/
  | join
  /-- Another client is gone. -/
  | leave
  | receive

/-- The world since a client subscribed, with the events that were returned, each with the registers
from which its call started, and what the client has got. -/
structure Feed (σ : Type) where
  world : World σ
  receiver : Receiver
  returned : List (Memory × Change) := []
  got : List (Received Change) := []

namespace Feed

variable {σ : Type} (u : Fallible σ) (m : Manager)

/-- A client subscribes. -/
def since (w : World σ) : Feed σ where
  world := (Daemon.subscribe w).2
  receiver := (Daemon.subscribe w).1

/-- The world has become another one, and perhaps an event was returned. -/
def returns (s : Feed σ) (world : World σ) (event : Option Change) : Feed σ :=
  { s with
    world
    returned := s.returned ++ (event.map fun change => (u.memory s.world.bus, change)).toList }

def turn (s : Feed σ) : Step σ → Feed σ
  | .call c =>
    let after := c.act ⟨u.bus, m⟩ s.world
    s.returns u after.2 after.1.event?
  | .request time r =>
    s.returns u ((⟨u.bus, m⟩ : Daemon σ).handle time r s.world).2
      ((r.call? time).bind fun c => (c.act ⟨u.bus, m⟩ s.world).1.event?)
  | .change f => { s with world := { s.world with bus := f s.world.bus } }
  | .join => { s with world := (Daemon.subscribe s.world).2 }
  | .leave => { s with world := (Daemon.leave s.world).2 }
  | .receive =>
    let next := (Daemon.receive s.receiver s.world).1
    { s with receiver := next.2, got := s.got ++ [next.1] }

def play (s : Feed σ) (steps : List (Step σ)) : Feed σ := steps.foldl (turn u m) s

/-- The events that were returned, in order. -/
def events (s : Feed σ) : List Change := s.returned.map Prod.snd

/-- The events that the client has got, in order. -/
def heard (s : Feed σ) : List Change := s.got.filterMap Received.item?

/-- How many items the client has not yet got. -/
def behind (s : Feed σ) : Nat := s.world.channel.sent - s.receiver.next

/-- The client never falls behind by more than the channel keeps. -/
def KeepsUp (s : Feed σ) (steps : List (Step σ)) : Prop :=
  ∀ earlier, earlier <+: steps → (s.play u m earlier).behind ≤ Channel.capacity

/-- The channel carries what was returned, the client has got the beginning of it and nothing else,
and what was returned shows the registers. -/
structure Faithful (first : Nat) (s : Feed σ) : Prop where
  channel : s.world.channel.Carries first s.events
  next : s.receiver.next = first + s.heard.length
  heard : s.heard <+: s.events
  kept : ∀ missed, .lagged missed ∉ s.got
  shown : ∀ p ∈ s.returned, (m.look.run.run Memory.bus p.1).result = .ok p.2.sighting

variable {u m} {s : Feed σ} {first : Nat}

theorem faithful_since (w : World σ) : (since w).Faithful m w.channel.sent where
  channel := ⟨rfl, List.nil_prefix⟩
  next := rfl
  heard := List.nil_prefix
  kept _ := List.not_mem_nil
  shown p hp := by cases hp

theorem Faithful.returns (h : s.Faithful m first) {world : World σ} {event : Option Change}
    (hchannel : world.channel =
      event.elim s.world.channel fun change => s.world.channel.send change)
    (hshown : ∀ change, event = some change →
      (m.look.run.run Memory.bus (u.memory s.world.bus)).result = .ok change.sighting) :
    (s.returns u world event).Faithful m first := by
  cases event with
  | none =>
    have hreturned : (s.returns u world none).returned = s.returned := List.append_nil _
    have hevents : (s.returns u world none).events = s.events := by rw [events, hreturned, events]
    refine ⟨?_, h.next, ?_, h.kept, ?_⟩
    · rw [hevents]
      change world.channel.Carries first s.events
      rw [hchannel]
      exact h.channel
    · rw [hevents]
      exact h.heard
    · rw [hreturned]
      exact h.shown
  | some change =>
    have hevents : (s.returns u world (some change)).events = s.events ++ [change] := by
      simp [Feed.returns, events]
    refine ⟨?_, h.next, ?_, h.kept, fun p hp => ?_⟩
    · rw [hevents]
      change world.channel.Carries first _
      rw [hchannel]
      exact h.channel.send change
    · rw [hevents]
      exact h.heard.trans (List.prefix_append _ _)
    · rcases List.mem_append.1 hp with hp | hp
      · exact h.shown p hp
      · obtain rfl := List.mem_singleton.1 hp
        exact hshown change rfl

/-- What a client that is not too far behind gets next. -/
theorem Faithful.receive_eq (h : s.Faithful m first) (hbehind : s.behind ≤ Channel.capacity) :
    s.world.channel.receive s.receiver =
      (s.events[s.heard.length]?).elim (.nothing, ⟨first + s.heard.length⟩)
        fun change => (.item change, ⟨first + s.heard.length + 1⟩) := by
  have hreceiver : s.receiver = ⟨first + s.heard.length⟩ := congrArg Receiver.mk h.next
  have hnear : s.events.length ≤ s.heard.length + Channel.capacity := by
    have hsent := h.channel.sent
    have hnext := h.next
    unfold behind at hbehind
    omega
  rw [hreceiver]
  exact h.channel.receive h.heard.length_le hnear

theorem Faithful.receive (h : s.Faithful m first) (hbehind : s.behind ≤ Channel.capacity) :
    (s.turn u m .receive).Faithful m first := by
  let next := s.world.channel.receive s.receiver
  have hnext : next = _ := h.receive_eq hbehind
  have hheard : (s.turn u m .receive).heard = s.heard ++ next.1.item?.toList := by
    change (s.got ++ [next.1]).filterMap Received.item? = _
    rw [List.filterMap_append]
    cases hitem : next.1.item? <;> simp [Feed.heard, hitem]
  have hkept : ∀ missed, .lagged missed ∉ (s.turn u m .receive).got := by
    intro missed hmem
    rcases List.mem_append.1 hmem with hmem | hmem
    · exact h.kept missed hmem
    · have hlagged : Received.lagged missed = next.1 := List.mem_singleton.1 hmem
      rw [hnext] at hlagged
      cases hitem : s.events[s.heard.length]? <;> (rw [hitem] at hlagged; cases hlagged)
  refine ⟨h.channel, ?_, ?_, hkept, h.shown⟩
  · change next.2.next = _
    rw [hheard, hnext]
    cases s.events[s.heard.length]? with
    | none => simp [Received.item?]
    | some change => simp [Received.item?, Nat.add_assoc]
  · change (s.turn u m .receive).heard <+: s.events
    have htake : s.heard ++ next.1.item?.toList = s.events.take (s.heard.length + 1) := by
      rw [List.take_add_one, ← List.prefix_iff_eq_take.1 h.heard, hnext]
      cases s.events[s.heard.length]? <;> rfl
    rw [hheard, htake]
    exact List.take_prefix _ _

/-- **Whatever happens next, the feed stays faithful.** -/
theorem Faithful.turn (h : s.Faithful m first) (hbehind : s.behind ≤ Channel.capacity)
    (step : Step σ) : (s.turn u m step).Faithful m first := by
  cases step with
  | call c => exact h.returns (c.channel_act _ _) fun change => c.look_of_event u m
  | request time r =>
    refine h.returns ?_ fun change hevent => ?_
    · cases hcall : r.call? time with
      | none => exact (Daemon.handle_of_none hcall).2
      | some c =>
        obtain ⟨-, -, hchannel⟩ :=
          Daemon.handle_of_call (d := (⟨u.bus, m⟩ : Daemon σ)) (w := s.world) hcall
        exact hchannel.trans (c.channel_act _ _)
    · obtain ⟨c, -, hc⟩ := Option.bind_eq_some_iff.1 hevent
      exact c.look_of_event u m hc
  | change f => exact ⟨h.channel, h.next, h.heard, h.kept, h.shown⟩
  | join => exact ⟨⟨h.channel.sent, h.channel.kept⟩, h.next, h.heard, h.kept, h.shown⟩
  | leave => exact ⟨⟨h.channel.sent, h.channel.kept⟩, h.next, h.heard, h.kept, h.shown⟩
  | receive => exact h.receive hbehind

theorem Faithful.play (h : s.Faithful m first) (steps : List (Step σ))
    (hkeeps : KeepsUp u m s steps) : (s.play u m steps).Faithful m first := by
  induction steps generalizing s with
  | nil => exact h
  | cons step rest ih =>
    have hnow : s.behind ≤ Channel.capacity := hkeeps [] List.nil_prefix
    refine ih (h.turn hnow step) fun earlier hearlier => ?_
    exact hkeeps (step :: earlier) ((List.prefix_cons_inj step).2 hearlier)

/-- **A subscriber hears what is returned.** Whatever happens since a client has subscribed, and
whatever fails, if it never falls behind by more than the channel keeps, then what it has got are the
events that were returned, in order and once each, up to those it gets next; it has missed nothing. A
call sends the event that it returns and nothing else, and a request does what its call does. The
record in an event is there if and only if both flags in its status are set, and both are what reads
find in the registers from which the call started. -/
theorem hears_what_is_returned (u : Fallible σ) (m : Manager) (w : World σ) (steps : List (Step σ))
    (hkeeps : KeepsUp u m (since w) steps) :
    let d : Daemon σ := ⟨u.bus, m⟩
    let s := (since w).play u m steps
    (∃ pending, s.events = s.heard ++ pending ∧
      (Daemon.receive s.receiver s.world).1.1 = pending.head?.elim .nothing .item) ∧
    (∀ missed, .lagged missed ∉ s.got) ∧
    (∀ c : Call, (c.act d s.world).2.channel = (c.act d s.world).1.event?.elim s.world.channel
      fun change => s.world.channel.send change) ∧
    (∀ (time : String) (r : Http.Request), match r.call? time with
      | some c => ((c.act d s.world).1.response?).map r.trim = some (d.handle time r s.world).1 ∧
          (d.handle time r s.world).2.bus = (c.act d s.world).2.bus ∧
          (d.handle time r s.world).2.channel = (c.act d s.world).2.channel
      | none => (d.handle time r s.world).2.bus = s.world.bus ∧
          (d.handle time r s.world).2.channel = s.world.channel) ∧
    ∀ mem change, (mem, change) ∈ s.returned →
      (m.readStatus.run.run Memory.bus mem).result = .ok change.status ∧
      (change.sighting.record.isSome ↔
        change.status.present = true ∧ change.status.nfcValid = true) ∧
      ∀ record, change.sighting.record = some record →
        (m.readRecord.run.run Memory.bus mem).result = .ok record := by
  intro d s
  have h : s.Faithful m w.channel.sent := (faithful_since w).play steps hkeeps
  refine ⟨?_, h.kept, fun c => c.channel_act d s.world, fun time r => ?_, ?_⟩
  · obtain ⟨pending, hpending⟩ := h.heard
    refine ⟨pending, hpending.symm, ?_⟩
    have hreceive := h.receive_eq (hkeeps steps (List.prefix_refl steps))
    rw [← hpending, List.getElem?_append_right (Nat.le_refl _), Nat.sub_self] at hreceive
    change (s.world.channel.receive s.receiver).1 = _
    rw [hreceive]
    cases pending <;> rfl
  · split
    · next c hcall => exact Daemon.handle_of_call hcall
    · next hcall => exact Daemon.handle_of_none hcall
  · intro mem change hmem
    have hlook := h.shown _ hmem
    obtain ⟨hsome, hrecord⟩ := m.readRecord_of_look hlook
    refine ⟨m.readStatus_of_look hlook, ?_, hrecord⟩
    rw [hsome]
    exact Bool.and_eq_true_iff

/-- Nothing is heard of a poll that fails between the status and the record; the refresh before it
and the poll after it are heard. -/
theorem hears_around_failure :
    let u := Fallible.failing fun n => if n = 12 then some (.noAcknowledge 0x42) else none
    let m : Manager := ⟨0x42, .standard⟩
    let tagged : Memory := (Memory.set { attached := [0x42] } 0x42 0x00 [1]).set 0x42 0x01 [1]
    let steps : List (Step (Nat × Memory)) := [.call (.refresh "1"), .call (.poll "2" {}), .receive,
      .call (.poll "3" {}), .receive]
    let s := (since { bus := (0, tagged) }).play u m steps
    let sighting : Sighting := ⟨⟨true, true⟩, some ⟨0, "", 0, 0, .empty⟩⟩
    KeepsUp u m (since { bus := (0, tagged) }) steps ∧
      s.events = [⟨sighting, "1"⟩, ⟨sighting, "3"⟩] ∧
      s.heard = s.events ∧ ∀ missed, .lagged missed ∉ s.got := by
  intro u m tagged steps s sighting
  have hkeeps : KeepsUp u m (since { bus := (0, tagged) }) steps := by
    intro earlier hearlier
    have htake : earlier = steps.take earlier.length := List.prefix_iff_eq_take.1 hearlier
    have hlength : earlier.length ≤ 5 := hearlier.length_le
    have hall : ∀ n < 6, ((since { bus := (0, tagged) }).play u m (steps.take n)).behind ≤
        Channel.capacity := by decide +kernel
    rw [htake]
    exact hall _ (by omega)
  have hevents : s.events = [⟨sighting, "1"⟩, ⟨sighting, "3"⟩] := by decide +kernel
  have hheard : s.heard = s.events := by decide +kernel
  exact ⟨hkeeps, hevents, hheard, (hears_what_is_returned u m _ steps hkeeps).2.1⟩

end Feed

end SpoolTag
