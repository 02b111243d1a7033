import SpoolTag.Bus.Faulty
import SpoolTag.Bus.Memory
import SpoolTag.Proofs.Daemon.Polling

/-! # Outages

A watcher that goes through its rounds warns when a poll fails after one that worked, and says that the
device is reachable again when a poll works after one that failed. So there is one warning for each
outage and one notice of its end, and the poll that ends it sends a change, since the watcher has
forgotten what it sent before (`Watcher.once_per_outage`).

`Watcher.rounds` keeps of every round how its poll ended, what it reported about outages and what
became of the channel; before each of them anything may happen to the world. -/

namespace SpoolTag

variable {σ : Type}

/-! ### Reports about outages -/

/-- The report is a warning that a poll failed, or says that the device is reachable again. -/
def Report.tellsOutage (r : Report) : Bool :=
  r.entry.message = "Presence poll failed" || r.entry.message = "Filament manager reachable again"

theorem Report.tellsOutage_device (notice : Notice) : (device notice).tellsOutage = false := by
  cases notice <;> rfl

namespace World

variable {w after : World σ}

/-- The reports about outages that were made since, in their order. -/
def noticesSince (w after : World σ) : List Report :=
  (after.reports.take (after.reports.length - w.reports.length)).reverse.filter Report.tellsOutage

/-- Something was reported in the meantime, but nothing about outages. -/
def Quiet (w after : World σ) : Prop :=
  ∃ added, after.reports = added ++ w.reports ∧ ∀ r ∈ added, r.tellsOutage = false

theorem Quiet.trans {last : World σ} (h : w.Quiet after) (h' : after.Quiet last) :
    w.Quiet last := by
  obtain ⟨added, hadded, hquiet⟩ := h
  obtain ⟨more, hmore, hquiet'⟩ := h'
  refine ⟨more ++ added, by rw [hmore, hadded, List.append_assoc], fun r hr => ?_⟩
  exact (List.mem_append.1 hr).elim (hquiet' r) (hquiet r)

theorem Quiet.report {r : Report} (h : r.tellsOutage = false) :
    w.Quiet { w with reports := r :: w.reports } :=
  ⟨[r], rfl, by rwa [List.forall_mem_singleton]⟩

theorem Quiet.hold {α : Type} (bus : Bus σ) (operation : Attempt α) :
    w.Quiet (bus.hold operation w).2 := by
  have hfold : ∀ (notices : List Notice) (reports : List Report),
      notices.foldl (fun reports n => .device n :: reports) reports =
        (notices.map Report.device).reverse ++ reports := by
    intro notices
    induction notices with
    | nil => exact fun reports => rfl
    | cons n rest ih =>
      intro reports
      rw [List.foldl_cons, ih, List.map_cons, List.reverse_cons, List.append_assoc]
      rfl
  refine ⟨_, hfold _ w.reports, fun r hr => ?_⟩
  obtain ⟨notice, -, rfl⟩ := List.mem_map.1 (List.mem_reverse.1 hr)
  exact Report.tellsOutage_device notice

theorem noticesSince_of_append {added : List Report} (h : after.reports = added ++ w.reports) :
    w.noticesSince after = added.reverse.filter Report.tellsOutage := by
  unfold noticesSince
  rw [h, List.length_append, Nat.add_sub_cancel, List.take_left]

theorem noticesSince_trans {last : World σ} (h : w.reports <:+ after.reports)
    (h' : after.reports <:+ last.reports) :
    w.noticesSince last = w.noticesSince after ++ after.noticesSince last := by
  obtain ⟨added, hadded⟩ := h
  obtain ⟨more, hmore⟩ := h'
  have hall : last.reports = (more ++ added) ++ w.reports := by
    rw [← hmore, ← hadded, List.append_assoc]
  rw [noticesSince_of_append hadded.symm, noticesSince_of_append hmore.symm,
    noticesSince_of_append hall, List.reverse_append, List.filter_append]

/-- What is reported after quiet times is all there is about outages. -/
theorem Quiet.noticesSince_report (h : w.Quiet after) (reports : List Report) :
    w.noticesSince { after with reports := reports.reverse ++ after.reports } =
      reports.filter Report.tellsOutage := by
  obtain ⟨added, hadded, hquiet⟩ := h
  have hnone : added.reverse.filter Report.tellsOutage = [] := by
    refine List.filter_eq_nil_iff.2 fun r hr => ?_
    rw [hquiet r (List.mem_reverse.1 hr)]
    exact Bool.false_ne_true
  have hall : reports.reverse ++ after.reports = (reports.reverse ++ added) ++ w.reports := by
    rw [List.append_assoc, hadded]
  refine (noticesSince_of_append hall).trans ?_
  rw [List.reverse_append, List.reverse_reverse, List.filter_append, hnone, List.nil_append]

end World

/-! ### Polls -/

theorem Daemon.quiet_refresh (d : Daemon σ) (time : String) (w : World σ) :
    w.Quiet (d.refresh time w).2 := by
  have hhold : w.Quiet (d.hold d.manager.look w).2 := World.Quiet.hold d.bus d.manager.look
  cases hlook : (d.hold d.manager.look w).1 with
  | error e =>
    rw [refresh_of_error time hlook]
    exact hhold
  | ok seen =>
    rw [refresh_of_ok time hlook]
    exact hhold.trans ⟨[_], rfl, by rw [List.forall_mem_singleton]; rfl⟩

namespace Watcher

/-- No poll reports anything about outages. -/
theorem quiet_poll (d : Daemon σ) (time : String) (watcher : Watcher) (w : World σ) :
    w.Quiet (watcher.poll d time w).2 := by
  have hstatus : w.Quiet (d.status w).2 := World.Quiet.hold d.bus d.manager.readStatus
  cases hfirst : (d.status w).1 with
  | error e =>
    rw [poll_of_error time watcher hfirst]
    exact hstatus
  | ok status =>
    by_cases hlast : watcher.last = some status
    · rw [poll_of_same time hfirst hlast]
      exact hstatus
    · have hchanged : w.Quiet (watcher.toRefresh d status w) := hstatus.trans (.report rfl)
      have hrefresh := hchanged.trans (d.quiet_refresh time _)
      cases hlook : (d.refresh time (watcher.toRefresh d status w)).1 with
      | error e =>
        rw [poll_of_refresh_error hfirst hlast hlook]
        exact hrefresh
      | ok change =>
        rw [poll_of_refresh_ok hfirst hlast hlook]
        exact hrefresh

/-- A poll by a watcher that remembers nothing sends a change unless it fails, and it is not the poll
that changes whether the watcher is healthy. -/
theorem poll_of_last_eq_none (d : Daemon σ) (time : String) (watcher : Watcher) (w : World σ) :
    let polled := watcher.poll d time w
    polled.1.2.healthy = watcher.healthy ∧
      (watcher.last = none → polled.1.1.isOk = true → ∃ change, polled.1.1 = .ok (some change) ∧
        polled.2.channel = w.channel.send change) := by
  intro polled
  rcases watcher.poll_cases d time w with ⟨e, -, hafter, -⟩ | ⟨status, -, hlast, hafter, -⟩ |
    ⟨status, -, -, -, ⟨e, -, hafter, -⟩ | ⟨seen, -, hafter, hchannel⟩⟩
  · change polled.1 = _ at hafter
    rw [hafter]
    exact ⟨rfl, fun _ hok => nomatch hok⟩
  · change polled.1 = _ at hafter
    rw [hafter]
    exact ⟨rfl, fun hnone => nomatch hlast.symm.trans hnone⟩
  · change polled.1 = _ at hafter
    rw [hafter]
    exact ⟨rfl, fun _ hok => nomatch hok⟩
  · change polled.1 = _ at hafter
    rw [hafter]
    exact ⟨rfl, fun _ _ => ⟨_, rfl, hchannel⟩⟩

/-! ### Rounds -/

/-- What a round came to: how its poll ended, what it reported about outages, and the channel before
and after it. -/
structure Round where
  outcome : Except TagError (Option Change)
  notices : List Report
  before : Channel Change
  after : Channel Change

/-- The poll of the round failed. -/
def Round.failed (r : Round) : Bool := !r.outcome.isOk

/-- A round at a time, in the given world. -/
def round (d : Daemon σ) (watcher : Watcher) (time : String) (w : World σ) : Round where
  outcome := (watcher.poll d time w).1.1
  notices := w.noticesSince (watcher.tick d time w).2
  before := w.channel
  after := (watcher.tick d time w).2.channel

/-- The rounds of a watcher, each at its time and in what has become of the world until then. -/
def rounds (d : Daemon σ) (watcher : Watcher) (w : World σ) :
    List ((World σ → World σ) × String) → List Round
  | [] => []
  | (disturb, time) :: rest =>
    let after := watcher.tick d time (disturb w)
    watcher.round d time (disturb w) :: after.1.rounds d after.2 rest

/-- What a watcher is like after a round that failed, or one that did not. -/
structure Recalls (watcher : Watcher) (failed : Bool) : Prop where
  healthy : watcher.healthy = !failed
  last : failed = true → watcher.last = none

/-- What a round reports about outages, after one that failed or did not. -/
def noticesAfter (failed : Bool) : Except TagError (Option Change) → List Report
  | .ok _ => if failed then [.reachable] else []
  | .error e => if failed then [] else [.pollFailed e]

variable {watcher : Watcher} {failed : Bool}

/-- **What a round does**: it reports the beginning or the end of an outage, and a poll that ends one
sends a change; the next round knows how this one ended. -/
theorem Recalls.round (h : watcher.Recalls failed) (d : Daemon σ) (time : String) (w : World σ) :
    let round := watcher.round d time w
    round.notices = noticesAfter failed round.outcome ∧
      (failed = true → round.failed = false → ∃ change, round.outcome = .ok (some change) ∧
        round.after = round.before.send change) ∧
      (watcher.tick d time w).1.Recalls round.failed := by
  intro round
  obtain ⟨hhealthy, hsends⟩ := watcher.poll_of_last_eq_none d time w
  have htick := watcher.tick_eq d time w
  have hchannel : round.after = (watcher.poll d time w).2.channel :=
    congrArg (fun after => after.2.channel) htick
  have hnotices : round.notices =
      ((watcher.poll d time w).1.2.after round.outcome).1.filter Report.tellsOutage := by
    refine (congrArg (fun after => w.noticesSince after.2) htick).trans ?_
    exact (watcher.quiet_poll d time w).noticesSince_report _
  have hwatcher : (watcher.tick d time w).1 = ((watcher.poll d time w).1.2.after round.outcome).2 :=
    congrArg Prod.fst htick
  have hknows : (watcher.poll d time w).1.2.healthy = !failed := hhealthy.trans h.healthy
  rw [hnotices, hwatcher, hchannel]
  refine ⟨?_, fun hfailed hok => hsends (h.last hfailed) ?_, ?_⟩
  · cases round.outcome with
    | error e =>
      unfold Watcher.after
      rw [hknows]
      cases failed <;> rfl
    | ok found =>
      unfold Watcher.after
      rw [hknows]
      cases failed <;> rfl
  · exact (Bool.not_eq_false' _).mp hok
  · unfold Round.failed
    cases round.outcome with
    | error e => exact ⟨rfl, fun _ => rfl⟩
    | ok found => exact ⟨rfl, nofun⟩

/-! ### Runs -/

/-- A warning comes first, or a notice that the device is reachable again if there is an outage, and
from then on they alternate. -/
def Alternate : Bool → List Report → Prop
  | _, [] => True
  | false, notice :: rest => (∃ e, notice = .pollFailed e) ∧ Alternate true rest
  | true, notice :: rest => notice = .reachable ∧ Alternate false rest

theorem alternate_noticesAfter (outcome : Except TagError (Option Change)) {rest : List Report}
    (h : Alternate (!outcome.isOk) rest) : Alternate failed (noticesAfter failed outcome ++ rest) := by
  cases outcome with
  | error e =>
    cases failed with
    | false => exact ⟨⟨e, rfl⟩, h⟩
    | true => exact h
  | ok found =>
    cases failed with
    | false => exact h
    | true => exact ⟨rfl, h⟩

theorem Recalls.alternate (h : watcher.Recalls failed) (d : Daemon σ) (w : World σ)
    (plan : List ((World σ → World σ) × String)) :
    Alternate failed ((watcher.rounds d w plan).flatMap Round.notices) := by
  induction plan generalizing watcher failed w with
  | nil => trivial
  | cons next rest ih =>
    obtain ⟨disturb, time⟩ := next
    obtain ⟨hnotices, -, hrecalls⟩ := h.round d time (disturb w)
    unfold rounds
    rw [List.flatMap_cons, hnotices]
    exact alternate_noticesAfter _ (ih hrecalls _)

/-- A round after others does what the last of them makes it do. -/
theorem Recalls.rounds (h : watcher.Recalls failed) (d : Daemon σ) (w : World σ)
    (plan : List ((World σ → World σ) × String)) :
    ∀ earlier r later, watcher.rounds d w plan = earlier ++ r :: later →
      let followsFailure := (earlier.getLast?.map Round.failed).getD failed
      r.notices = noticesAfter followsFailure r.outcome ∧
        (followsFailure = true → r.failed = false → ∃ change, r.outcome = .ok (some change) ∧
          r.after = r.before.send change) := by
  induction plan generalizing watcher failed w with
  | nil =>
    intro earlier r later hsplit
    cases earlier <;> cases hsplit
  | cons next rest ih =>
    obtain ⟨disturb, time⟩ := next
    obtain ⟨hnotices, hsends, hrecalls⟩ := h.round d time (disturb w)
    intro earlier r later hsplit
    cases earlier with
    | nil =>
      obtain ⟨rfl, -⟩ := List.cons.inj hsplit
      exact ⟨hnotices, hsends⟩
    | cons first others =>
      obtain ⟨rfl, hrest⟩ := List.cons.inj hsplit
      -- the round before is the last of the others, or the first one if there are none
      rw [List.getLast?_cons]
      have hround := ih hrecalls _ others r later hrest
      cases hlast : others.getLast? with
      | none =>
        rw [hlast] at hround
        exact hround
      | some other =>
        rw [hlast] at hround
        exact hround

theorem reports_tick (d : Daemon σ) (watcher : Watcher) (time : String) (w : World σ) :
    w.reports <:+ (watcher.tick d time w).2.reports := by
  obtain ⟨added, hadded, -⟩ := watcher.quiet_poll d time w
  rw [watcher.tick_eq d time w]
  exact ⟨_ ++ added, by rw [List.append_assoc, ← hadded]⟩

theorem reports_run (d : Daemon σ) (watcher : Watcher) (w : World σ) (times : List String) :
    w.reports <:+ (watcher.run d times w).2.reports := by
  induction times generalizing watcher w with
  | nil => exact List.suffix_refl _
  | cons time rest ih => exact (reports_tick d watcher time w).trans (ih _ _)

/-- A run reports about outages what its rounds report. -/
theorem noticesSince_run (d : Daemon σ) (watcher : Watcher) (w : World σ) (times : List String) :
    w.noticesSince (watcher.run d times w).2 =
      (watcher.rounds d w (times.map fun time => (id, time))).flatMap Round.notices := by
  induction times generalizing watcher w with
  | nil =>
    exact World.noticesSince_of_append (List.nil_append w.reports).symm
  | cons time rest ih =>
    rw [List.map_cons]
    unfold rounds
    rw [List.flatMap_cons]
    exact (World.noticesSince_trans (reports_tick d watcher time w) (reports_run d _ _ rest)).trans
      (congrArg _ (ih _ _))

/-- **Once for every outage.** A new watcher warns in the rounds whose poll fails, unless that of the
round before failed too, and says that the device is reachable again in the rounds whose poll works
after one that failed; so the two alternate, and a warning comes first. A poll that works after one that
failed sends a change, whatever the status is. A run is made of such rounds. -/
theorem once_per_outage (d : Daemon σ) (w : World σ) (plan : List ((World σ → World σ) × String)) :
    let rounds := ({} : Watcher).rounds d w plan
    (∀ earlier r later, rounds = earlier ++ r :: later →
      let followsFailure := (earlier.getLast?.map Round.failed).getD false
      r.notices = noticesAfter followsFailure r.outcome ∧
        (followsFailure = true → r.failed = false → ∃ change, r.outcome = .ok (some change) ∧
          r.after = r.before.send change)) ∧
    Alternate false (rounds.flatMap Round.notices) ∧
    ∀ times, w.noticesSince (({} : Watcher).run d times w).2 =
      (({} : Watcher).rounds d w (times.map fun time => (id, time))).flatMap Round.notices := by
  have hnew : ({} : Watcher).Recalls false := ⟨rfl, nofun⟩
  exact ⟨hnew.rounds d w plan, hnew.alternate d w plan, noticesSince_run d {} w⟩

/-- An attached device that does not acknowledge the second and the third poll. -/
def breaking : World (Faulty Memory) where
  bus := ⟨{ attached := [0x42] }, 0, [⟨4, 2, .silence⟩]⟩

/-- The rounds of an outage. -/
def broken : List Round :=
  ({} : Watcher).rounds ⟨Faulty.bus Memory.bus, ⟨0x42, .standard⟩⟩ breaking
    (["1", "2", "3", "4", "5"].map fun time => (id, time))

/-- An outage of two rounds: one warning, one notice of its end, and a change whose status was sent
before the outage already. -/
theorem once_per_outage_broken :
    let unavailable : TagError := .deviceUnavailable 0x42 (.noAcknowledge 0x42)
    broken.flatMap Round.notices = [.pollFailed unavailable, .reachable] ∧
      Alternate false (broken.flatMap Round.notices) ∧
      (broken.map Round.failed = [false, true, true, false, false]) ∧
      ∃ r ∈ broken[3]?, r.notices = [.reachable] ∧
        ∃ change, r.outcome = .ok (some change) ∧ r.after = r.before.send change := by
  obtain ⟨hrounds, halternate, -⟩ := once_per_outage
    (⟨Faulty.bus Memory.bus, ⟨0x42, .standard⟩⟩ : Daemon (Faulty Memory)) breaking
    (["1", "2", "3", "4", "5"].map fun time => (id, time))
  obtain ⟨hnotices, hsends⟩ := hrounds (broken.take 3) _ (broken.drop 4) rfl
  refine ⟨rfl, halternate, rfl, _, rfl, hnotices, hsends rfl rfl⟩

end Watcher

end SpoolTag
