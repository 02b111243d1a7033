import SpoolTag.Daemon.Watcher

/-! # What a refresh and a poll do

Everything a refresh or a poll can do, on any bus: `refresh_cases` and `poll_cases` list the
outcomes with what they leave of the channel, the bus and the watcher. What holds of runs of the
daemon is derived from these two and does not look into the code of either. -/

namespace SpoolTag

variable {σ : Type}

/-- What follows a step starts in the world that the step leaves. -/
theorem Act.bind_apply {α β : Type} (x : Act σ α) (f : α → Act σ β) (w : World σ) :
    (x >>= f) w = f (x w).1 (x w).2 := rfl

/-! ### A refresh -/

theorem Daemon.refresh_of_error {d : Daemon σ} {w : World σ} {e : TagError} (time : String)
    (h : (d.hold d.manager.look w).1 = .error e) :
    d.refresh time w = (.error e, (d.hold d.manager.look w).2) := by
  unfold Daemon.refresh
  rw [Act.bind_apply, h]
  rfl

theorem Daemon.refresh_of_ok {d : Daemon σ} {w : World σ} {seen : Sighting} (time : String)
    (h : (d.hold d.manager.look w).1 = .ok seen) :
    d.refresh time w =
      (.ok ⟨seen, time⟩, (publish time seen (d.hold d.manager.look w).2).2) := by
  unfold Daemon.refresh
  rw [Act.bind_apply, h]
  rfl

/-- **What a refresh does**: one look at the device, and if it works the sighting is sent. -/
theorem Daemon.refresh_cases (d : Daemon σ) (time : String) (w : World σ) :
    let look := d.manager.look.run.run d.bus w.bus
    let after := d.refresh time w
    after.2.bus = look.state ∧
    ((∃ e, look.result = .error e ∧ after.1 = .error e ∧ after.2.channel = w.channel) ∨
      ∃ seen, look.result = .ok seen ∧ after.1 = .ok ⟨seen, time⟩ ∧
        after.2.channel = w.channel.send ⟨seen, time⟩) := by
  intro look after
  cases hlook : look.result with
  | error e =>
    have hafter : after = (.error e, (d.hold d.manager.look w).2) := refresh_of_error time hlook
    rw [hafter]
    exact ⟨rfl, .inl ⟨e, rfl, rfl, rfl⟩⟩
  | ok seen =>
    have hafter : after = (.ok ⟨seen, time⟩, (publish time seen (d.hold d.manager.look w).2).2) :=
      refresh_of_ok time hlook
    rw [hafter]
    exact ⟨rfl, .inr ⟨seen, rfl, rfl, rfl⟩⟩

/-! ### A poll -/

namespace Watcher

/-- The world in which a poll refreshes when it saw the given status. -/
def toRefresh (d : Daemon σ) (s : Status) (watcher : Watcher) (w : World σ) : World σ :=
  (Act.report (.statusChanged watcher.last s) (d.status w).2).2

theorem poll_of_error {d : Daemon σ} {w : World σ} {e : TagError} (time : String)
    (watcher : Watcher) (h : (d.status w).1 = .error e) :
    watcher.poll d time w = ((.error e, watcher), (d.status w).2) := by
  unfold poll
  rw [Act.bind_apply, h]
  rfl

theorem poll_of_same {d : Daemon σ} {w : World σ} {s : Status} {watcher : Watcher} (time : String)
    (h : (d.status w).1 = .ok s) (hlast : watcher.last = some s) :
    watcher.poll d time w = ((.ok none, watcher), (d.status w).2) := by
  unfold poll
  rw [Act.bind_apply, h]
  dsimp only
  rw [if_pos hlast]
  rfl

theorem poll_of_refresh_error {d : Daemon σ} {w : World σ} {s : Status} {watcher : Watcher}
    {time : String} {e : TagError} (h : (d.status w).1 = .ok s) (hlast : watcher.last ≠ some s)
    (hrefresh : (d.refresh time (watcher.toRefresh d s w)).1 = .error e) :
    watcher.poll d time w =
      ((.error e, watcher), (d.refresh time (watcher.toRefresh d s w)).2) := by
  unfold poll
  rw [Act.bind_apply, h]
  dsimp only
  rw [if_neg hlast, Act.bind_apply, Act.bind_apply]
  unfold toRefresh at hrefresh ⊢
  rw [hrefresh]
  rfl

theorem poll_of_refresh_ok {d : Daemon σ} {w : World σ} {s : Status} {watcher : Watcher}
    {time : String} {change : Change} (h : (d.status w).1 = .ok s)
    (hlast : watcher.last ≠ some s)
    (hrefresh : (d.refresh time (watcher.toRefresh d s w)).1 = .ok change) :
    watcher.poll d time w =
      ((.ok (some change), { watcher with last := some change.status }),
        (d.refresh time (watcher.toRefresh d s w)).2) := by
  unfold poll
  rw [Act.bind_apply, h]
  dsimp only
  rw [if_neg hlast, Act.bind_apply, Act.bind_apply]
  unfold toRefresh at hrefresh ⊢
  rw [hrefresh]
  rfl

/-- **What a poll does**: it reads the status, and if that is another one than the last it
refreshes. -/
theorem poll_cases (d : Daemon σ) (time : String) (watcher : Watcher) (w : World σ) :
    let status := d.manager.readStatus.run.run d.bus w.bus
    let look := d.manager.look.run.run d.bus status.state
    let after := watcher.poll d time w
    (∃ e, status.result = .error e ∧ after.1 = (.error e, watcher) ∧
      after.2.bus = status.state ∧ after.2.channel = w.channel) ∨
    (∃ s, status.result = .ok s ∧ watcher.last = some s ∧ after.1 = (.ok none, watcher) ∧
      after.2.bus = status.state ∧ after.2.channel = w.channel) ∨
    ∃ s, status.result = .ok s ∧ watcher.last ≠ some s ∧ after.2.bus = look.state ∧
      ((∃ e, look.result = .error e ∧ after.1 = (.error e, watcher) ∧
        after.2.channel = w.channel) ∨
      ∃ seen, look.result = .ok seen ∧
        after.1 = (.ok (some ⟨seen, time⟩), { watcher with last := some seen.status }) ∧
        after.2.channel = w.channel.send ⟨seen, time⟩) := by
  intro status look after
  cases hstatus : status.result with
  | error e =>
    have hafter : after = ((.error e, watcher), (d.status w).2) := poll_of_error time watcher hstatus
    rw [hafter]
    exact .inl ⟨e, rfl, rfl, rfl, rfl⟩
  | ok s =>
    by_cases hlast : watcher.last = some s
    · have hafter : after = ((.ok none, watcher), (d.status w).2) := poll_of_same time hstatus hlast
      rw [hafter]
      exact .inr (.inl ⟨s, rfl, hlast, rfl, rfl, rfl⟩)
    · refine .inr (.inr ⟨s, rfl, hlast, ?_⟩)
      obtain ⟨hbus, hcases⟩ := d.refresh_cases time (watcher.toRefresh d s w)
      rcases hcases with ⟨e, hlook, hresult, hchannel⟩ | ⟨seen, hlook, hresult, hchannel⟩
      · have hafter : after = _ := poll_of_refresh_error hstatus hlast hresult
        rw [hafter]
        exact ⟨hbus, .inl ⟨e, hlook, rfl, hchannel⟩⟩
      · have hafter : after = _ := poll_of_refresh_ok hstatus hlast hresult
        rw [hafter]
        exact ⟨hbus, .inr ⟨seen, hlook, rfl, hchannel⟩⟩

/-! ### A round of watching -/

theorem forM_report (reports : List Report) (w : World σ) :
    reports.forM Act.report w = ((), { w with reports := reports.reverse ++ w.reports }) := by
  induction reports generalizing w with
  | nil => rfl
  | cons r rest ih =>
    have hstep : (r :: rest).forM Act.report w =
        rest.forM Act.report { w with reports := r :: w.reports } := rfl
    rw [hstep, ih, List.reverse_cons, List.append_assoc]
    rfl

/-- **What a round does**: it polls, draws its conclusions from the outcome and reports them. -/
theorem tick_eq (d : Daemon σ) (time : String) (watcher : Watcher) (w : World σ) :
    let polled := watcher.poll d time w
    let told := polled.1.2.after polled.1.1
    watcher.tick d time w =
      (told.2, { polled.2 with reports := told.1.reverse ++ polled.2.reports }) := by
  intro polled told
  have htick : watcher.tick d time w = (told.2, (told.1.forM Act.report polled.2).2) := rfl
  rw [htick, forM_report]

end Watcher

end SpoolTag
