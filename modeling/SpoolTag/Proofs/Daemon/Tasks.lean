import Mathlib.Logic.Function.Basic
import SpoolTag.Proofs.Daemon.Polling

/-! # Calls of the daemon that run at the same time

A call works on the device while it holds the lock, and goes on when it has the result, but between
the two other calls may run. A `Task` is the work of a call cut at these places; without
interruption it does what the daemon does (`alone_task`).

A `Scene` is what many calls have come to. A choice lets one of them take its next step, which is as
small as one transaction, or changes the device while nobody holds the lock, or drops a call. What
was dropped while it held the lock still works on the device to the end, but nobody goes on from
there. A choice that is not possible changes nothing, so every list of choices is a schedule, and
`Mark`s tell what happened. -/

namespace SpoolTag

/-! ### The work of a call -/

/-- What is done on the device while the lock is held. -/
inductive Job where
  | status
  | record
  | write (r : Record)
  | look

namespace Job

def Result : Job → Type
  | .status => Status
  | .record => Record
  | .write _ => Unit
  | .look => Sighting

/-- The job on the device of a manager. -/
def attempt (m : Manager) : (j : Job) → Attempt j.Result
  | .status => m.readStatus
  | .record => m.readRecord
  | .write r => m.writeRecord r
  | .look => m.look

end Job

/-- What the daemon is called for. -/
inductive Call where
  | status
  | record
  | write (r : Record)
  | refresh (time : String)
  | poll (time : String) (watcher : Watcher)

/-- How a call ends. -/
inductive Outcome where
  | status (result : Except TagError Status)
  | record (result : Except TagError Record)
  | write (result : Except TagError Unit)
  | refresh (result : Except TagError Change)
  | poll (result : Except TagError (Option Change)) (watcher : Watcher)

/-- What is left of the work of a call. -/
inductive Task where
  | done (outcome : Outcome)
  | note (report : Report) (next : Task)
  /-- Waits for the lock, does the job and gives the lock back. -/
  | hold (j : Job) (next : Except TagError j.Result → Task)
  | publish (time : String) (seen : Sighting) (next : Change → Task)

namespace Task

variable {σ : Type}

/-- A task without interruption. -/
def alone (d : Daemon σ) : Task → Act σ Outcome
  | .done outcome => pure outcome
  | .note report next => do
    Act.report report
    next.alone d
  | .hold j next => do
    let result ← d.hold (j.attempt d.manager)
    (next result).alone d
  | .publish time seen next => do
    let change ← Daemon.publish time seen
    (next change).alone d

theorem alone_note (d : Daemon σ) (report : Report) (next : Task) (w : World σ) :
    (note report next).alone d w = next.alone d (Act.report report w).2 := rfl

theorem alone_hold (d : Daemon σ) (j : Job) (next : Except TagError j.Result → Task)
    (w : World σ) :
    (hold j next).alone d w =
      (next (d.hold (j.attempt d.manager) w).1).alone d (d.hold (j.attempt d.manager) w).2 := rfl

/-- Looks at the device and sends what there is to see, before going on. -/
def looking (time : String) (next : Except TagError Change → Task) : Task :=
  .hold .look fun
    | .error e => next (.error e)
    | .ok seen => .publish time seen fun change => next (.ok change)

end Task

namespace Call

variable {σ : Type}

/-- The end of a poll that had to look at the whole device. -/
def polled (watcher : Watcher) : Except TagError Change → Outcome
  | .error e => .poll (.error e) watcher
  | .ok change => .poll (.ok (some change)) { watcher with last := some change.status }

def task : Call → Task
  | .status => .hold .status fun result => .done (.status result)
  | .record => .hold .record fun result => .done (.record result)
  | .write r => .hold (.write r) fun result => .done (.write result)
  | .refresh time => .looking time fun result => .done (.refresh result)
  | .poll time watcher => .hold .status fun
    | .error e => .done (.poll (.error e) watcher)
    | .ok (found : Status) =>
      if watcher.last = some found then .done (.poll (.ok none) watcher)
      else
        .note (.statusChanged watcher.last found)
          (.looking time fun result => .done (polled watcher result))

/-- What the daemon does for a call. -/
def act (d : Daemon σ) : Call → Act σ Outcome
  | .status => Outcome.status <$> d.status
  | .record => Outcome.record <$> d.record
  | .write r => Outcome.write <$> d.write r
  | .refresh time => Outcome.refresh <$> d.refresh time
  | .poll time watcher => (fun after => Outcome.poll after.1 after.2) <$> watcher.poll d time

/-- To look and to send, without interruption, is to refresh. -/
theorem alone_looking (d : Daemon σ) (time : String) (next : Except TagError Change → Task)
    (w : World σ) :
    (Task.looking time next).alone d w =
      (next (d.refresh time w).1).alone d (d.refresh time w).2 := by
  unfold Task.looking
  rw [Task.alone_hold]
  cases hlook : (d.hold (Job.look.attempt d.manager) w).1 with
  | error e =>
    rw [Daemon.refresh_of_error time hlook]
    rfl
  | ok seen =>
    rw [Daemon.refresh_of_ok time hlook]
    rfl

/-- **A task without interruption does what the daemon does.** -/
theorem alone_task (d : Daemon σ) (c : Call) : c.task.alone d = c.act d := by
  funext w
  cases c with
  | status => rfl
  | record => rfl
  | write r => rfl
  | refresh time => exact alone_looking d time (fun result => .done (.refresh result)) w
  | poll time watcher =>
    have hact : (Call.poll time watcher).act d w =
        ((.poll (watcher.poll d time w).1.1 (watcher.poll d time w).1.2 : Outcome),
          (watcher.poll d time w).2) := rfl
    unfold task
    rw [hact, Task.alone_hold]
    cases hstatus : (d.status w).1 with
    | error e =>
      have hhold : (d.hold (Job.status.attempt d.manager) w).1 = .error e := hstatus
      rw [hhold, Watcher.poll_of_error time watcher hstatus]
      rfl
    | ok found =>
      have hhold : (d.hold (Job.status.attempt d.manager) w).1 = .ok found := hstatus
      rw [hhold]
      dsimp only
      by_cases hlast : watcher.last = some found
      · rw [if_pos hlast, Watcher.poll_of_same time hstatus hlast]
        rfl
      · rw [if_neg hlast, Task.alone_note, alone_looking]
        have hrest : (Act.report (.statusChanged watcher.last found)
            (d.hold (Job.status.attempt d.manager) w).2).2 = watcher.toRefresh d found w := rfl
        rw [hrest]
        cases hrefresh : (d.refresh time (watcher.toRefresh d found w)).1 with
        | error e =>
          rw [Watcher.poll_of_refresh_error hstatus hlast hrefresh]
          rfl
        | ok change =>
          rw [Watcher.poll_of_refresh_ok hstatus hlast hrefresh]
          rfl

end Call

/-! ### Calls side by side -/

/-- Where a call is. -/
inductive Phase where
  /-- The task is to be gone on with. -/
  | active (task : Task)
  /-- It has the lock, and this is left of its job; nobody goes on from there if there is no
  `next`. -/
  | holding (j : Job) (rest : Dialog (Except TagError j.Result))
    (next : Option (Except TagError j.Result → Task))
  /-- Nobody waits for it any more. -/
  | dropped

/-- Where a call is when its job has come to a result. -/
def Phase.resume {j : Job} (next : Option (Except TagError j.Result → Task))
    (result : Except TagError j.Result) : Phase :=
  match next with
  | some next => .active (next result)
  | none => .dropped

/-- What is left of a call when it is dropped. -/
def Phase.drop : Phase → Phase
  | .active (.done outcome) => .active (.done outcome)
  | .active _ => .dropped
  | .holding j rest _ => .holding j rest none
  | .dropped => .dropped

/-- Something that happened to one of the calls. -/
inductive Mark (ι : Type) where
  | granted (i : ι) (j : Job)
  | exchanged (i : ι) (request : Request) (reply : Reply)
  | ended (i : ι) (j : Job) (result : Except TagError j.Result)
  | sent (i : ι) (change : Change)

/-- What calls have come to: the world, who has the lock, where each call is, and what happened, in
order. -/
structure Scene (ι σ : Type) where
  world : World σ
  holder : Option ι := none
  phase : ι → Phase
  trace : List (Mark ι) := []

/-- What may happen next. -/
inductive Choice (ι σ : Type) where
  | go (i : ι)
  | change (f : σ → σ)
  | drop (i : ι)

namespace Scene

variable {ι σ : Type} [DecidableEq ι]

def start (world : World σ) (calls : ι → Call) : Scene ι σ :=
  { world, phase := fun i => .active (calls i).task }

def put (s : Scene ι σ) (i : ι) (phase : Phase) : Scene ι σ :=
  { s with phase := Function.update s.phase i phase }

def mark (s : Scene ι σ) (m : Mark ι) : Scene ι σ := { s with trace := s.trace ++ [m] }

def report (s : Scene ι σ) (reports : List Report) : Scene ι σ :=
  { s with world := { s.world with reports := reports.reverse ++ s.world.reports } }

/-- The next step of a call that has the lock. -/
def work (d : Daemon σ) (s : Scene ι σ) (i : ι) (j : Job)
    (next : Option (Except TagError j.Result → Task)) :
    Dialog (Except TagError j.Result) → Scene ι σ
  | .done result =>
    (({ s with holder := none }).put i (.resume next result)).mark (.ended i j result)
  | .note notice rest => (s.report [.device notice]).put i (.holding j rest next)
  | .ask request rest =>
    let answer := d.bus.answer request s.world.bus
    ((({ s with world := { s.world with bus := answer.state } }).report
      (answer.notices.map .device)).put i (.holding j (rest answer.reply) next)).mark
        (.exchanged i request answer.reply)

def advance (d : Daemon σ) (s : Scene ι σ) (i : ι) : Scene ι σ :=
  match s.phase i with
  | .dropped => s
  | .holding j rest next => s.work d i j next rest
  | .active (.done _) => s
  | .active (.note report next) => (s.report [report]).put i (.active next)
  | .active (.hold j next) =>
    if s.holder.isSome then s
    else
      (({ s with holder := some i }).put i
        (.holding j (j.attempt d.manager).run (some next))).mark (.granted i j)
  | .active (.publish time seen next) =>
    let after := Daemon.publish time seen s.world
    (({ s with world := after.2 }).put i (.active (next after.1))).mark (.sent i after.1)

def turn (d : Daemon σ) (s : Scene ι σ) : Choice ι σ → Scene ι σ
  | .go i => s.advance d i
  | .change f =>
    if s.holder.isSome then s else { s with world := { s.world with bus := f s.world.bus } }
  | .drop i => s.put i (s.phase i).drop

def play (d : Daemon σ) (s : Scene ι σ) (choices : List (Choice ι σ)) : Scene ι σ :=
  choices.foldl (turn d) s

end Scene

end SpoolTag
