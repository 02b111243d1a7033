import SpoolTag.Daemon.Basic

/-!
# The watcher

The device does not speak up by itself, so a watcher looks at its status from time to time and sends
a change when the status is another one than before. It forgets what it knew when a poll fails, so
that the first poll that works again sends a change, and it reports the beginning and the end of an
outage, not every failed poll.
-/

namespace SpoolTag

/-- What a watcher knows: the status it sent last, and whether its latest poll worked. -/
structure Watcher where
  last : Option Status := none
  healthy : Bool := true
  deriving DecidableEq, Repr

namespace Watcher

variable {σ : Type}

/-- Looks at the status; another one than the last is followed by a look at the whole device, which
is sent. -/
def poll (d : Daemon σ) (time : String) (w : Watcher) :
    Act σ (Except TagError (Option Change) × Watcher) := do
  match ← d.status with
  | .error e => pure (.error e, w)
  | .ok status =>
    if w.last = some status then pure (.ok none, w)
    else
      Act.report (.statusChanged w.last status)
      match ← d.refresh time with
      | .error e => pure (.error e, w)
      | .ok change => pure (.ok (some change), { w with last := some change.status })

/-- What a poll that ended like this means for the watcher, and what it reports. -/
def after (outcome : Except TagError (Option Change)) (w : Watcher) : List Report × Watcher :=
  match outcome with
  | .ok _ => (if w.healthy then [] else [.reachable], { w with healthy := true })
  | .error e => (if w.healthy then [.pollFailed e] else [], ⟨none, false⟩)

def tick (d : Daemon σ) (time : String) (w : Watcher) : Act σ Watcher := do
  let (outcome, w) ← w.poll d time
  let (reports, w) := w.after outcome
  reports.forM Act.report
  pure w

/-- A new watcher, which polls at the given period in milliseconds. -/
def start (period : Nat) : Act σ Watcher := do
  Act.report (.watcherStarted period)
  pure {}

/-- Rounds of watching, one for each of the given times. -/
def run (d : Daemon σ) (w : Watcher) : List String → Act σ Watcher
  | [] => pure w
  | time :: rest => do
    let w ← w.tick d time
    w.run d rest

end Watcher

end SpoolTag
