import SpoolTag.Daemon.Api
import SpoolTag.Proofs.Daemon.Tasks

/-! # What requests call the daemon for

A request to the web server is a call of the daemon or is settled without one (`Http.Request.call?`).
What a call does to the device and to the channel does not depend on who makes it, so a request does
to them what its call does, and the answer tells the outcome (`Daemon.handle_of_call`); a request
without a call touches neither (`Daemon.handle_of_none`).

Of all outcomes only a refresh and a poll that worked return an event, and a call sends the event
that it returns and nothing else (`Call.channel_act`). -/

namespace SpoolTag

variable {σ α : Type}

/-! ### Calls -/

/-- The event that a call returns with its outcome. -/
def Outcome.event? : Outcome → Option Change
  | .refresh (.ok change) => some change
  | .poll (.ok (some change)) _ => some change
  | _ => none

/-- **A call sends the event that it returns**, and nothing if it returns none. -/
theorem Call.channel_act (d : Daemon σ) (c : Call) (w : World σ) :
    (c.act d w).2.channel =
      ((c.act d w).1.event?).elim w.channel fun change => w.channel.send change := by
  cases c with
  | status => rfl
  | record => rfl
  | write r => rfl
  | refresh time =>
    change (d.refresh time w).2.channel = ((Outcome.refresh (d.refresh time w).1).event?).elim _ _
    obtain ⟨-, ⟨e, -, hresult, hchannel⟩ | ⟨seen, -, hresult, hchannel⟩⟩ := d.refresh_cases time w
    · rw [hresult]
      exact hchannel
    · rw [hresult]
      exact hchannel
  | poll time watcher =>
    change (watcher.poll d time w).2.channel =
      ((Outcome.poll (watcher.poll d time w).1.1 (watcher.poll d time w).1.2).event?).elim _ _
    rcases watcher.poll_cases d time w with ⟨e, -, hafter, -, hchannel⟩ |
      ⟨s, -, -, hafter, -, hchannel⟩ | ⟨s, -, -, -, ⟨e, -, hafter, hchannel⟩ | ⟨seen, -, hafter, hchannel⟩⟩
    all_goals
      rw [hafter]
      exact hchannel

/-! ### Answers -/

namespace Daemon

/-- The answer to what came of a call. -/
def shown (encode : α → Json.Document) : Except TagError α → Http.Response
  | .ok a => .document 200 (encode a)
  | .error e => .failure e.httpStatus e.message

/-- To answer is not to touch the device or the channel. -/
theorem answer_apply (encode : α → Json.Document) (result : Except TagError α) (w : World σ) :
    (answer encode result w).1 = shown encode result ∧ (answer encode result w).2.bus = w.bus ∧
      (answer encode result w).2.channel = w.channel := by
  cases result <;> exact ⟨rfl, rfl, rfl⟩

end Daemon

/-- The answer to a request that is a call with this outcome; no request is a poll. -/
def Outcome.response? : Outcome → Option Http.Response
  | .status result => some (Daemon.shown Status.document result)
  | .record result => some (Daemon.shown Record.document result)
  | .write result => some (Daemon.shown (fun () => .object [("status", .string "OK")]) result)
  | .refresh result => some (Daemon.shown Change.document result)
  | .poll _ _ => none

/-! ### Requests -/

/-- What a request to a route calls the daemon for. -/
def Route.call? (time : String) (r : Http.Request) : Route → Option Call
  | .status => some .status
  | .read => some .record
  | .write =>
    match r.record with
    | .ok record => some (.write record)
    | .error _ => none
  | .refresh => some (.refresh time)
  | .socket => none

/-- What a request at the given time calls the daemon for. -/
def Http.Request.call? (time : String) (r : Http.Request) : Option Call :=
  (Route.ofPath? r.path).bind fun route =>
    if r.method ∈ route.methods then route.call? time r else none

/-- The answer as it is given to the request, without a body if it asks for none. -/
def Http.Request.trim (r : Http.Request) (response : Http.Response) : Http.Response :=
  if r.method = "HEAD" then { response with body := "" } else response

namespace Daemon

variable {d : Daemon σ} {r : Http.Request} {w : World σ} {time : String} {c : Call}

/-- What ends with an answer is answered, and nothing else is done. -/
theorem perform_of_answer {route : Route} {encode : α → Json.Document} {result : Except TagError α}
    {after : World σ} (h : d.perform time r route w = answer encode result after) :
    some (shown encode result) = some (d.perform time r route w).1 ∧
      (d.perform time r route w).2.bus = after.bus ∧
      (d.perform time r route w).2.channel = after.channel := by
  obtain ⟨hresponse, hbus, hchannel⟩ := answer_apply encode result after
  rw [h]
  exact ⟨congrArg some hresponse.symm, hbus, hchannel⟩

theorem perform_of_call {route : Route} (h : route.call? time r = some c) :
    (c.act d w).1.response? = some (d.perform time r route w).1 ∧
      (d.perform time r route w).2.bus = (c.act d w).2.bus ∧
      (d.perform time r route w).2.channel = (c.act d w).2.channel := by
  cases route with
  | socket => cases h
  | status | read | refresh =>
    cases h
    exact perform_of_answer rfl
  | write =>
    dsimp only [Route.call?] at h
    split at h
    · next record hrecord =>
      cases h
      -- what is reported before the write is not seen by the device
      let begun : World σ := (Act.report (.writeRequested record.id record.name) w).2
      have hperform : d.perform time r .write w =
          answer (fun () => .object [("status", .string "OK")]) (d.write record begun).1
            (d.write record begun).2 := by
        change d.handleWrite r w = _
        unfold handleWrite
        rw [hrecord]
        rfl
      obtain ⟨hresponse, hbus, hchannel⟩ := perform_of_answer hperform
      exact ⟨hresponse, hbus, hchannel⟩
    · cases h

theorem perform_of_none {route : Route} (h : route.call? time r = none) :
    (d.perform time r route w).2.bus = w.bus ∧
      (d.perform time r route w).2.channel = w.channel := by
  cases route with
  | socket => exact ⟨rfl, rfl⟩
  | write =>
    dsimp only [Route.call?] at h
    split at h
    · cases h
    · next rejection hrecord =>
      change (d.handleWrite r w).2.bus = _ ∧ (d.handleWrite r w).2.channel = _
      unfold handleWrite
      rw [hrecord]
      exact ⟨rfl, rfl⟩
  | status | read | refresh => cases h

/-- **A request that is a call** does to the device and to the channel what the call does, and is
answered with its outcome. -/
theorem handle_of_call (h : r.call? time = some c) :
    ((c.act d w).1.response?).map r.trim = some (d.handle time r w).1 ∧
      (d.handle time r w).2.bus = (c.act d w).2.bus ∧
      (d.handle time r w).2.channel = (c.act d w).2.channel := by
  obtain ⟨route, hroute, hcall⟩ := Option.bind_eq_some_iff.1 h
  split at hcall
  · next hmethod =>
    obtain ⟨hresponse, hbus, hchannel⟩ := perform_of_call (d := d) (w := w) hcall
    have hoptions : r.method ≠ "OPTIONS" := by
      intro heq
      rw [heq] at hmethod
      revert hmethod
      cases route <;> decide
    have hhandle : d.handle time r w =
        (r.trim (d.perform time r route w).1, (d.perform time r route w).2) := by
      unfold handle
      rw [hroute]
      dsimp only
      rw [if_neg hoptions, if_pos hmethod]
      rfl
    rw [hhandle, hresponse]
    exact ⟨rfl, hbus, hchannel⟩
  · cases hcall

/-- A request that is no call leaves the device and the channel alone. -/
theorem handle_of_none (h : r.call? time = none) :
    (d.handle time r w).2.bus = w.bus ∧ (d.handle time r w).2.channel = w.channel := by
  unfold handle
  cases hroute : Route.ofPath? r.path with
  | none => exact ⟨rfl, rfl⟩
  | some route =>
    dsimp only
    by_cases hoptions : r.method = "OPTIONS"
    · rw [if_pos hoptions]
      exact ⟨rfl, rfl⟩
    · rw [if_neg hoptions]
      by_cases hmethod : r.method ∈ route.methods
      · have hcall : route.call? time r = none := by
          rw [Http.Request.call?, hroute, Option.bind_some, if_pos hmethod] at h
          exact h
        rw [if_pos hmethod]
        exact perform_of_none hcall
      · rw [if_neg hmethod]
        exact ⟨rfl, rfl⟩

end Daemon

end SpoolTag
