import SpoolTag.Daemon.Session

/-!
# Connections to clients

A session speaks to its client over a connection that holds a limited number of bytes. While what it
sends does not fit, the session waits and takes nothing more from the channel or from the client.
A session at work takes changes before frames, one after the other, until it waits or has nothing
left to do.
-/

namespace SpoolTag

/-- The number of bytes that a letter takes on a connection: its own, and those of its frame. -/
def Letter.size (letter : Letter) : Nat :=
  let payload :=
    match letter with
    | .text s => (Text.Utf8.encode s.toList).length
    | .pong bytes => bytes.length
  payload + (if payload ≤ 125 then 2 else if payload ≤ 65535 then 4 else 10)

/-- A connection: how many bytes it holds, and the session at its far end. -/
structure Connection where
  capacity : Nat
  receiver : Receiver
  /-- The letters that the client has not read, the latest first. -/
  unread : List Letter := []
  /-- The bytes of the letters that the client has not read, those that do not fit included. -/
  pending : Nat := 0
  /-- The frames that the session has not met, in order. -/
  inbox : List Frame := []
  /-- Whether the client has cut the connection. -/
  cut : Bool := false
  isOpen : Bool := true

namespace Connection

variable {σ : Type}

/-- Whether the session waits for the client to read. -/
def isStuck (c : Connection) : Bool := c.capacity < c.pending

/-- A new connection; its session subscribes to the channel. -/
def accept (capacity : Nat) : Act σ Connection := do
  let receiver ← Daemon.subscribe
  Act.report .clientConnected
  pure { capacity, receiver }

def finish (c : Connection) : Act σ Connection := do
  Act.report .clientDisconnected
  Daemon.leave
  pure { c with isOpen := false, inbox := [] }

/-- The frame that the client sent, as the session meets it. -/
def meet (f : Frame) : Encounter :=
  match f with
  | .ping payload | .pong payload =>
    if 125 < payload.length then .fault .controlTooBig else .frame f
  | f => .frame f

/-- What the session meets next, if there is anything. -/
def next? (c : Connection) : Act σ (Option (Encounter × Connection)) := do
  match ← Daemon.receive c.receiver with
  | (.item change, receiver) => pure (some (.change change, { c with receiver }))
  | (.lagged missed, receiver) => pure (some (.lagged missed, { c with receiver }))
  | (.nothing, _) =>
    match c.inbox with
    | f :: inbox => pure (some (meet f, { c with inbox }))
    | [] => pure (if c.cut then some (.fault .cut, c) else none)

/-- Does what the session does about something it met. -/
def react (c : Connection) (r : Reaction) : Act σ Connection := do
  r.reports.forM Act.report
  if r.ends then c.finish
  else
    match r.letter with
    | none => pure c
    | some letter =>
      pure { c with unread := letter :: c.unread, pending := c.pending + letter.size }

/-- Lets the session work, for at most so many encounters. -/
def work : Nat → Connection → Act σ Connection
  | 0, c => pure c
  | fuel + 1, c => do
    if ¬ c.isOpen then pure c
    else if c.isStuck then if c.cut then c.finish else pure c
    else
      match ← c.next? with
      | none => pure c
      | some (encounter, c) => do work fuel (← c.react (Session.respond encounter))

/-- Lets the session work until it waits: it meets every change at most once, and every frame, and
perhaps a lag and the end. -/
def settle (c : Connection) : Act σ Connection := do
  let w ← get
  c.work ((w.channel.sent - c.receiver.next) + c.inbox.length + 2)

def send (f : Frame) (c : Connection) : Connection :=
  if c.isOpen then { c with inbox := c.inbox ++ [f] } else c

/-- The client reads what has come so far, in order; the session goes on meanwhile, so that the rest
of what it had to send comes as well. -/
def read (c : Connection) : Act σ (List Letter × Connection) := do
  let w ← get
  drain ((w.channel.sent - c.receiver.next) + c.inbox.length + 2) c
where
  /-- Reads until there is nothing more, for at most so many times. -/
  drain : Nat → Connection → Act σ (List Letter × Connection)
    | 0, c => pure ([], c)
    | fuel + 1, c => do
      let letters := c.unread.reverse
      if letters = [] then pure ([], c)
      else do
        let c ← settle { c with unread := [], pending := 0 }
        let (more, c) ← drain fuel c
        pure (letters ++ more, c)

end Connection

end SpoolTag
