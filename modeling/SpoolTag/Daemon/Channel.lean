/-!
# The channel

Everything that is sent on a channel reaches every receiver, in the order of sending. The channel
keeps the latest items only; a receiver that is further behind is first told how many items it has
missed and then goes on with the oldest one kept.
-/

namespace SpoolTag

/-- The latest items of a channel, the newest first, with the number of all items ever sent and the
number of receivers. -/
structure Channel (α : Type) where
  kept : List α := []
  sent : Nat := 0
  listening : Nat := 0

/-- The number of the item that a receiver gets next. -/
structure Receiver where
  next : Nat
  deriving DecidableEq, Repr

/-- What a receiver gets. -/
inductive Received (α : Type) where
  | item (a : α)
  /-- So many items are no longer kept. -/
  | lagged (missed : Nat)
  | nothing

namespace Channel

variable {α : Type}

/-- How many items are kept. -/
def capacity : Nat := 128

def send (a : α) (c : Channel α) : Channel α :=
  { c with kept := (a :: c.kept).take capacity, sent := c.sent + 1 }

/-- A new receiver, for whatever is sent from now on. -/
def subscribe (c : Channel α) : Receiver × Channel α :=
  (⟨c.sent⟩, { c with listening := c.listening + 1 })

def leave (c : Channel α) : Channel α := { c with listening := c.listening - 1 }

/-- The number of the oldest item that is kept. -/
def oldest (c : Channel α) : Nat := c.sent - c.kept.length

/-- The item with a number, if it is kept. -/
def item? (c : Channel α) (number : Nat) : Option α := c.kept[c.sent - 1 - number]?

/-- What a receiver gets next, and where that leaves it. -/
def receive (c : Channel α) (r : Receiver) : Received α × Receiver :=
  if c.sent ≤ r.next then (.nothing, r)
  else if r.next < c.oldest then (.lagged (c.oldest - r.next), ⟨c.oldest⟩)
  else
    match c.item? r.next with
    | some a => (.item a, ⟨r.next + 1⟩)
    | none => (.nothing, r)

end Channel

end SpoolTag
