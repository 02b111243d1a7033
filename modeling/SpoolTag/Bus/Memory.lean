import SpoolTag.Bus.Dialog

/-!
# Registers in memory

A bus that keeps what was written and reads it back. Only attached devices acknowledge; what was
written to a device stays when it is detached. The latest transactions are kept, those that failed
included.
-/

namespace SpoolTag

/-- Bytes cut to a length, or filled up with zeros. -/
def padTo (count : Nat) (bytes : List UInt8) : List UInt8 :=
  bytes.take count ++ List.replicate (count - bytes.length) 0

@[simp] theorem length_padTo (count : Nat) (bytes : List UInt8) :
    (padTo count bytes).length = count := by
  simp only [padTo, List.length_append, List.length_take, List.length_replicate]
  omega

/-- The contents of registers, by device and register. -/
abbrev Contents := List ((UInt8 × UInt8) × List UInt8)

namespace Contents

def get? (place : UInt8 × UInt8) : Contents → Option (List UInt8)
  | [] => none
  | (p, bytes) :: rest => if p = place then some bytes else get? place rest

def set (place : UInt8 × UInt8) (bytes : List UInt8) : Contents → Contents
  | [] => [(place, bytes)]
  | (p, old) :: rest =>
    if p = place then (p, bytes) :: rest else (p, old) :: set place bytes rest

theorem get?_set (place other : UInt8 × UInt8) (bytes : List UInt8) (contents : Contents) :
    get? other (set place bytes contents) =
      if place = other then some bytes else get? other contents := by
  induction contents with
  | nil => simp [set, get?]
  | cons head rest ih =>
    obtain ⟨p, old⟩ := head
    rw [set]
    split
    · next h =>
      subst h
      by_cases h : p = other <;> simp [get?, h]
    · next h =>
      by_cases hp : p = other
      · subst hp
        simp [get?, Ne.symm h]
      · simp [get?, hp, ih]

end Contents

/-- Registers in memory, with the devices that acknowledge and the latest transactions, the newest
first. -/
structure Memory where
  attached : List UInt8 := []
  contents : Contents := []
  recent : List Request := []

namespace Memory

/-- How many transactions are kept. -/
def capacity : Nat := 1024

def attach (m : Memory) (device : UInt8) : Memory :=
  { m with attached := device :: m.attached.filter (· != device) }

def detach (m : Memory) (device : UInt8) : Memory :=
  { m with attached := m.attached.filter (· != device) }

def get? (m : Memory) (device register : UInt8) : Option (List UInt8) :=
  m.contents.get? (device, register)

/-- Puts bytes into a register without a transaction. -/
def set (m : Memory) (device register : UInt8) (bytes : List UInt8) : Memory :=
  { m with contents := m.contents.set (device, register) bytes }

def clear (m : Memory) : Memory := { m with recent := [] }

/-- The transactions that are kept, in order. -/
def transactions (m : Memory) : List Request := m.recent.reverse

/-- The registers of the writes that are kept, in order. -/
def writeAddresses (m : Memory) : List UInt8 :=
  m.transactions.filterMap fun
    | .write _ register _ => some register
    | _ => none

/-- Keeps a transaction, and drops the oldest one when there are too many. -/
def record (m : Memory) (r : Request) : Memory :=
  { m with recent := (r :: m.recent).take capacity }

def answer (r : Request) (m : Memory) : Answer Memory :=
  let m := m.record r
  if ¬ m.attached.contains r.device then ⟨.error (.noAcknowledge r.device), [], m⟩
  else
    match r with
    | .probe _ => ⟨.ok [], [], m⟩
    | .read device register count =>
      ⟨.ok (padTo count ((m.get? device register).getD [])),
        [.memoryRead device register count], m⟩
    | .write device register bytes =>
      ⟨.ok [], [.memoryWrite device register bytes.length], m.set device register bytes⟩

def bus : Bus Memory := ⟨answer⟩

end Memory

end SpoolTag
