import SpoolTag.Manager.Records
import SpoolTag.Record.Reading

/-!
# What the daemon tells its clients

A `Sighting` is what one look at the device found: the status and, when the tag can be read, the
record on it. A `Change` is a sighting together with its time; clients get it as one flat object.
-/

namespace SpoolTag

open SpoolTag.Json

/-- What one look at the device found. -/
structure Sighting where
  status : Status
  record : Option Record
  deriving DecidableEq

/-- Reads the status and, when there is a record, the record. -/
def Manager.look (m : Manager) : Attempt Sighting := do
  let status ← m.readStatus
  if status.hasRecord then
    let record ← m.readRecord
    pure ⟨status, some record⟩
  else
    pure ⟨status, none⟩

/-- A sighting and the time at which it was made, as it is written. -/
structure Change where
  sighting : Sighting
  time : String
  deriving DecidableEq

namespace Change

def status (c : Change) : Status := c.sighting.status

def notification : String := "filaman:filament_changed"

/-- The change as the members of an object. -/
def members (c : Change) : List (String × Document) :=
  c.sighting.status.members ++ (c.sighting.record.elim [] Record.members) ++
    [("timestamp", .string c.time)]

def document (c : Change) : Document := .object c.members

def text (c : Change) : String := String.ofList c.document.text

end Change

end SpoolTag
