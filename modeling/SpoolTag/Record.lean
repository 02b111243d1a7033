import SpoolTag.Fields

/-!
# Records and status

A record is what the tag of a spool says about the filament on it. The status tells whether there
is a spool and whether its tag can be read.
-/

namespace SpoolTag

/-- The two flags the device reports. -/
structure Status where
  present : Bool
  nfcValid : Bool
  deriving DecidableEq, Repr

/-- A record can be read only when both flags are set. -/
def Status.hasRecord (s : Status) : Bool := s.present && s.nfcValid

/-- The contents of a tag: four fields that are always there, and the optional ones by name. -/
structure Record where
  id : Int32
  name : String
  spoolWeight : Int32
  totalWeight : Int32
  optional : Fields := .empty
  deriving DecidableEq

namespace Record

/-- Puts a value into an optional field. -/
def withField (r : Record) (name : String) (v : Value) : Record :=
  { r with optional := r.optional.insert name v }

def field? (r : Record) (name : String) : Option Value := r.optional.get? name

/-- Equality of records with numbers compared as numbers. -/
def same (a b : Record) : Bool :=
  a.id == b.id && a.name == b.name && a.spoolWeight == b.spoolWeight &&
    a.totalWeight == b.totalWeight && a.optional.same b.optional

end Record

end SpoolTag
