import SpoolTag.Json.Position
import SpoolTag.Record
import SpoolTag.Value.Reading

/-!
# Records and status in documents

A record is an object with its four mandatory fields and its optional ones side by side. It is read
member by member: a mandatory field is checked when it is met, and a second one of the same name is
refused as soon as its key is. Of the other members those with a scalar are kept, the last one of a
name deciding; a last one that is no scalar leaves the name without a value. What is missing is
reported at the closing bracket.

A status is an object as well, or an array of its two flags. What else the object holds is passed
over without being looked into.
-/

namespace SpoolTag

open SpoolTag.Json

namespace Record

/-- The fields that every record has. -/
inductive Mandatory where
  | id
  | name
  | spoolWeight
  | totalWeight
  deriving DecidableEq, Repr

namespace Mandatory

def key : Mandatory → String
  | .id => "id"
  | .name => "name"
  | .spoolWeight => "spool_weight"
  | .totalWeight => "total_weight"

/-- The mandatory field with the given key. -/
def ofKey? (key : String) : Option Mandatory :=
  [id, name, spoolWeight, totalWeight].find? (·.key == key)

end Mandatory

/-- What has been read of a record. -/
structure Draft where
  id : Option Int32 := none
  name : Option String := none
  spoolWeight : Option Int32 := none
  totalWeight : Option Int32 := none
  optional : Fields := .empty

namespace Draft

/-- Whether a mandatory field has been read. -/
def has (d : Draft) : Mandatory → Bool
  | .id => d.id.isSome
  | .name => d.name.isSome
  | .spoolWeight => d.spoolWeight.isSome
  | .totalWeight => d.totalWeight.isSome

def take (d : Draft) (field : Mandatory) (e : Event) : Except ReadError Draft :=
  match field with
  | .id => do pure { d with id := some (← e.int32 (some field.key)) }
  | .name => do pure { d with name := some (← e.text (some field.key)) }
  | .spoolWeight => do pure { d with spoolWeight := some (← e.int32 (some field.key)) }
  | .totalWeight => do pure { d with totalWeight := some (← e.int32 (some field.key)) }

/-- A mandatory field, or the report that it is missing. -/
def need {α : Type} (field : Mandatory) : Option α → Except ReadError α
  | some a => .ok a
  | none => .error (.mismatch none (.missingField field.key))

/-- The record, once all its mandatory fields have been read. -/
def finish (d : Draft) : Except ReadError Record := do
  let id ← need .id d.id
  let name ← need .name d.name
  let spoolWeight ← need .spoolWeight d.spoolWeight
  let totalWeight ← need .totalWeight d.totalWeight
  pure { id, name, spoolWeight, totalWeight, optional := d.optional }

end Draft

/-- Where a reader stands in the object of a record. -/
inductive Place where
  /-- Before a key or the closing bracket. -/
  | member
  /-- Before the value of a mandatory field. -/
  | mandatory (field : Mandatory)
  /-- Before the value of another member. -/
  | other (key : String)
  /-- Inside the value of another member, with this many brackets open. -/
  | inside (depth : Nat)
  deriving DecidableEq, Repr

/-- Reads on in the object of a record. -/
def readFrom (d : Draft) : Place → List Event → Except Halt Record
  | _, [] => .error ⟨.notJson, 0⟩
  | .member, .closeObject :: rest => do
    let record ← ReadError.before rest d.finish
    if rest = [.finish] then pure record else throw ⟨.notJson, rest.length⟩
  | .member, .key (some text) :: rest =>
    let key := String.ofList text
    match Mandatory.ofKey? key with
    | none => readFrom d (.other key) rest
    | some field =>
      if d.has field then .error ⟨.mismatch none (.duplicateField key), rest.length⟩
      else readFrom d (.mandatory field) rest
  | .member, _ :: rest => .error ⟨.notJson, rest.length⟩
  | .mandatory field, e :: rest => do
    readFrom (← ReadError.before rest (d.take field e)) .member rest
  | .other key, e :: rest =>
    match Value.ofEvent? e, e with
    | some v, _ => readFrom { d with optional := d.optional.insert key v } .member rest
    | none, .openArray | none, .openObject =>
      readFrom { d with optional := d.optional.erase key } (.inside 2) rest
    | none, _ =>
      if e.hasMeaning then readFrom { d with optional := d.optional.erase key } .member rest
      else .error ⟨.notJson, rest.length⟩
  | .inside depth, e :: rest =>
    if ¬ e.hasMeaning then .error ⟨.notJson, rest.length⟩
    else
      match e with
      | .openArray | .openObject =>
        if depth < maxDepth then readFrom d (.inside (depth + 1)) rest
        else .error ⟨.notJson, rest.length⟩
      | .closeArray | .closeObject =>
        if depth ≤ 2 then readFrom d .member rest else readFrom d (.inside (depth - 1)) rest
      | _ => readFrom d (.inside depth) rest

/-- The record that is the whole of a document, given by its events. -/
def ofEvents : List Event → Except Halt Record
  | [] => .error ⟨.notJson, 0⟩
  | .openObject :: rest => readFrom {} .member rest
  | e :: rest => .error ⟨e.unfit none "struct FilamentRecord", rest.length⟩

/-- The record that is the whole of a text. -/
def ofText (text : List Char) : Except ReadError Record :=
  (ofEvents (events text)).mapError Halt.error

/-- The record that is the whole of a text given by its bytes; a text that is not well-formed UTF-8
breaks off at the first bad character. Why there is none is told together with the place where
reading came to a halt. -/
def ofBytes (bytes : List UInt8) : Except (ReadError × Position) Record :=
  let (text, fault) := Text.Utf8.decodePrefix bytes
  let events := if fault.isNone then events text else (events text).filter (· != .finish)
  match ofEvents events with
  | .ok record => .ok record
  | .error halt => .error (halt.error, halt.position text events.length)

/-- The record as the members of an object. -/
def members (r : Record) : List (String × Document) :=
  [(Mandatory.key .id, .int r.id.toInt),
   (Mandatory.key .name, .string r.name),
   (Mandatory.key .spoolWeight, .int r.spoolWeight.toInt),
   (Mandatory.key .totalWeight, .int r.totalWeight.toInt)] ++
    r.optional.entries.map fun (key, v) => (key, v.document)

def document (r : Record) : Document := .object r.members

end Record

namespace Status

def presentKey : String := "present"

def nfcValidKey : String := "nfc_valid"

/-- What a reader needs at the start of a status. -/
def expected : String := "struct StatusSnapshot"

/-- Where a reader stands in the object of a status. -/
inductive Place where
  /-- Before a key or the closing bracket. -/
  | member
  /-- Before the value of the first flag. -/
  | present
  /-- Before the value of the second flag. -/
  | nfcValid
  /-- Before the value of another member. -/
  | other
  /-- Inside the value of another member, with this many brackets of it open. -/
  | inside (depth : Nat)
  deriving DecidableEq, Repr

/-- Reads on in the object of a status. -/
def readFrom (present nfcValid : Option Bool) : Place → List Event → Except ReadError Status
  | _, [] => .error .notJson
  | .member, .closeObject :: rest =>
    match present, nfcValid with
    | some present, some nfcValid =>
      if rest = [.finish] then .ok ⟨present, nfcValid⟩ else .error .notJson
    | none, _ => .error (.mismatch none (.missingField presentKey))
    | _, none => .error (.mismatch none (.missingField nfcValidKey))
  | .member, .key (some text) :: rest =>
    let key := String.ofList text
    if key = presentKey then
      if present.isSome then .error (.mismatch none (.duplicateField key))
      else readFrom present nfcValid .present rest
    else if key = nfcValidKey then
      if nfcValid.isSome then .error (.mismatch none (.duplicateField key))
      else readFrom present nfcValid .nfcValid rest
    else readFrom present nfcValid .other rest
  | .member, _ => .error .notJson
  | .present, e :: rest => do readFrom (some (← e.boolean none)) nfcValid .member rest
  | .nfcValid, e :: rest => do readFrom present (some (← e.boolean none)) .member rest
  | .other, .openArray :: rest | .other, .openObject :: rest =>
    readFrom present nfcValid (.inside 1) rest
  | .other, _ :: rest => readFrom present nfcValid .member rest
  | .inside depth, .openArray :: rest | .inside depth, .openObject :: rest =>
    readFrom present nfcValid (.inside (depth + 1)) rest
  | .inside depth, .closeArray :: rest | .inside depth, .closeObject :: rest =>
    readFrom present nfcValid (if depth ≤ 1 then .member else .inside (depth - 1)) rest
  | .inside depth, _ :: rest => readFrom present nfcValid (.inside depth) rest

/-- Reads the array of the two flags, from the flag at the given position on. -/
def readFlags (flags : List Bool) : List Event → Except ReadError Status
  | [] => .error .notJson
  | .closeArray :: rest =>
    match flags with
    | [present, nfcValid] =>
      if rest = [.finish] then .ok ⟨present, nfcValid⟩ else .error .notJson
    | _ => .error (.mismatch none (.wrongLength flags.length (expected ++ " with 2 elements")))
  | e :: rest =>
    if 2 ≤ flags.length then .error .notJson
    else do readFlags (flags ++ [← e.boolean none]) rest

/-- The status that is the whole of a text. -/
def ofText (text : List Char) : Except ReadError Status :=
  match events text with
  | [] => .error .notJson
  | .openObject :: rest => readFrom none none .member rest
  | .openArray :: rest => readFlags [] rest
  | e :: _ => .error (e.unfit none expected)

/-- The status as the members of an object. -/
def members (s : Status) : List (String × Document) :=
  [(presentKey, .bool s.present), (nfcValidKey, .bool s.nfcValid)]

def document (s : Status) : Document := .object s.members

end Status

end SpoolTag
