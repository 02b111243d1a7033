import SpoolTag.Json.Event
import SpoolTag.Json.Number
import SpoolTag.Text.Quoted

/-!
# Why a document is not read

Either the text is no document, or the document does not fit what is to be read from it. The second
case has several causes; `Mismatch.message` words them.
-/

namespace SpoolTag.Json

open SpoolTag.Number

/-- What a reader found in place of what it needs. -/
inductive Found where
  | null
  | bool (b : Bool)
  | number (n : Number)
  | string (s : String)
  | sequence
  | map
  deriving DecidableEq, Repr

def Found.message : Found → String
  | .null => "null"
  | .bool true => "boolean `true`"
  | .bool false => "boolean `false`"
  | .number (.integer i) => "integer `" ++ String.ofList (Numeral.ofInt i).text ++ "`"
  | .number n => "floating point `" ++ String.ofList n.numeral.text ++ "`"
  | .string s => s!"string {Text.quoted s}"
  | .sequence => "sequence"
  | .map => "map"

/-- How a document differs from what is to be read from it. -/
inductive Mismatch where
  | missingField (name : String)
  | duplicateField (name : String)
  | wrongType (found : Found) (expected : String)
  | outOfRange (i : Int) (expected : String)
  | unknownVariant (found : String) (known : List String)
  | noVariant (type : String)
  | wrongLength (length : Nat) (expected : String)
  deriving DecidableEq, Repr

def Mismatch.message : Mismatch → String
  | .missingField name => s!"missing field `{name}`"
  | .duplicateField name => s!"duplicate field `{name}`"
  | .wrongType found expected => s!"invalid type: {found.message}, expected {expected}"
  | .outOfRange i expected =>
    "invalid value: integer `" ++ String.ofList (Numeral.ofInt i).text ++ s!"`, expected {expected}"
  | .unknownVariant found known =>
    s!"unknown variant `{found}`, expected one of " ++
      String.intercalate ", " (known.map fun name => "`" ++ name ++ "`")
  | .noVariant type => s!"data did not match any variant of untagged enum {type}"
  | .wrongLength length expected => s!"invalid length {length}, expected {expected}"

/-- Why nothing was read. -/
inductive ReadError where
  | notJson
  /-- The document does not fit; a value that is at fault is named by its field. -/
  | mismatch (field : Option String) (cause : Mismatch)
  deriving DecidableEq, Repr

/-- Where reading came to a halt, and why: so many events follow the one at fault. -/
structure Halt where
  error : ReadError
  left : Nat
  deriving DecidableEq, Repr

/-- A failure to read at the event before the given ones. -/
def ReadError.before {α : Type} (rest : List Event) (read : Except ReadError α) : Except Halt α :=
  read.mapError fun error => ⟨error, rest.length⟩

/-- What stands at an event that starts a value, as far as it has a meaning. -/
def Event.found? : Event → Option Found
  | .null => some .null
  | .bool b => some (.bool b)
  | .number n => (Number.ofNumeral? n).map .number
  | .string text? => text?.map fun text => .string (String.ofList text)
  | .openArray => some .sequence
  | .openObject => some .map
  | _ => none

/-- The error of a reader that needs something else than the value that starts here. -/
def Event.unfit (e : Event) (field : Option String) (expected : String) : ReadError :=
  match e.found? with
  | some found => .mismatch field (.wrongType found expected)
  | none => .notJson

/-- The integer in the range from `low` to `high` that stands here. -/
def Event.integer (e : Event) (field : Option String) (low high : Int) (expected : String) :
    Except ReadError Int :=
  match e.found? with
  | some (.number (.integer i)) =>
    if low ≤ i ∧ i ≤ high then .ok i else .error (.mismatch field (.outOfRange i expected))
  | _ => .error (e.unfit field expected)

def Event.int32 (e : Event) (field : Option String) : Except ReadError Int32 :=
  (e.integer field (-2147483648) 2147483647 "i32").map Int32.ofInt

def Event.byte (e : Event) (field : Option String) : Except ReadError UInt8 :=
  (e.integer field 0 255 "u8").map fun i => UInt8.ofNat i.toNat

def Event.boolean (e : Event) (field : Option String) : Except ReadError Bool :=
  match e with
  | .bool b => .ok b
  | _ => .error (e.unfit field "a boolean")

def Event.text (e : Event) (field : Option String) : Except ReadError String :=
  match e with
  | .string (some text) => .ok (String.ofList text)
  | _ => .error (e.unfit field "a string")

/-- Whether what stands at an event has a meaning: its string can be spelled out and its number can
be worked out. -/
def Event.hasMeaning : Event → Bool
  | .number n => (Number.ofNumeral? n).isSome
  | .string text? | .key text? => text?.isSome
  | _ => true

/-- The deepest nesting of arrays and objects that a reader follows. -/
def maxDepth : Nat := 127

/-- Passes over the rest of a value inside `outer` brackets, of which `depth` brackets in all are
open; what is passed over has to have a meaning and must not nest too deep. -/
def skipInside (outer : Nat) : Nat → List Event → Option (List Event)
  | _, [] => none
  | depth, e :: rest =>
    if ¬ e.hasMeaning then none
    else
      match e with
      | .openArray | .openObject =>
        if depth < maxDepth then skipInside outer (depth + 1) rest else none
      | .closeArray | .closeObject =>
        if depth ≤ outer + 1 then some rest else skipInside outer (depth - 1) rest
      | _ => skipInside outer depth rest

end SpoolTag.Json
