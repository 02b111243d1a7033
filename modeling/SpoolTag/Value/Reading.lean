import SpoolTag.Bitmap
import SpoolTag.Json.Document
import SpoolTag.Json.ReadError

/-!
# Scalars in documents

A value is a bare scalar of a document: a truth value, a number, or nothing else. An integer that
fits 32 bits is read as such, every other number as the nearest single-precision one; a byte is
written as an integer and so is never read back as a byte.
-/

namespace SpoolTag

open SpoolTag.Json

namespace Value

def ofNumber : Number → Value
  | .integer i => if inInt32 i then .int32 (Int32.ofInt i) else .float32 (.ofInt i)
  | n => .float32 n.toSingle

/-- The value that stands at an event, if it is a scalar. -/
def ofEvent? : Event → Option Value
  | .bool b => some (.bool b)
  | .number n => (Number.ofNumeral? n).map ofNumber
  | _ => none

/-- The value that is the whole of a text. A nested text is read to its end before it is found
not to be a value. -/
def ofText (text : List Char) : Except ReadError Value :=
  let misfit : ReadError := .mismatch none (.noVariant "Value")
  match events text with
  | [] => .error .notJson
  | e :: rest =>
    match ofEvent? e, e with
    | some v, _ => if rest = [.finish] then .ok v else .error .notJson
    | none, .openArray | none, .openObject =>
      .error (if (skipInside 0 1 rest).isSome then misfit else .notJson)
    | none, _ => .error (if e.hasMeaning then misfit else .notJson)

def document : Value → Document
  | .bool b => .bool b
  | .int32 i => .int i.toInt
  | .float32 x => .single x
  | .byte b => .int b.toNat

end Value

namespace Kind

/-- The kind whose name stands at a token, as far as it gets. -/
def ofToken : Token → Except ReadError Kind
  | .string (some text) =>
    match ofName? (String.ofList text) with
    | some kind => .ok kind
    | none =>
      .error (.mismatch none (.unknownVariant (String.ofList text) (all.map Kind.name)))
  | _ => .error .notJson

/-- What stands at a token that starts a value. -/
def found? : Token → Option Found
  | .null => some .null
  | .bool b => some (.bool b)
  | .number n => (Number.ofNumeral? n).map .number
  | .string text? => text?.map fun text => .string (String.ofList text)
  | .openArray => some .sequence
  | .openObject => some .map
  | _ => none

/-- The error for a token that starts another value than the one needed. -/
def unfit (t : Token) (expected : String) : ReadError :=
  match found? t with
  | some found => .mismatch none (.wrongType found expected)
  | none => .notJson

/-- The kind that a text names: by a string, or by the key of an object with the one member
null. -/
def ofText (text : List Char) : Except ReadError Kind :=
  match tokens text with
  | .string name :: rest => do
    let kind ← ofToken (.string name)
    if rest = [.finish] then pure kind else throw .notJson
  | .openObject :: .string name :: rest => do
    let kind ← ofToken (.string name)
    match rest with
    | [.colon, .null, .closeObject, .finish] => pure kind
    | .colon :: .null :: _ => throw .notJson
    | .colon :: t :: _ => throw (unfit t "unit")
    | _ => throw .notJson
  | _ => throw .notJson

end Kind

namespace Bitmap

/-- The bitmap whose byte is the whole of a text. -/
def ofText (text : List Char) : Except ReadError Bitmap :=
  match events text with
  | [] => .error .notJson
  | e :: rest => do
    let bits ← e.byte none
    if rest = [.finish] then pure ⟨bits⟩ else throw .notJson

def document (m : Bitmap) : Document := .int m.bits.toNat

end Bitmap

end SpoolTag
