import SpoolTag.Json.Token

/-!
# The events of a document

Reading a document is a walk along its events: brackets open and close, keys and scalars go by.
Events come out one by one as the tokens are met, and stop at the first token that is out of place,
so a reader sees what stands before the place where a text goes wrong. A text that is a document
from end to end is closed by `Event.finish`.
-/

namespace SpoolTag.Json

open SpoolTag.Number

/-- What a reader of a document meets. -/
inductive Event where
  | null
  | bool (b : Bool)
  | number (n : Numeral)
  | string (text? : Option (List Char))
  | openArray
  | closeArray
  | openObject
  | closeObject
  | key (text? : Option (List Char))
  /-- The end of the document and of the text. -/
  | finish
  deriving DecidableEq, Repr

namespace Event

/-- A bracket that is still open. -/
inductive Frame where
  | array
  | object
  deriving DecidableEq, Repr

/-- What may come next: a value, a value or the end of the array just opened, a key, a key or the
end of the object just opened, a colon, or a separator or end after a value. -/
inductive Expect where
  | value
  | firstValue
  | key
  | firstKey
  | colon
  | more
  deriving DecidableEq, Repr

/-- The state after one token, and the event it brings, if any. -/
structure Step where
  event : Option Event
  expect : Expect
  frames : List Frame
  deriving DecidableEq, Repr

/-- The step for a token that starts a value. -/
def startValue? (frames : List Frame) : Token → Option Step
  | .null => some ⟨some .null, .more, frames⟩
  | .bool b => some ⟨some (.bool b), .more, frames⟩
  | .number n => some ⟨some (.number n), .more, frames⟩
  | .string text? => some ⟨some (.string text?), .more, frames⟩
  | .openArray => some ⟨some .openArray, .firstValue, .array :: frames⟩
  | .openObject => some ⟨some .openObject, .firstKey, .object :: frames⟩
  | _ => none

/-- The step for one token, if it is in place. -/
def step? : Expect → List Frame → Token → Option Step
  | .value, frames, t => startValue? frames t
  | .firstValue, .array :: frames, .closeArray => some ⟨some .closeArray, .more, frames⟩
  | .firstValue, frames, t => startValue? frames t
  | .firstKey, .object :: frames, .closeObject => some ⟨some .closeObject, .more, frames⟩
  | .firstKey, frames, .string text? => some ⟨some (.key text?), .colon, frames⟩
  | .key, frames, .string text? => some ⟨some (.key text?), .colon, frames⟩
  | .colon, frames, .colon => some ⟨none, .value, frames⟩
  | .more, .array :: frames, .comma => some ⟨none, .value, .array :: frames⟩
  | .more, .object :: frames, .comma => some ⟨none, .key, .object :: frames⟩
  | .more, .array :: frames, .closeArray => some ⟨some .closeArray, .more, frames⟩
  | .more, .object :: frames, .closeObject => some ⟨some .closeObject, .more, frames⟩
  | .more, [], .finish => some ⟨some .finish, .more, []⟩
  | _, _, _ => none

/-- The events of the tokens, up to the first token out of place. -/
def ofTokens (expect : Expect) (frames : List Frame) : List Token → List Event
  | [] => []
  | t :: rest =>
    match step? expect frames t with
    | none => []
    | some step => step.event.toList ++ ofTokens step.expect step.frames rest

/-- What follows each event, given what follows each token. -/
def trails (expect : Expect) (frames : List Frame) :
    List (Token × List Char) → List (List Char)
  | [] => []
  | (t, after) :: rest =>
    match step? expect frames t with
    | none => []
    | some step =>
      (step.event.toList.map fun _ => after) ++ trails step.expect step.frames rest

theorem length_trails (expect : Expect) (frames : List Frame) (ts : List (Token × List Char)) :
    (trails expect frames ts).length = (ofTokens expect frames (ts.map (·.1))).length := by
  induction ts generalizing expect frames with
  | nil => rfl
  | cons head rest ih =>
    obtain ⟨t, after⟩ := head
    simp only [trails, ofTokens, List.map_cons]
    split
    · rfl
    · simp [ih]

end Event

def events (text : List Char) : List Event := Event.ofTokens .value [] (tokens text)

/-- What follows each event of a text. -/
def trails (text : List Char) : List (List Char) := Event.trails .value [] (scan text)

theorem length_trails (text : List Char) : (trails text).length = (events text).length :=
  Event.length_trails .value [] (scan text)

end SpoolTag.Json
