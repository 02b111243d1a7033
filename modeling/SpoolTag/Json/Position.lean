import SpoolTag.Json.ReadError
import SpoolTag.Text.Utf8

/-!
# Places in a text

Reports about a document name the place where reading came to a halt, by the line and by the number
of bytes that have been read of it. A value at fault has been read to its end, except that an array
or an object is reported before its bracket. After a key that occurs twice the reader looks for the
end of the object, so that blanks and a closing bracket right after it count as read.
-/

namespace SpoolTag.Json

/-- A place in a text. -/
structure Position where
  line : Nat
  column : Nat
  deriving DecidableEq, Repr

namespace Position

def after (text : List Char) : Position :=
  { line := text.count '\n' + 1
    column := (Text.Utf8.encode (text.reverse.takeWhile (· != '\n'))).length }

def shown (p : Position) : String := s!" at line {p.line} column {p.column}"

end Position

namespace Halt

/-- The number of characters that have not been read, given what follows the event at fault. -/
def unread (h : Halt) (rest : List Char) : Nat :=
  match h.error with
  | .mismatch _ (.wrongType .sequence _) | .mismatch _ (.wrongType .map _) => rest.length + 1
  | .mismatch _ (.duplicateField _) =>
    match rest.dropWhile Token.isBlank with
    | '}' :: rest => rest.length
    | rest => rest.length
  | _ => rest.length

/-- The place in a text at which reading came to a halt after so many events had been offered. -/
def position (h : Halt) (text : List Char) (offered : Nat) : Position :=
  let rest := ((trails text)[offered - 1 - h.left]?).getD []
  .after (text.take (text.length - h.unread rest))

end Halt

end SpoolTag.Json
