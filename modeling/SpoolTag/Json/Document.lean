import SpoolTag.Json.Event
import SpoolTag.Number.Single

/-!
# Documents and their text

A document as a tree, with the members of an object in their order. `Document.text` writes it
without any blanks; `Document.indented` puts every member on a line of its own, two blanks deeper
than its object.
-/

namespace SpoolTag.Json

open SpoolTag.Number

/-- A document as a tree. -/
inductive Document where
  | null
  | bool (b : Bool)
  | number (n : Numeral)
  | string (s : String)
  | array (elements : List Document)
  | object (members : List (String × Document))

/-- A character of a string as it is written between quotes. -/
def escape (c : Char) : List Char :=
  if c = '"' then ['\\', '"']
  else if c = '\\' then ['\\', '\\']
  else if c = '\x08' then ['\\', 'b']
  else if c = '\x0c' then ['\\', 'f']
  else if c = '\n' then ['\\', 'n']
  else if c = '\r' then ['\\', 'r']
  else if c = '\t' then ['\\', 't']
  else if c < ' ' then
    ['\\', 'u', '0', '0', Text.hexDigit (c.toNat / 16), Text.hexDigit c.toNat]
  else [c]

def quote (s : String) : List Char := '"' :: s.toList.flatMap escape ++ ['"']

namespace Document

def int (i : Int) : Document := .number (.ofInt i)

/-- The number of a single-precision value; one that is not finite is null. -/
def single (x : Single) : Document :=
  match x.numeral? with
  | some n => .number n
  | none => .null

mutual

/-- The text of a document, without blanks. -/
def text : Document → List Char
  | .null => ['n', 'u', 'l', 'l']
  | .bool true => ['t', 'r', 'u', 'e']
  | .bool false => ['f', 'a', 'l', 's', 'e']
  | .number n => n.text
  | .string s => quote s
  | .array elements => '[' :: elementsText elements ++ [']']
  | .object members => '{' :: membersText members ++ ['}']

/-- The elements of an array, separated by commas. -/
def elementsText : List Document → List Char
  | [] => []
  | [d] => text d
  | d :: rest => text d ++ ',' :: elementsText rest

/-- The members of an object, separated by commas. -/
def membersText : List (String × Document) → List Char
  | [] => []
  | [(key, d)] => quote key ++ ':' :: text d
  | (key, d) :: rest => quote key ++ ':' :: text d ++ ',' :: membersText rest

end

/-- A new line at a depth of indentation. -/
def newLine (depth : Nat) : List Char := '\n' :: List.replicate (2 * depth) ' '

mutual

/-- The text of a document with one member or element on a line. -/
def indentedAt (depth : Nat) : Document → List Char
  | .array [] => ['[', ']']
  | .array (d :: rest) =>
    '[' :: newLine (depth + 1) ++ indentedAt (depth + 1) d ++
      elementsIndented (depth + 1) rest ++ newLine depth ++ [']']
  | .object [] => ['{', '}']
  | .object ((key, d) :: rest) =>
    '{' :: newLine (depth + 1) ++ quote key ++ ':' :: ' ' :: indentedAt (depth + 1) d ++
      membersIndented (depth + 1) rest ++ newLine depth ++ ['}']
  | d => text d

def elementsIndented (depth : Nat) : List Document → List Char
  | [] => []
  | d :: rest => ',' :: newLine depth ++ indentedAt depth d ++ elementsIndented depth rest

def membersIndented (depth : Nat) : List (String × Document) → List Char
  | [] => []
  | (key, d) :: rest =>
    ',' :: newLine depth ++ quote key ++ ':' :: ' ' :: indentedAt depth d ++
      membersIndented depth rest

end

/-- The text of a document with one member or element on a line. -/
def indented (d : Document) : List Char := indentedAt 0 d

end Document

end SpoolTag.Json
