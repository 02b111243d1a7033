/-!
# Media types

The type of a body is named by two words around a slash; a last plus sign inside the second word
splits a suffix off it. Parameters may follow, each a word, an equals sign and a word or a quoted
text. Letters are the same in either case.
-/

namespace SpoolTag.Http

/-- The name of a media type without its parameters, in small letters. -/
structure MediaType where
  type : List Char
  subtype : List Char
  suffix : Option (List Char)
  deriving DecidableEq, Repr

namespace MediaType

/-- The characters of a word besides letters and digits. -/
def tokenMarks : List Char :=
  ['!', '#', '$', '%', '&', '\x27', '*', '+', '-', '.', '^', '_', '\x60', '|', '~']

/-- The characters of a word. -/
def isToken (c : Char) : Bool := c.isAlphanum || tokenMarks.contains c

/-- The characters of a quoted text. -/
def isQuotable (c : Char) : Bool := ' ' ≤ c && c < '\x7f'

/-- Where a reader stands in a list of parameters. -/
inductive Place where
  /-- Before a parameter. -/
  | start
  | name
  /-- After the equals sign. -/
  | valueStart
  | value
  /-- After the opening quote, where a quote is part of the text. -/
  | quotedStart
  | quoted
  /-- After the closing quote. -/
  | quotedEnd

/-- Whether a text is a list of parameters. -/
def areParameters : Place → List Char → Bool
  | .start, [] => true
  | .start, c :: rest =>
    if c = ' ' then areParameters .start rest else isToken c && areParameters .name rest
  | .name, [] => false
  | .name, c :: rest =>
    if c = '=' then areParameters .valueStart rest else isToken c && areParameters .name rest
  | .valueStart, [] => true
  | .valueStart, c :: rest =>
    if c = '"' then areParameters .quotedStart rest else isToken c && areParameters .value rest
  | .value, [] => true
  | .value, c :: rest =>
    if c = ';' then areParameters .start rest else isToken c && areParameters .value rest
  | .quotedStart, [] => false
  | .quotedStart, c :: rest => isQuotable c && areParameters .quoted rest
  | .quoted, [] => false
  | .quoted, c :: rest =>
    if c = '"' then areParameters .quotedEnd rest else isQuotable c && areParameters .quoted rest
  | .quotedEnd, [] => true
  | .quotedEnd, c :: rest =>
    if c = ';' then areParameters .start rest else c = ' ' && areParameters .quotedEnd rest

/-- Splits the second word at its last plus sign, unless that comes first. -/
def splitSuffix (word : List Char) : List Char × Option (List Char) :=
  let suffix := (word.reverse.takeWhile (· != '+')).reverse
  if suffix.length + 1 < word.length then
    (word.take (word.length - suffix.length - 1), some suffix)
  else (word, none)

/-- The media type that a text names. -/
def ofText? (text : List Char) : Option MediaType :=
  let type := text.takeWhile isToken
  match text.dropWhile isToken with
  | '/' :: rest =>
    let word := rest.takeWhile isToken
    let parameters := rest.dropWhile isToken
    let (subtype, suffix) := splitSuffix word
    let name : MediaType :=
      ⟨type.map Char.toLower, subtype.map Char.toLower, suffix.map (·.map Char.toLower)⟩
    if type = [] then none
    else
      match parameters with
      | [] => some name
      | ';' :: rest => if word ≠ [] ∧ areParameters .start rest then some name else none
      | _ => none
  | _ => none

/-- Whether bodies of a type are JSON documents. -/
def isJson (m : MediaType) : Bool :=
  m.type == ['a', 'p', 'p', 'l', 'i', 'c', 'a', 't', 'i', 'o', 'n'] &&
    (m.subtype == ['j', 's', 'o', 'n'] || m.suffix == some ['j', 's', 'o', 'n'])

end MediaType

end SpoolTag.Http
