import SpoolTag.Toml.Scalar

/-!
# Configuration files

A file is a sequence of statements, each on a line of its own, with comments and empty lines between
them. Values may be nested in arrays and tables between braces, to a limited depth.
-/

namespace SpoolTag.Toml

/-- Passes over blanks. -/
def blanks : Reader Unit := do
  let _ ← Reader.many isBlank

/-- Passes over a comment, if there is one. -/
def comment : Reader Unit := do
  if (← get).head? = some '#' then
    let _ ← Reader.many isPlain

/-- Passes over the end of a line; the text may end there. -/
def lineEnd : Reader Unit := fun
  | [] => some ((), [])
  | '\n' :: rest => some ((), rest)
  | '\r' :: '\n' :: rest => some ((), rest)
  | _ => none

/-- Passes over what may follow a statement on its line. -/
def statementEnd : Reader Unit := do
  blanks
  comment
  lineEnd

/-- What follows blanks, comments and line ends, or no result where a comment or a line end is
malformed; the text starts within a comment or outside of one. -/
def afterGap : Bool → List Char → Option (List Char)
  | _, [] => some []
  | _, '\n' :: rest => afterGap false rest
  | _, '\r' :: '\n' :: rest => afterGap false rest
  | true, c :: rest => if isPlain c then afterGap true rest else none
  | false, '#' :: rest => afterGap true rest
  | false, c :: rest =>
    if isBlank c then afterGap false rest else if c = '\r' then none else some (c :: rest)

/-- Passes over blanks, comments and line ends. -/
def gap : Reader Unit := fun text => (afterGap false text).map fun rest => ((), rest)

/-! ### Keys -/

/-- The deepest nesting of values, and the most keys joined by dots. -/
def maxDepth : Nat := 79

/-- A character of a key without quotation marks. -/
def isBare (c : Char) : Bool := c.isAlphanum || c = '-' || c = '_'

def simpleKey : Reader String := do
  match ← get with
  | '"' :: _ | '\x27' :: _ => return String.ofList (← lineString)
  | _ =>
    let text ← Reader.many isBare
    if text.isEmpty then failure else pure (String.ofList text)

/-- Keys joined by dots, at most so many: those before the last one, and the last one. -/
def dottedKey : Nat → Reader (List String × String)
  | 0 => failure
  | fuel + 1 => do
    blanks
    let key ← simpleKey
    blanks
    match ← get with
    | '.' :: rest =>
      set rest
      let (keys, last) ← dottedKey fuel
      pure (key :: keys, last)
    | _ => pure ([], key)

def key : Reader (List String × String) := dottedKey maxDepth

/-! ### Values -/

/-- The rest of an array after its bracket; `fuel` bounds the elements. -/
def elements (value : Reader Item) : Nat → Reader (List Item)
  | 0 => failure
  | fuel + 1 => do
    gap
    match ← get with
    | ']' :: rest =>
      set rest
      pure []
    | _ =>
      let item ← value
      gap
      match ← get with
      | ',' :: rest =>
        set rest
        let items ← elements value fuel
        pure (item :: items)
      | ']' :: rest =>
        set rest
        pure [item]
      | _ => failure

/-- A key, an equals sign and a value. -/
def pair (value : Reader Item) : Reader (List String × String × Item) := do
  let (keys, key) ← key
  Reader.exactly ['=']
  blanks
  let item ← value
  pure (keys, key, item)

/-- The rest of a table between braces after its first brace, once that is not its last one; `fuel`
bounds the entries. -/
def bracedPairs (value : Reader Item) : Nat → Entries → Reader Entries
  | 0, _ => failure
  | fuel + 1, entries => do
    let (keys, key, item) ← pair value
    let entries ← (entries.assign keys key item .braces : Option Entries)
    blanks
    match ← get with
    | ',' :: rest =>
      set rest
      bracedPairs value fuel entries
    | '}' :: rest =>
      set rest
      pure entries
    | _ => failure

/-- A value in which arrays and tables nest at most so deep. -/
def value : Nat → Reader Item
  | 0 => scalar
  | depth + 1 => do
    match ← get with
    | '[' :: rest =>
      set rest
      return .array (← elements (value depth) (rest.length + 1))
    | '{' :: rest =>
      set rest
      blanks
      match ← get with
      | '}' :: rest =>
        set rest
        pure (.table .braces [])
      | _ => return .table .braces (← bracedPairs (value depth) (rest.length + 1) [])
    | _ => scalar

/-! ### Statements -/

def statement : Reader Statement := do
  match ← get with
  | '[' :: '[' :: rest =>
    set rest
    let (keys, key) ← key
    Reader.exactly [']', ']']
    pure (.repeated keys key)
  | '[' :: rest =>
    set rest
    let (keys, key) ← key
    Reader.exactly [']']
    pure (.table keys key)
  | _ =>
    let (keys, key, item) ← pair (value maxDepth)
    pure (.assign keys key item)

/-- The statements of a text; `fuel` bounds its lines. -/
def statements : Nat → Reader (List Statement)
  | 0 => failure
  | fuel + 1 => do
    gap
    if (← get).isEmpty then pure []
    else
      let first ← statement
      statementEnd
      let rest ← statements fuel
      pure (first :: rest)

/-- The table that a text describes; a byte order mark may come first. -/
def ofText (text : List Char) : Option Entries := do
  let text := if text.head? = some '\ufeff' then text.drop 1 else text
  let (all, _) ← statements (text.length + 1) text
  Statement.build [] [] all

end SpoolTag.Toml
