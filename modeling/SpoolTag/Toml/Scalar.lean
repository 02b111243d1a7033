import SpoolTag.Number.Binary
import SpoolTag.Text.Hex
import SpoolTag.Toml.Table

/-!
# Scalars of a configuration file

Strings in their four forms, integers in four bases, floating-point numbers, truth values, and dates
and times. A reader takes what it needs from the front of the text and leaves the rest.
-/

namespace SpoolTag.Toml

/-- What takes something from the front of a text, or fails. -/
abbrev Reader (α : Type) := StateT (List Char) Option α

namespace Reader

variable {α : Type}

def one (p : Char → Bool) : Reader Char := fun
  | c :: rest => if p c then some (c, rest) else none
  | [] => none

/-- Takes characters of a kind as long as there are any. -/
def many (p : Char → Bool) : Reader (List Char) := fun text =>
  some (text.takeWhile p, text.dropWhile p)

def exactly : List Char → Reader Unit
  | [] => pure ()
  | c :: rest => do
    let _ ← one (· = c)
    exactly rest

/-- The first of two readers that succeeds. -/
def orElse (a b : Reader α) : Reader α := fun text => a text <|> b text

def optional (a : Reader α) : Reader (Option α) := fun text =>
  match a text with
  | some (x, rest) => some (some x, rest)
  | none => some (none, text)

/-- Takes that many digits, and gives their number if it lies in a range. -/
def digits (count low high : Nat) : Reader Nat := fun text =>
  let taken := text.take count
  let n := Nat.ofDigitChars 10 taken 0
  if taken.length = count ∧ taken.all Char.isDigit ∧ low ≤ n ∧ n ≤ high then
    some (n, text.drop count)
  else none

end Reader

def isBlank (c : Char) : Bool := c = ' ' || c = '\t'

/-- A character that may stand in a comment, and in strings as far as it does not end them. -/
def isPlain (c : Char) : Bool := c = '\t' || (' ' ≤ c && c != '\x7f')

/-! ### Strings -/

def scalar? (n : Nat) : Option Char :=
  if n < 0xD800 ∨ (0xDFFF < n ∧ n < 0x110000) then some (Char.ofNat n) else none

/-- The character that stands for itself and a backslash before it. -/
def escape? : Char → Option Char
  | 'b' => some '\x08'
  | 't' => some '\t'
  | 'n' => some '\n'
  | 'f' => some '\x0c'
  | 'r' => some '\r'
  | '"' => some '"'
  | '\\' => some '\\'
  | _ => none

/-- What follows a backslash that writes a character. -/
def escaped : Reader Char := fun
  | 'u' :: rest => do
    let c ← Text.number? 16 (rest.take 4) >>= scalar?
    if 4 ≤ rest.length then some (c, rest.drop 4) else none
  | 'U' :: rest => do
    let c ← Text.number? 16 (rest.take 8) >>= scalar?
    if 8 ≤ rest.length then some (c, rest.drop 8) else none
  | c :: rest => (escape? c).map fun c => (c, rest)
  | [] => none

/-- The rest of a string between single quotation marks. -/
def literalRest : Reader (List Char) := do
  let text ← Reader.many fun c => isPlain c && c != '\x27'
  Reader.exactly ['\x27']
  pure text

/-- The rest of a string between double quotation marks; `fuel` bounds its characters. -/
def basicRest : Nat → Reader (List Char)
  | 0 => failure
  | fuel + 1 => do
    let c ← Reader.one isPlain
    if c = '"' then pure []
    else
      let c ← if c = '\\' then escaped else pure c
      let rest ← basicRest fuel
      pure (c :: rest)

/-- What follows blanks and line ends. -/
def skipLines : List Char → List Char
  | ' ' :: rest | '\t' :: rest | '\n' :: rest => skipLines rest
  | '\r' :: '\n' :: rest => skipLines rest
  | rest => rest

/-- What follows the line end that may open a string of several lines. -/
def skipLineEnd : List Char → List Char
  | '\n' :: rest => rest
  | '\r' :: '\n' :: rest => rest
  | rest => rest

/-- What follows a backslash at the end of a line, up to the next visible character. -/
def joinLines? (text : List Char) : Option (List Char) :=
  match text.dropWhile isBlank with
  | '\n' :: rest => some (skipLines rest)
  | '\r' :: '\n' :: rest => some (skipLines rest)
  | _ => none

/-- The rest of a string of several lines between triple quotation marks, with or without escapes.
Three marks in a row close it, and up to two more before them belong to it. -/
def linesRest (quote : Char) : Nat → Reader (List Char)
  | 0 => failure
  | fuel + 1 => do
    match ← get with
    | [] => failure
    | '\n' :: rest | '\r' :: '\n' :: rest =>
      set rest
      return '\n' :: (← linesRest quote fuel)
    | c :: rest =>
      if c = quote then
        let marks := ((c :: rest).takeWhile (· = quote)).length
        if marks < 3 then
          set ((c :: rest).drop marks)
          return List.replicate marks quote ++ (← linesRest quote fuel)
        else
          let marks := min marks 5
          set ((c :: rest).drop marks)
          return List.replicate (marks - 3) quote
      else if quote = '"' ∧ c = '\\' then
        match joinLines? rest with
        | some rest =>
          set rest
          linesRest quote fuel
        | none =>
          set rest
          let c ← escaped
          return c :: (← linesRest quote fuel)
      else if isPlain c then
        set rest
        return c :: (← linesRest quote fuel)
      else failure

/-- A string between the given marks on one line. -/
def lineString : Reader (List Char) := do
  let c ← Reader.one fun c => c = '"' || c = '\x27'
  if c = '"' then basicRest ((← get).length + 1) else literalRest

/-- A string in any of its forms. -/
def string : Reader (List Char) := do
  match ← get with
  | '"' :: '"' :: '"' :: rest =>
    set (skipLineEnd rest)
    linesRest '"' (rest.length + 1)
  | '\x27' :: '\x27' :: '\x27' :: rest =>
    set (skipLineEnd rest)
    linesRest '\x27' (rest.length + 1)
  | _ => lineString

/-! ### Dates and times -/

/-- The number of days in a month. -/
def daysIn (year month : Nat) : Nat :=
  if month = 2 then
    if year % 4 = 0 ∧ (year % 100 ≠ 0 ∨ year % 400 = 0) then 29 else 28
  else if month ∈ [4, 6, 9, 11] then 30
  else 31

def date : Reader Unit := do
  let year ← Reader.digits 4 0 9999
  Reader.exactly ['-']
  let month ← Reader.digits 2 1 12
  Reader.exactly ['-']
  let _ ← Reader.digits 2 1 (daysIn year month)

/-- A time of day, to the second or finer. -/
def time : Reader Unit := do
  let _ ← Reader.digits 2 0 23
  Reader.exactly [':']
  let _ ← Reader.digits 2 0 59
  Reader.exactly [':']
  let _ ← Reader.digits 2 0 60
  let _ ← Reader.optional do
    Reader.exactly ['.']
    let _ ← Reader.one Char.isDigit
    Reader.many Char.isDigit

/-- The distance of a local time from universal time. -/
def offset : Reader Unit :=
  .orElse (do let _ ← Reader.one fun c => c = 'Z' || c = 'z') do
    let _ ← Reader.one fun c => c = '+' || c = '-'
    let _ ← Reader.digits 2 0 23
    Reader.exactly [':']
    let _ ← Reader.digits 2 0 59

/-- A date, a time, or a date and a time with or without an offset. -/
def moment : Reader Item := do
  .orElse
    (do
      date
      let _ ← Reader.optional do
        let _ ← Reader.one fun c => c = 'T' || c = 't' || c = ' '
        time
        Reader.optional offset)
    time
  pure .moment

/-! ### Numbers -/

/-- Digits with single underscores between them; gives the digits. -/
def grouped (isDigit : Char → Bool) : Reader (List Char) := do
  let taken ← Reader.many fun c => isDigit c || c = '_'
  let pairs := taken.zip (taken.drop 1)
  if taken.head?.any isDigit ∧ taken.getLast?.any isDigit ∧
      pairs.all fun (a, b) => isDigit a || isDigit b then
    pure (taken.filter (· != '_'))
  else failure

/-- Whether there is a minus; a plus is passed over. -/
def sign : Reader Bool := do
  let c ← Reader.optional (Reader.one fun c => c = '+' || c = '-')
  pure (c = some '-')

/-- The digits of a whole number without a leading zero. -/
def wholeDigits : Reader (List Char) := do
  match ← get with
  | '0' :: rest =>
    set rest
    pure ['0']
  | _ => grouped Char.isDigit

/-- An integer of 64 bits, or nothing. -/
def integer64 (i : Int) : Reader Item :=
  if Int64.minValue.toInt ≤ i ∧ i ≤ Int64.maxValue.toInt then pure (.integer i) else failure

/-- The integer that digits of a base write. -/
def inBase (base : Nat) : Reader Item := do
  let found ← grouped fun c => (Text.hexValue? c).any (· < base)
  integer64 (← (Text.number? base found : Option Nat))

def integer : Reader Item := do
  match ← get with
  | '0' :: 'x' :: rest =>
    set rest
    inBase 16
  | '0' :: 'o' :: rest =>
    set rest
    inBase 8
  | '0' :: 'b' :: rest =>
    set rest
    inBase 2
  | _ =>
    let negative ← sign
    let n := Nat.ofDigitChars 10 (← wholeDigits) 0
    integer64 (if negative then -n else n)

/-- Whether digits with an exponent of ten write a number that double precision takes for
infinite. -/
def overflows (digits : List Char) (exponent : Int) : Bool :=
  let digits := digits.dropWhile (· = '0')
  let n := Nat.ofDigitChars 10 digits 0
  if n = 0 then false
  else if 400 < digits.length + exponent then true
  else if digits.length + exponent < 0 then false
  else
    Number.Format.double.round (n * Nat.pow 10 exponent.toNat) (Nat.pow 10 (-exponent).toNat) =
      Number.Format.double.infinity

/-- A floating-point number: with a fraction, an exponent or both, or one of the words. A positive one
has to be finite. -/
def float : Reader Item :=
  .orElse
    (do
      let negative ← sign
      let whole ← wholeDigits
      let fraction ← Reader.optional do
        Reader.exactly ['.']
        grouped Char.isDigit
      let exponent ← Reader.optional do
        let _ ← Reader.one fun c => c = 'e' || c = 'E'
        let negative ← sign
        let n := Nat.ofDigitChars 10 (← grouped Char.isDigit) 0
        pure (if negative then -(n : Int) else n)
      if fraction.isNone ∧ exponent.isNone then failure
      let digits := whole ++ fraction.getD []
      if ¬ negative ∧ overflows digits (exponent.getD 0 - (fraction.getD []).length) then failure
      pure .float)
    (do
      let _ ← sign
      .orElse (Reader.exactly ['i', 'n', 'f']) (Reader.exactly ['n', 'a', 'n'])
      pure .float)

def flag : Reader Item :=
  .orElse
    (do Reader.exactly ['t', 'r', 'u', 'e']; pure (.flag true))
    (do Reader.exactly ['f', 'a', 'l', 's', 'e']; pure (.flag false))

def scalar : Reader Item := do
  match ← get with
  | '"' :: _ | '\x27' :: _ => return .text (String.ofList (← string))
  | 't' :: _ | 'f' :: _ => flag
  | _ => .orElse moment (.orElse float integer)

end SpoolTag.Toml
