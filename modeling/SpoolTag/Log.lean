/-!
# Log entries

What the program reports about its work: a level, the part of the program that speaks, a message,
and named details. Kinds of entries are types of their own in the modules that make them; each has a
rendering into an `Entry`.
-/

namespace SpoolTag.Log

/-- How much an entry matters. -/
inductive Level where
  | trace
  | debug
  | info
  | warn
  | error
  deriving DecidableEq, Repr

namespace Level

def label : Level → String
  | .trace => "TRACE"
  | .debug => "DEBUG"
  | .info => "INFO"
  | .warn => "WARN"
  | .error => "ERROR"

/-- Levels in the order of their weight. -/
def weight : Level → Nat
  | .trace => 0
  | .debug => 1
  | .info => 2
  | .warn => 3
  | .error => 4

/-- The level with the given name, in any case of its letters. -/
def ofName? (name : String) : Option Level :=
  [trace, debug, info, warn, error].find? fun level =>
    level.label.map Char.toLower == name.map Char.toLower

end Level

/-- The value of a detail. -/
inductive Detail where
  /-- A text that is quoted where entries are printed. -/
  | text (s : String)
  /-- A text that stands as it is. -/
  | shown (s : String)
  deriving DecidableEq, Repr

namespace Detail

def number (n : Nat) : Detail := .shown (String.ofList (Nat.toDigits 10 n))

def flag (b : Bool) : Detail := .shown (if b then "true" else "false")

def bare : Detail → String
  | .text s => s
  | .shown s => s

end Detail

/-- One entry of the log. -/
structure Entry where
  level : Level
  target : String
  message : String
  details : List (String × Detail) := []
  deriving DecidableEq, Repr

end SpoolTag.Log
