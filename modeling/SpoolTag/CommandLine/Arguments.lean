/-!
# The arguments of the program

Options with a value can be written in full, with the value as the next argument or after an equals
sign, or by one letter, with the value next or attached. An argument that looks like an option is
never taken for a value. An option that waits for its value is completed by the next argument that
is understood, so that something that is not understood is reported first.
-/

namespace SpoolTag.CommandLine

/-- The options with a value. -/
inductive Setting where
  | config
  | bind
  | logLevel
  deriving DecidableEq, Repr

namespace Setting

def long : Setting → String
  | .config => "config"
  | .bind => "bind"
  | .logLevel => "log-level"

def short : Setting → Char
  | .config => 'c'
  | .bind => 'b'
  | .logLevel => 'l'

def shown : Setting → String
  | .config => "--config <CONFIG>"
  | .bind => "--bind <BIND>"
  | .logLevel => "--log-level <LOG_LEVEL>"

def all : List Setting := [config, bind, logLevel]

end Setting

/-- The options without a value. -/
inductive Switch where
  | simulate
  | statusOnce
  | help
  | version
  deriving DecidableEq, Repr

namespace Switch

def long : Switch → String
  | .simulate => "simulate"
  | .statusOnce => "status-once"
  | .help => "help"
  | .version => "version"

/-- The letter of an option, if it has one. -/
def short? : Switch → Option Char
  | .help => some 'h'
  | .version => some 'V'
  | _ => none

def shown (s : Switch) : String := s!"--{s.long}"

def all : List Switch := [simulate, statusOnce, help, version]

end Switch

/-- What is wrong with the arguments. -/
inductive UsageError where
  | unexpected (argument : String)
  | repeated (option : String)
  | valueMissing (option : String)
  | valueUnneeded (value option : String)
  deriving DecidableEq, Repr

def UsageError.message : UsageError → String
  | .unexpected argument => s!"unexpected argument '{argument}' found"
  | .repeated option => s!"the argument '{option}' cannot be used multiple times"
  | .valueMissing option => s!"a value is required for '{option}' but none was supplied"
  | .valueUnneeded value option =>
    s!"unexpected value '{value}' for '{option}' found; no more were expected"

/-- What the program is asked to do. -/
inductive Request where
  | help
  | version
  | run (config : String) (bind : Option String) (logLevel : String) (simulate statusOnce : Bool)
  deriving DecidableEq, Repr

/-- What has been read of the arguments, and the option that has not been completed. -/
structure Draft where
  config : Option String := none
  bind : Option String := none
  logLevel : Option String := none
  simulate : Bool := false
  statusOnce : Bool := false
  open? : Option (Setting × Option String) := none

namespace Draft

/-- The value of an option so far. -/
def value? (d : Draft) : Setting → Option String
  | .config => d.config
  | .bind => d.bind
  | .logLevel => d.logLevel

def withValue (d : Draft) (s : Setting) (value : String) : Draft :=
  match s with
  | .config => { d with config := some value }
  | .bind => { d with bind := some value }
  | .logLevel => { d with logLevel := some value }

/-- Completes the option that is open. It needs a value, for a path one that is not empty, and must
not have had one before. -/
def complete (d : Draft) : Except UsageError Draft :=
  match d.open? with
  | none => .ok d
  | some (s, none) => .error (.valueMissing s.shown)
  | some (s, some value) =>
    if (d.value? s).isSome then .error (.repeated s.shown)
    else if s = .config ∧ value = "" then .error (.valueMissing s.shown)
    else .ok { d.withValue s value with open? := none }

/-- Begins an option with a value, and completes it if the value is attached. -/
def start (d : Draft) (s : Setting) (attached : Option String) : Except UsageError Draft := do
  let d ← d.complete
  let d := { d with open? := some (s, attached) }
  if attached.isSome then d.complete else pure d

/-- Takes an option without a value; two of them are requests of their own. -/
def switch (d : Draft) (s : Switch) : Except UsageError (Draft ⊕ Request) := do
  let d ← d.complete
  match s with
  | .help => pure (.inr .help)
  | .version => pure (.inr .version)
  | .simulate =>
    if d.simulate then throw (.repeated s.shown) else pure (.inl { d with simulate := true })
  | .statusOnce =>
    if d.statusOnce then throw (.repeated s.shown) else pure (.inl { d with statusOnce := true })

def long (d : Draft) (text : List Char) : Except UsageError (Draft ⊕ Request) :=
  let name := String.ofList (text.takeWhile (· != '='))
  let attached :=
    match text.dropWhile (· != '=') with
    | _ :: value => some (String.ofList value)
    | [] => none
  match Setting.all.find? (·.long == name), Switch.all.find? (·.long == name), attached with
  | some s, _, _ => (d.start s attached).map .inl
  | none, some s, none => d.switch s
  | none, some s, some value => .error (.valueUnneeded value s.shown)
  | none, none, _ => .error (.unexpected s!"--{name}")

def short (d : Draft) : List Char → Except UsageError (Draft ⊕ Request)
  | [] => .ok (.inl d)
  | c :: rest =>
    match Setting.all.find? (·.short == c), Switch.all.find? (·.short? == some c) with
    | some s, _ =>
      let attached :=
        match rest with
        | [] => none
        | '=' :: value => some (String.ofList value)
        | value => some (String.ofList value)
      (d.start s attached).map .inl
    | none, some s => do
      match ← d.switch s with
      | .inl d => d.short rest
      | .inr r => pure (.inr r)
    | none, none => .error (.unexpected s!"-{String.singleton c}")

/-- Takes an argument that is no option: the value that is waited for. -/
def plain (d : Draft) (argument : String) : Except UsageError Draft :=
  match d.open? with
  | some (s, none) => .ok { d with open? := some (s, some argument) }
  | _ => .error (.unexpected argument)

/-- The request, once all arguments have been taken. -/
def finish (d : Draft) : Except UsageError Request := do
  let d ← d.complete
  pure (.run (d.config.getD "filaman.toml") d.bind (d.logLevel.getD "info") d.simulate d.statusOnce)

/-- Takes the arguments one after the other; after two dashes nothing is an option any more. -/
def take (d : Draft) : List String → Except UsageError Request
  | [] => d.finish
  | argument :: rest =>
    match argument.toList with
    | ['-', '-'] =>
      match rest with
      | [] => d.finish
      | next :: _ => .error (.unexpected next)
    | '-' :: '-' :: text => do
      match ← d.long text with
      | .inl d => d.take rest
      | .inr r => pure r
    | '-' :: c :: text => do
      match ← d.short (c :: text) with
      | .inl d => d.take rest
      | .inr r => pure r
    | _ => do (← d.plain argument).take rest

end Draft

def parse (arguments : List String) : Except UsageError Request := ({} : Draft).take arguments

end SpoolTag.CommandLine
