import SpoolTag.Fault

/-!
# Addresses of a server

The address of a server is a host, a colon and a port. The host is a number, in the dotted notation
of version 4 or in the groups of version 6 of the network's protocol, or one of the names by which a
computer knows itself. Any other name would have to be looked up in a network, where nobody answers.
Whether a number belongs to this computer is left to the network.
-/

namespace SpoolTag

/-- What is wrong with the address of a server. -/
inductive AddressFault where
  | noPort
  | badPort
  /-- The host holds the character that ends names. -/
  | nulInHost
  /-- The host is no name that could be looked up. -/
  | unknownHost
  /-- Nobody answers who the host is. -/
  | unansweredHost
  deriving DecidableEq, Repr

def AddressFault.message : AddressFault → String
  | .noPort => "invalid socket address"
  | .badPort => "invalid port value"
  | .nulInHost => IoError.nulInName.message
  | .unknownHost => "failed to lookup address information: Name or service not known"
  | .unansweredHost =>
    "failed to lookup address information: Temporary failure in name resolution"

/-- The number of a host: four bytes, or eight groups of two bytes. -/
inductive HostNumber where
  | v4 (bytes : UInt32)
  | v6 (groups : List UInt16)
  deriving DecidableEq, Repr

namespace HostNumber

/-- This computer, as it reaches itself. -/
def loopback : HostNumber := .v4 0x7F000001

/-- A part of a number in dotted notation: its base is sixteen after `0x` and eight after `0`. -/
def part? (text : List Char) : Option Nat :=
  match text with
  | '0' :: 'x' :: digits | '0' :: 'X' :: digits => Text.number? 16 digits
  | '0' :: digit :: digits => Text.number? 8 (digit :: digits)
  | digits => Text.number? 10 digits

/-- The number with the given parts: a byte each, but the last one fills what is left of `room`
bytes. -/
def ofParts? : List Nat → Nat → Option Nat
  | [], _ => none
  | [last], room => if last < 1 <<< (8 * room) then some last else none
  | part :: rest, room =>
    if part < 256 ∧ 1 < room then
      (ofParts? rest (room - 1)).map fun n => (part <<< (8 * (room - 1))) + n
    else none

/-- The number that a text writes in dotted notation. -/
def dotted? (text : String) : Option Nat := do
  ofParts? (← (text.splitOn ".").mapM fun part => part? part.toList) 4

/-- The groups that texts write, up to four digits each; the last text may be in dotted notation and
then stands for two groups. -/
def groups? : List String → Option (List UInt16)
  | [] => some []
  | text :: rest =>
    let digits := text.toList
    if rest.isEmpty ∧ digits.contains '.' then
      (dotted? text).map fun n => [UInt16.ofNat (n >>> 16), UInt16.ofNat n]
    else if 4 < digits.length then none
    else do
      let group ← Text.number? 16 digits
      let groups ← groups? rest
      pure (UInt16.ofNat group :: groups)

/-- The groups between colons in a text, which may be empty. -/
def between? (text : String) : Option (List UInt16) :=
  if text.isEmpty then some [] else groups? (text.splitOn ":")

/-- The number that a text writes in groups; two colons stand once for groups of zeros. -/
def grouped? (text : String) : Option (List UInt16) := do
  match text.splitOn "::" with
  | [all] =>
    let groups ← between? all
    if groups.length = 8 then pure groups else none
  | [front, back] =>
    let front ← between? front
    let back ← between? back
    let shown := front.length + back.length
    if shown < 8 then pure (front ++ List.replicate (8 - shown) 0 ++ back) else none
  | _ => none

/-- What stands between square brackets, or the whole of a text without them. -/
def unbracketed (text : String) : String :=
  match text.toList with
  | '[' :: rest => if rest.getLast? = some ']' then String.ofList rest.dropLast else text
  | _ => text

/-- The number that a text writes, or that a name of this computer stands for. -/
def ofText? (text : String) : Option HostNumber :=
  match dotted? text, grouped? (unbracketed text) with
  | some n, _ => some (.v4 (UInt32.ofNat n))
  | none, some groups => some (.v6 groups)
  | none, none =>
    if text = "*" || text.map Char.toLower = "localhost" then some loopback else none

end HostNumber

/-! ### Names -/

/-- Whether a text can be the name of a host: labels of letters, digits and marks between dots, the
last of which may end the name. -/
def isHostName (text : String) : Bool :=
  let labels := text.splitOn "."
  let labels := if labels.getLast? = some "" then labels.dropLast else labels
  !text.isEmpty && !text.startsWith "-" && text.utf8ByteSize ≤ 254 &&
    (text = "." || labels.all fun label => label ≠ "" && label.utf8ByteSize ≤ 63) &&
    text.toList.all fun c => c.isAlphanum || c = '-' || c = '_' || c = '.'

/-! ### Endpoints -/

/-- Where a server listens. -/
structure Endpoint where
  host : HostNumber
  port : UInt16
  deriving DecidableEq, Repr

namespace Endpoint

/-- The port that a text names: digits, perhaps after a plus sign, for a number of 16 bits. -/
def port? (text : List Char) : Option UInt16 :=
  let digits :=
    match text with
    | '+' :: rest => rest
    | rest => rest
  ((Text.number? 10 digits).filter (· < UInt16.size)).map UInt16.ofNat

/-- The endpoint that an address means. The port is what follows the last colon, and is read
first. -/
def ofText (address : String) : Except AddressFault Endpoint :=
  let text := address.toList.reverse
  match text.dropWhile (· != ':'), port? (text.takeWhile (· != ':')).reverse with
  | [], _ => .error .noPort
  | _, none => .error .badPort
  | _ :: host, some port =>
    if host.contains '\x00' then .error .nulInHost
    else
      let host := String.ofList host.reverse
      match HostNumber.ofText? host with
      | some number => .ok ⟨number, port⟩
      | none => .error (if isHostName host then .unansweredHost else .unknownHost)

end Endpoint

end SpoolTag
