/-!
# Hexadecimal and binary digits

Addresses and raw bytes are shown in lower-case hexadecimal, bitmaps in binary. Numbers are read in
any base up to sixteen.
-/

namespace SpoolTag.Text

/-- The lower-case hexadecimal digit of a number below sixteen. -/
def hexDigit (n : Nat) : Char := Nat.digitChar (n % 16)

def hexByte (b : UInt8) : String :=
  String.ofList [hexDigit (b.toNat / 16), hexDigit b.toNat]

def binaryByte (b : UInt8) : String :=
  String.ofList ((List.range 8).map fun i => Nat.digitChar ((b.toNat >>> (7 - i)) % 2))

/-- Bytes as hexadecimal digits, two for each. -/
def hexBytes (bytes : List UInt8) : String := String.join (bytes.map hexByte)

/-- The value of a hexadecimal digit of either case. -/
def hexValue? (c : Char) : Option Nat :=
  if c.isDigit then some (c.toNat - '0'.toNat)
  else if 'a' ≤ c ∧ c ≤ 'f' then some (c.toNat - 'a'.toNat + 10)
  else if 'A' ≤ c ∧ c ≤ 'F' then some (c.toNat - 'A'.toNat + 10)
  else none

/-- The number that digits of a base up to sixteen write; there has to be one digit at least. -/
def number? (base : Nat) (digits : List Char) : Option Nat :=
  if digits.isEmpty then none
  else
    digits.foldlM (fun n c => ((hexValue? c).filter (· < base)).map fun d => n * base + d) 0

/-- The bytes written by pairs of hexadecimal digits. -/
def bytesOfHex? : List Char → Option (List UInt8)
  | [] => some []
  | [_] => none
  | a :: b :: rest => do
    let high ← hexValue? a
    let low ← hexValue? b
    let bytes ← bytesOfHex? rest
    pure (UInt8.ofNat (16 * high + low) :: bytes)

end SpoolTag.Text
