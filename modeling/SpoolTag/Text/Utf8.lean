/-!
# UTF-8

Characters as bytes and back. Reading goes one byte at a time: after the first byte of a character
the reader knows which ranges the remaining bytes must fall into, and it stops at the first byte
outside. A text that is not well formed is described by where the bad character starts and how many
bytes could still have begun a character there, or by the fact that the bytes end too early.
-/

namespace SpoolTag.Text.Utf8

def encode (text : List Char) : List UInt8 := text.flatMap String.utf8EncodeChar

/-- Where a byte sequence stops being well formed. -/
structure Malformed where
  /-- The number of bytes before the bad character. -/
  index : Nat
  /-- The number of bytes that begin a character in vain; none when the bytes end within one. -/
  length : Option Nat
  deriving DecidableEq, Repr

def Malformed.message (m : Malformed) : String :=
  match m.length with
  | some n => s!"invalid utf-8 sequence of {n} bytes from index {m.index}"
  | none => s!"incomplete utf-8 byte sequence from index {m.index}"

/-- A range of bytes, both ends included. -/
structure Range where
  low : UInt8
  high : UInt8
  deriving DecidableEq, Repr

/-- The bytes that continue a character. -/
def tail : Range := ⟨0x80, 0xBF⟩

/-- The part of a character that is still to come: the bits read so far, how many bytes they took,
and the ranges of the bytes that follow. -/
structure Pending where
  bits : Nat
  taken : Nat
  owed : List Range
  deriving DecidableEq, Repr

/-- What the first byte of a character asks for. -/
def lead? (b : UInt8) : Option Pending :=
  if b < 0x80 then some ⟨b.toNat, 1, []⟩
  else if b < 0xC2 then none
  else if b < 0xE0 then some ⟨b.toNat - 0xC0, 1, [tail]⟩
  else if b = 0xE0 then some ⟨0, 1, [⟨0xA0, 0xBF⟩, tail]⟩
  else if b = 0xED then some ⟨0xD, 1, [⟨0x80, 0x9F⟩, tail]⟩
  else if b < 0xF0 then some ⟨b.toNat - 0xE0, 1, [tail, tail]⟩
  else if b = 0xF0 then some ⟨0, 1, [⟨0x90, 0xBF⟩, tail, tail]⟩
  else if b < 0xF4 then some ⟨b.toNat - 0xF0, 1, [tail, tail, tail]⟩
  else if b = 0xF4 then some ⟨4, 1, [⟨0x80, 0x8F⟩, tail, tail]⟩
  else none

/-- The characters up to the first bad one, which starts at `index` or later, and the description
of that one. -/
def scan (index : Nat) : Option Pending → List UInt8 → List Char × Option Malformed
  | none, [] => ([], none)
  | some _, [] => ([], some ⟨index, none⟩)
  | none, b :: rest =>
    match lead? b with
    | none => ([], some ⟨index, some 1⟩)
    | some ⟨bits, _, []⟩ =>
      let (text, fault) := scan (index + 1) none rest
      (Char.ofNat bits :: text, fault)
    | some pending => scan index (some pending) rest
  | some ⟨bits, taken, owed⟩, b :: rest =>
    match owed with
    | [] => ([], some ⟨index, some taken⟩)
    | range :: owed =>
      if range.low ≤ b ∧ b ≤ range.high then
        let bits := bits * 64 + b.toNat % 64
        match owed with
        | [] =>
          let (text, fault) := scan (index + taken + 1) none rest
          (Char.ofNat bits :: text, fault)
        | _ => scan index (some ⟨bits, taken + 1, owed⟩) rest
      else ([], some ⟨index, some taken⟩)

/-- The characters up to the first bad one, and the description of that one. -/
def decodePrefix (bytes : List UInt8) : List Char × Option Malformed := scan 0 none bytes

def decode (bytes : List UInt8) : Except Malformed (List Char) :=
  match decodePrefix bytes with
  | (text, none) => .ok text
  | (_, some fault) => .error fault

/-- The longest run of whole characters from the start that takes at most `limit` bytes. -/
def fitting (limit : Nat) : List Char → List Char
  | [] => []
  | c :: rest => if c.utf8Size ≤ limit then c :: fitting (limit - c.utf8Size) rest else []

end SpoolTag.Text.Utf8
