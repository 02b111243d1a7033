import SpoolTag.Number.Numeral
import SpoolTag.Text.Hex

/-!
# The tokens of a document

A text is cut into brackets, separators and scalars, blanks being skipped. Cutting goes from the
left and stops at the first character that cannot belong to a token; what came before it stands. A
text that is cut to its end is closed by `Token.finish`.

A string may write single UTF-16 units. Its characters are known only when every leading surrogate
is followed at once by a trailing one and no other surrogates occur; a string for which this fails
is still a token.
-/

namespace SpoolTag.Json

open SpoolTag.Number

/-- The words and marks of a document. -/
inductive Token where
  | openObject
  | closeObject
  | openArray
  | closeArray
  | colon
  | comma
  | null
  | bool (b : Bool)
  | number (n : Numeral)
  /-- A string, by its characters if it has any meaning. -/
  | string (text? : Option (List Char))
  | finish
  deriving DecidableEq, Repr

namespace Token

/-- A part of a string: a character, or a UTF-16 unit. -/
inductive Piece where
  | char (c : Char)
  | unit (n : Nat)
  deriving DecidableEq, Repr

/-- The characters that the pieces of a string spell. -/
def characters? : List Piece → Option (List Char)
  | [] => some []
  | .char c :: rest => (characters? rest).map (c :: ·)
  | .unit high :: rest =>
    if high < 0xD800 ∨ 0xDFFF < high then (characters? rest).map (Char.ofNat high :: ·)
    else
      match rest with
      | .unit low :: rest =>
        if high < 0xDC00 ∧ 0xDC00 ≤ low ∧ low ≤ 0xDFFF then
          (characters? rest).map
            (Char.ofNat (0x10000 + (high - 0xD800) * 0x400 + (low - 0xDC00)) :: ·)
        else none
      | _ => none

/-- The character that a letter stands for after a backslash. -/
def escape? : Char → Option Char
  | '"' => some '"'
  | '\\' => some '\\'
  | '/' => some '/'
  | 'b' => some '\x08'
  | 'f' => some '\x0c'
  | 'n' => some '\n'
  | 'r' => some '\r'
  | 't' => some '\t'
  | _ => none

/-- The number written by four hexadecimal digits. -/
def unit? (a b c d : Char) : Option Nat := do
  let a ← Text.hexValue? a
  let b ← Text.hexValue? b
  let c ← Text.hexValue? c
  let d ← Text.hexValue? d
  pure (((a * 16 + b) * 16 + c) * 16 + d)

/-- The pieces of a string up to its closing quote, and what follows it. -/
def pieces? : List Char → Option (List Piece × List Char)
  | [] => none
  | '"' :: rest => some ([], rest)
  | '\\' :: 'u' :: a :: b :: c :: d :: rest => do
    let n ← unit? a b c d
    let (pieces, rest) ← pieces? rest
    pure (.unit n :: pieces, rest)
  | '\\' :: e :: rest => do
    let c ← escape? e
    let (pieces, rest) ← pieces? rest
    pure (.char c :: pieces, rest)
  | c :: rest =>
    if c < ' ' then none
    else do
      let (pieces, rest) ← pieces? rest
      pure (.char c :: pieces, rest)

/-- The digits at the start, one at least, and what follows them. -/
def digits? (text : List Char) : Option (List Char × List Char) :=
  if text.takeWhile Char.isDigit = [] then none
  else some (text.takeWhile Char.isDigit, text.dropWhile Char.isDigit)

/-- The fraction of a numeral: nothing, or a point and digits. -/
def fraction? : List Char → Option (List Char × List Char)
  | '.' :: rest => digits? rest
  | rest => some ([], rest)

/-- Whether a minus comes first, and what follows the sign if there is one. -/
def sign : List Char → Bool × List Char
  | '-' :: rest => (true, rest)
  | '+' :: rest => (false, rest)
  | rest => (false, rest)

/-- The exponent of a numeral: nothing, or its mark, perhaps a sign, and digits. -/
def exponent? : List Char → Option (Option Exponent × List Char)
  | [] => some (none, [])
  | c :: rest =>
    if c = 'e' ∨ c = 'E' then
      (digits? (sign rest).2).map fun (found, after) => (some ⟨(sign rest).1, found⟩, after)
    else some (none, c :: rest)

/-- A numeral without its sign; a zero in front stands alone. -/
def numeral? (negative : Bool) (text : List Char) : Option (Numeral × List Char) := do
  let (whole, rest) ← digits? text
  if whole.head? = some '0' ∧ whole.length ≠ 1 then none
  else
    let (fraction, rest) ← fraction? rest
    let (exponent, rest) ← exponent? rest
    pure ({ negative, whole, fraction, exponent }, rest)

/-- What follows a word, if the text starts with it. -/
def word? : List Char → List Char → Option (List Char)
  | [], rest => some rest
  | c :: word, d :: rest => if c = d then word? word rest else none
  | _ :: _, [] => none

/-- The token that starts with the given character, and what follows it. -/
def next? (c : Char) (rest : List Char) : Option (Token × List Char) :=
  match c with
  | '{' => some (openObject, rest)
  | '}' => some (closeObject, rest)
  | '[' => some (openArray, rest)
  | ']' => some (closeArray, rest)
  | ':' => some (colon, rest)
  | ',' => some (comma, rest)
  | 'n' => (word? ['u', 'l', 'l'] rest).map fun rest => (null, rest)
  | 't' => (word? ['r', 'u', 'e'] rest).map fun rest => (bool true, rest)
  | 'f' => (word? ['a', 'l', 's', 'e'] rest).map fun rest => (bool false, rest)
  | '"' => (pieces? rest).map fun (pieces, rest) => (string (characters? pieces), rest)
  | '-' => (numeral? true rest).map fun (n, rest) => (number n, rest)
  | c => (numeral? false (c :: rest)).map fun (n, rest) => (number n, rest)

/-- The four characters that separate tokens. -/
def isBlank (c : Char) : Bool := c = ' ' || c = '\t' || c = '\n' || c = '\r'

/-! ### Every token takes something off the text -/

theorem length_of_pieces? {text rest : List Char} {pieces : List Piece}
    (h : pieces? text = some (pieces, rest)) : rest.length < text.length := by
  fun_induction pieces? text generalizing pieces with
  | case1 => simp at h
  | case2 => simp_all
  | case3 a b c d text ih =>
    simp only [Option.bind_eq_bind, Option.pure_def, Option.bind_eq_some_iff, Option.some.injEq,
      Prod.mk.injEq, Prod.exists] at h
    obtain ⟨n, -, p, r, hp, -, rfl⟩ := h
    have := ih hp
    simp only [List.length_cons]
    omega
  | case4 e text _ ih =>
    simp only [Option.bind_eq_bind, Option.pure_def, Option.bind_eq_some_iff, Option.some.injEq,
      Prod.mk.injEq, Prod.exists] at h
    obtain ⟨n, -, p, r, hp, -, rfl⟩ := h
    have := ih hp
    simp only [List.length_cons]
    omega
  | case5 => simp at h
  | case6 c text _ _ _ _ ih =>
    simp only [Option.bind_eq_bind, Option.pure_def, Option.bind_eq_some_iff, Option.some.injEq,
      Prod.mk.injEq, Prod.exists] at h
    obtain ⟨p, r, hp, -, rfl⟩ := h
    have := ih hp
    simp only [List.length_cons]
    omega

theorem length_of_digits? {text rest found : List Char}
    (h : digits? text = some (found, rest)) : rest.length < text.length := by
  unfold digits? at h
  split at h
  · simp at h
  · next hne =>
    simp only [Option.some.injEq, Prod.mk.injEq] at h
    obtain ⟨rfl, rfl⟩ := h
    have hlen : (text.takeWhile Char.isDigit ++ text.dropWhile Char.isDigit).length = text.length :=
      congrArg List.length List.takeWhile_append_dropWhile
    have hpos := List.length_pos_iff.2 hne
    rw [List.length_append] at hlen
    omega

theorem length_of_fraction? {text rest fraction : List Char}
    (h : fraction? text = some (fraction, rest)) : rest.length ≤ text.length := by
  unfold fraction? at h
  split at h
  · have := length_of_digits? h
    simp only [List.length_cons]
    omega
  · simp only [Option.some.injEq, Prod.mk.injEq] at h
    simp [h.2]

theorem length_sign (text : List Char) : (sign text).2.length ≤ text.length := by
  unfold sign
  split <;> simp

theorem length_of_exponent? {text rest : List Char} {exponent : Option Exponent}
    (h : exponent? text = some (exponent, rest)) : rest.length ≤ text.length := by
  unfold exponent? at h
  split at h
  · simp only [Option.some.injEq, Prod.mk.injEq] at h
    simp [← h.2]
  · next c after =>
    split at h
    · simp only [Option.map_eq_some_iff, Prod.mk.injEq, Prod.exists] at h
      obtain ⟨found, r, hr, -, rfl⟩ := h
      have h1 := length_of_digits? hr
      have h2 := length_sign after
      simp only [List.length_cons]
      omega
    · simp only [Option.some.injEq, Prod.mk.injEq] at h
      simp [← h.2]

theorem length_of_numeral? {negative : Bool} {text rest : List Char} {n : Numeral}
    (h : numeral? negative text = some (n, rest)) : rest.length < text.length := by
  unfold numeral? at h
  simp only [Option.bind_eq_bind, Option.pure_def, Option.bind_eq_some_iff, Prod.exists] at h
  obtain ⟨whole, r, hd, h⟩ := h
  split at h
  · simp at h
  · simp only [Option.bind_eq_some_iff, Option.some.injEq, Prod.mk.injEq, Prod.exists] at h
    obtain ⟨f, r', hf, e, r'', he, -, rfl⟩ := h
    have h1 := length_of_digits? hd
    have h2 := length_of_fraction? hf
    have h3 := length_of_exponent? he
    omega

theorem length_of_word? {word text rest : List Char} (h : word? word text = some rest) :
    rest.length ≤ text.length := by
  fun_induction word? word text with
  | case1 => simp_all
  | case2 word c text ih =>
    have := ih h
    simp only [List.length_cons]
    omega
  | case3 => simp at h
  | case4 => simp at h

theorem length_of_map {α β : Type} {rest : List Char} {read : Option (α × List Char)} {f : α → β}
    {bound : Nat} (hread : ∀ a after, read = some (a, after) → after.length ≤ bound) {b : β}
    (h : (read.map fun (a, after) => (f a, after)) = some (b, rest)) : rest.length ≤ bound := by
  simp only [Option.map_eq_some_iff, Prod.mk.injEq, Prod.exists] at h
  obtain ⟨a, after, hr, -, rfl⟩ := h
  exact hread a after hr

theorem length_of_word {word text rest : List Char} {t u : Token}
    (h : ((word? word text).map fun rest => (t, rest)) = some (u, rest)) :
    rest.length ≤ text.length := by
  simp only [Option.map_eq_some_iff, Prod.mk.injEq] at h
  obtain ⟨after, hr, -, rfl⟩ := h
  exact length_of_word? hr

theorem length_of_next? {c : Char} {text rest : List Char} {t : Token}
    (h : next? c text = some (t, rest)) : rest.length ≤ text.length := by
  have mark {u : Token} (h : some (u, text) = some (t, rest)) : rest.length ≤ text.length := by
    simp only [Option.some.injEq, Prod.mk.injEq] at h
    exact Nat.le_of_eq (congrArg _ h.2.symm)
  unfold next? at h
  split at h
  · exact mark h
  · exact mark h
  · exact mark h
  · exact mark h
  · exact mark h
  · exact mark h
  · exact length_of_word h
  · exact length_of_word h
  · exact length_of_word h
  · exact length_of_map (f := fun pieces => string (characters? pieces))
      (fun _ _ hr => Nat.le_of_lt (length_of_pieces? hr)) h
  · exact length_of_map (f := number) (fun _ _ hr => Nat.le_of_lt (length_of_numeral? hr)) h
  · refine length_of_map (f := number) (fun _ _ hr => ?_) h
    exact Nat.le_of_lt_succ (length_of_numeral? hr)

end Token

/-- The tokens of a text up to the first character that belongs to none, each with what follows it;
the text is closed by `Token.finish` when there is no such character. -/
def scan : List Char → List (Token × List Char)
  | [] => [(.finish, [])]
  | c :: rest =>
    if Token.isBlank c then scan rest
    else
      match _h : Token.next? c rest with
      | none => []
      | some (t, after) => (t, after) :: scan after
termination_by text => text.length
decreasing_by
  · simp
  · have := Token.length_of_next? _h
    simp only [List.length_cons]
    omega

def tokens (text : List Char) : List Token := (scan text).map (·.1)

theorem tokens_nil : tokens [] = [.finish] := by simp [tokens, scan]

theorem tokens_cons_of_next? {c : Char} {rest after : List Char} {t : Token}
    (hc : Token.isBlank c = false) (h : Token.next? c rest = some (t, after)) :
    tokens (c :: rest) = t :: tokens after := by
  rw [tokens, scan]
  split
  · simp_all
  · split <;> simp_all [tokens]

end SpoolTag.Json
