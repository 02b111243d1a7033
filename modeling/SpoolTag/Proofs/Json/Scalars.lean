import Mathlib.Data.List.TakeWhile
import SpoolTag.Json.Document

/-! # Scalars that were written are read

The reader cuts a numeral off a text where its digits end, and a string at the first quote that is
not written as an escape. So it gets back what was written: a numeral that is spelled as documents
spell one (`Spelled`), with something else than a digit, a point or an exponent after it
(`tokens_numeral`), and every string whatever its characters (`tokens_quote`). And of any text no numerals
are read but those that are spelled like this (`spelled_of_mem_tokens`). -/

namespace SpoolTag.Json

open SpoolTag.Number

/-! ### Numerals -/

/-- The characters are digits, and there is one at least. -/
def Digits (text : List Char) : Prop := text ≠ [] ∧ ∀ c ∈ text, c.isDigit = true

/-- A numeral that the grammar of documents allows: it has digits where it needs some, and a zero in
front stands alone. -/
structure Spelled (n : Numeral) : Prop where
  whole : Digits n.whole
  bare : n.whole.head? = some '0' → n.whole.length = 1
  fraction : ∀ c ∈ n.fraction, c.isDigit = true
  exponent : ∀ e, n.exponent = some e → Digits e.digits

/-- What may stand after a value: the end of the text, or a mark that goes on with the array or the
object around it. -/
def Parted (rest : List Char) : Prop := ∀ c ∈ rest.head?, c = ',' ∨ c = ']' ∨ c = '}'

theorem Parted.nil : Parted [] := fun _ h => nomatch h

theorem Parted.comma (rest : List Char) : Parted (',' :: rest) := by
  rintro c ⟨⟩
  exact .inl rfl

theorem Parted.closeArray (rest : List Char) : Parted (']' :: rest) := by
  rintro c ⟨⟩
  exact .inr (.inl rfl)

theorem Parted.closeObject (rest : List Char) : Parted ('}' :: rest) := by
  rintro c ⟨⟩
  exact .inr (.inr rfl)

namespace Token

theorem digits?_append {found rest : List Char} (h : Digits found)
    (hrest : ∀ c ∈ rest.head?, c.isDigit = false) : digits? (found ++ rest) = some (found, rest) := by
  have htake : rest.takeWhile Char.isDigit = [] := by
    cases rest with
    | nil => rfl
    | cons c rest => rw [List.takeWhile_cons_of_neg (by simp [hrest c rfl])]
  have hdrop : rest.dropWhile Char.isDigit = rest := by
    cases rest with
    | nil => rfl
    | cons c rest => rw [List.dropWhile_cons_of_neg (by simp [hrest c rfl])]
  unfold digits?
  rw [List.takeWhile_append_of_pos h.2, List.dropWhile_append_of_pos h.2, htake, hdrop,
    List.append_nil, if_neg h.1]

/-- What comes after the digits of a numeral has none in front. -/
theorem not_isDigit_of_parted {rest : List Char} (h : Parted rest) :
    ∀ c ∈ rest.head?, c.isDigit = false := by
  intro c hc
  rcases h c hc with rfl | rfl | rfl <;> rfl

/-- The exponent of a numeral as it is written. -/
def exponentText : Option Exponent → List Char
  | none => []
  | some e => 'e' :: (if e.negative then '-' else '+') :: e.digits

/-- The fraction of a numeral as it is written. -/
def fractionText (fraction : List Char) : List Char :=
  if fraction = [] then [] else '.' :: fraction

theorem exponent?_text {exponent : Option Exponent} {rest : List Char}
    (h : ∀ e, exponent = some e → Digits e.digits) (hrest : Parted rest) :
    exponent? (exponentText exponent ++ rest) = some (exponent, rest) := by
  cases exponent with
  | none =>
    cases rest with
    | nil => rfl
    | cons c rest =>
      have hc : ¬ (c = 'e' ∨ c = 'E') := by
        rcases hrest c rfl with rfl | rfl | rfl <;> decide
      change exponent? (c :: rest) = _
      rw [exponent?, if_neg hc]
  | some e =>
    obtain ⟨negative, found⟩ := e
    have hfound := digits?_append (h _ rfl) (not_isDigit_of_parted hrest)
    cases negative with
    | true =>
      change (digits? (found ++ rest)).map _ = _
      rw [hfound]
      rfl
    | false =>
      change (digits? (found ++ rest)).map _ = _
      rw [hfound]
      rfl

/-- After the fraction comes the mark of the exponent, or what parts values. -/
theorem head_exponentText (exponent : Option Exponent) {rest : List Char} (hrest : Parted rest) :
    ∀ c ∈ (exponentText exponent ++ rest).head?, c.isDigit = false ∧ c ≠ '.' := by
  cases exponent with
  | none =>
    intro c hc
    rcases hrest c hc with rfl | rfl | rfl <;> decide
  | some e =>
    rintro c ⟨⟩
    decide

theorem fraction?_text {fraction rest : List Char} (h : ∀ c ∈ fraction, c.isDigit = true)
    (hrest : ∀ c ∈ rest.head?, c.isDigit = false ∧ c ≠ '.') :
    fraction? (fractionText fraction ++ rest) = some (fraction, rest) := by
  unfold fractionText
  by_cases hfraction : fraction = []
  · subst hfraction
    rw [if_pos rfl]
    change fraction? rest = _
    unfold fraction?
    split
    · next after => exact absurd rfl (hrest '.' rfl).2
    · rfl
  · rw [if_neg hfraction]
    exact digits?_append ⟨hfraction, h⟩ fun c hc => (hrest c hc).1

/-- After the digits before the point comes the point, or what comes after the fraction. -/
theorem head_fractionText (fraction : List Char) {rest : List Char}
    (hrest : ∀ c ∈ rest.head?, c.isDigit = false ∧ c ≠ '.') :
    ∀ c ∈ (fractionText fraction ++ rest).head?, c.isDigit = false := by
  unfold fractionText
  split
  · exact fun c hc => (hrest c hc).1
  · rintro c ⟨⟩
    rfl

/-- The text of a numeral after its sign. -/
def unsigned (n : Numeral) : List Char :=
  n.whole ++ (fractionText n.fraction ++ exponentText n.exponent)

theorem text_eq (n : Numeral) : n.text = (if n.negative then ['-'] else []) ++ unsigned n := by
  unfold Numeral.text unsigned fractionText
  rw [List.append_assoc, List.append_assoc]
  cases n.exponent <;> rfl

theorem numeral?_unsigned {n : Numeral} (h : Spelled n) {rest : List Char} (hrest : Parted rest) :
    numeral? n.negative (unsigned n ++ rest) = some (n, rest) := by
  have hexponent := exponent?_text h.exponent hrest
  have hafter := head_exponentText n.exponent hrest
  have hfraction := fraction?_text h.fraction hafter
  have hwhole := digits?_append h.whole (head_fractionText n.fraction hafter)
  have hbare : ¬ (n.whole.head? = some '0' ∧ n.whole.length ≠ 1) := fun hn => hn.2 (h.bare hn.1)
  unfold numeral? unsigned
  rw [List.append_assoc, List.append_assoc, hwhole]
  change (if _ then _ else _) = _
  rw [if_neg hbare, hfraction]
  change (exponent? _).bind _ = _
  rw [hexponent]
  rfl

/-- A digit starts a numeral. -/
theorem next?_of_isDigit {c : Char} (hc : c.isDigit = true) (rest : List Char) :
    next? c rest = (numeral? false (c :: rest)).map fun (n, rest) => (number n, rest) := by
  unfold next?
  split <;> first | rfl | exact absurd hc (by decide)

theorem isBlank_of_isDigit {c : Char} (hc : c.isDigit = true) : isBlank c = false := by
  unfold isBlank
  by_contra h
  simp only [Bool.not_eq_false, Bool.or_eq_true, decide_eq_true_eq] at h
  rcases h with ((rfl | rfl) | rfl) | rfl <;> exact absurd hc (by decide)

end Token

open Token

/-- **A numeral is read back.** -/
theorem tokens_numeral {n : Numeral} (h : Spelled n) {rest : List Char} (hrest : Parted rest) :
    tokens (n.text ++ rest) = .number n :: tokens rest := by
  have hread := numeral?_unsigned h hrest
  rw [text_eq]
  cases hn : n.negative with
  | true =>
    rw [hn] at hread
    refine tokens_cons_of_next? (by decide) ?_
    change (numeral? true (unsigned n ++ rest)).map _ = _
    rw [hread]
    rfl
  | false =>
    rw [hn] at hread
    obtain ⟨c, whole, hwhole⟩ := List.exists_cons_of_ne_nil h.whole.1
    have hc : c.isDigit = true := h.whole.2 c (hwhole ▸ List.mem_cons_self)
    have hcons : unsigned n ++ rest =
        c :: (whole ++ (fractionText n.fraction ++ exponentText n.exponent) ++ rest) := by
      rw [unsigned, hwhole]
      rfl
    change tokens (unsigned n ++ rest) = _
    rw [hcons] at hread ⊢
    refine tokens_cons_of_next? (isBlank_of_isDigit hc) ?_
    rw [next?_of_isDigit hc, hread]
    rfl

/-! ### What is read as a numeral -/

namespace Token

theorem digits_of_digits? {text found rest : List Char} (h : digits? text = some (found, rest)) :
    Digits found := by
  unfold digits? at h
  split at h
  · cases h
  · next hne =>
    cases h
    exact ⟨hne, fun _ hc => List.mem_takeWhile_imp hc⟩

theorem digits_of_fraction? {text fraction rest : List Char}
    (h : fraction? text = some (fraction, rest)) : ∀ c ∈ fraction, c.isDigit = true := by
  unfold fraction? at h
  split at h
  · exact (digits_of_digits? h).2
  · cases h
    exact fun _ hc => nomatch hc

theorem digits_of_exponent? {text rest : List Char} {exponent : Option Exponent}
    (h : exponent? text = some (exponent, rest)) : ∀ e, exponent = some e → Digits e.digits := by
  unfold exponent? at h
  split at h
  · cases h
    rintro _ ⟨⟩
  · split at h
    · obtain ⟨⟨found, after⟩, hfound, heq⟩ := Option.map_eq_some_iff.1 h
      cases heq
      rintro _ ⟨⟩
      exact digits_of_digits? hfound
    · cases h
      rintro _ ⟨⟩

theorem spelled_of_numeral? {negative : Bool} {text rest : List Char} {n : Numeral}
    (h : numeral? negative text = some (n, rest)) : Spelled n := by
  unfold numeral? at h
  obtain ⟨⟨whole, afterWhole⟩, hwhole, h⟩ := Option.bind_eq_some_iff.1 h
  dsimp only at h
  split at h
  · cases h
  · next hbare =>
    obtain ⟨⟨fraction, afterFraction⟩, hfraction, h⟩ := Option.bind_eq_some_iff.1 h
    obtain ⟨⟨exponent, afterExponent⟩, hexponent, h⟩ := Option.bind_eq_some_iff.1 h
    cases h
    exact {
      whole := digits_of_digits? hwhole
      bare := fun hzero => not_not.1 fun hlength => hbare ⟨hzero, hlength⟩
      fraction := digits_of_fraction? hfraction
      exponent := digits_of_exponent? hexponent }

theorem spelled_of_next? {c : Char} {rest after : List Char} {n : Numeral}
    (h : next? c rest = some (.number n, after)) : Spelled n := by
  have hmap {negative : Bool} {text : List Char}
      (h : ((numeral? negative text).map fun (n, rest) => (number n, rest)) = some (number n, after)) :
      Spelled n := by
    obtain ⟨⟨m, rest⟩, hread, heq⟩ := Option.map_eq_some_iff.1 h
    cases heq
    exact spelled_of_numeral? hread
  unfold next? at h
  split at h
  case h_11 | h_12 => exact hmap h
  all_goals simp at h

end Token

/-- The numerals of a text are spelled as the grammar wants them. -/
theorem spelled_of_mem_tokens {text : List Char} {n : Numeral} (h : .number n ∈ tokens text) :
    Spelled n := by
  unfold tokens at h
  fun_induction scan text with
  | case1 => simp at h
  | case2 c rest _ ih => exact ih h
  | case3 => simp at h
  | case4 c rest _ t after hnext ih =>
    rcases List.mem_cons.1 h with heq | htail
    · dsimp only at heq
      subst heq
      exact Token.spelled_of_next? hnext
    · exact ih htail

/-! ### Strings -/

namespace Token

/-- A control character is written by its number. -/
theorem unit?_hexDigit {n : Nat} (h : n < 32) :
    unit? '0' '0' (Text.hexDigit (n / 16)) (Text.hexDigit n) = some n := by
  have hall : ∀ n < 32, unit? '0' '0' (Text.hexDigit (n / 16)) (Text.hexDigit n) = some n := by
    decide
  exact hall n h

/-- A character that has a letter of its own after the backslash. -/
theorem pieces?_letter {e c : Char} (h : escape? e = some c) (hu : e ≠ 'u') (text : List Char) :
    pieces? ('\\' :: e :: text) = (pieces? text).map fun (pieces, rest) => (.char c :: pieces, rest)
    := by
  rw [pieces?]
  · rw [h]
    cases pieces? text <;> rfl
  · exact fun _ _ _ _ _ he _ => hu he

/-- A character that stands for itself. -/
theorem pieces?_plain {c : Char} (hquote : c ≠ '"') (hslash : c ≠ '\\') (hc : ¬ c < ' ')
    (text : List Char) :
    pieces? (c :: text) = (pieces? text).map fun (pieces, rest) => (.char c :: pieces, rest) := by
  rw [pieces?]
  · rw [if_neg hc]
    cases pieces? text <;> rfl
  · exact hquote
  · exact fun _ _ _ _ _ h _ => hslash h
  · exact fun _ _ h _ => hslash h

/-- A control character is written by its number. -/
theorem pieces?_control {c : Char} (hc : c < ' ') (text : List Char) :
    pieces? ('\\' :: 'u' :: '0' :: '0' :: Text.hexDigit (c.toNat / 16) :: Text.hexDigit c.toNat ::
        text) = (pieces? text).map fun (pieces, rest) => (.unit c.toNat :: pieces, rest) := by
  rw [pieces?, unit?_hexDigit (show c.toNat < 32 from hc)]
  cases pieces? text <;> rfl

/-- A character that is written is read, as a character or as the UTF-16 unit that it is. -/
theorem pieces?_escape (c : Char) :
    ∃ piece, (∀ text, pieces? (escape c ++ text) =
        (pieces? text).map fun (pieces, rest) => (piece :: pieces, rest)) ∧
      ∀ pieces, characters? (piece :: pieces) = (characters? pieces).map (c :: ·) := by
  have letter {e d : Char} (h : escape? e = some d) (hu : e ≠ 'u') :
      ∃ piece, (∀ text, pieces? (['\\', e] ++ text) =
          (pieces? text).map fun (pieces, rest) => (piece :: pieces, rest)) ∧
        ∀ pieces, characters? (piece :: pieces) = (characters? pieces).map (d :: ·) :=
    ⟨.char d, pieces?_letter h hu, fun _ => rfl⟩
  unfold escape
  split
  · next h =>
    subst h
    exact letter (e := '"') rfl (by decide)
  split
  · next h =>
    subst h
    exact letter (e := '\\') rfl (by decide)
  split
  · next h =>
    subst h
    exact letter (e := 'b') rfl (by decide)
  split
  · next h =>
    subst h
    exact letter (e := 'f') rfl (by decide)
  split
  · next h =>
    subst h
    exact letter (e := 'n') rfl (by decide)
  split
  · next h =>
    subst h
    exact letter (e := 'r') rfl (by decide)
  split
  · next h =>
    subst h
    exact letter (e := 't') rfl (by decide)
  split
  · next hc =>
    have hunit : c.toNat < 0xD800 := by
      have h : c.toNat < 32 := hc
      omega
    refine ⟨.unit c.toNat, pieces?_control hc, fun pieces => ?_⟩
    rw [characters?.eq_def]
    dsimp only
    rw [if_pos (.inl hunit), Char.ofNat_toNat]
  · next hquote hslash _ _ _ _ _ hc =>
    exact ⟨.char c, pieces?_plain hquote hslash hc, fun _ => rfl⟩

theorem pieces?_quote (s : List Char) (rest : List Char) :
    ∃ pieces, pieces? (s.flatMap escape ++ '"' :: rest) = some (pieces, rest) ∧
      characters? pieces = some s := by
  induction s with
  | nil => exact ⟨[], rfl, rfl⟩
  | cons c s ih =>
    obtain ⟨pieces, hpieces, hs⟩ := ih
    obtain ⟨piece, hpiece, hc⟩ := pieces?_escape c
    refine ⟨piece :: pieces, ?_, ?_⟩
    · rw [List.flatMap_cons, List.append_assoc, hpiece, hpieces]
      rfl
    · rw [hc, hs]
      rfl

end Token

/-- **A string is read back**, whatever its characters. -/
theorem tokens_quote (s : String) (rest : List Char) :
    tokens (quote s ++ rest) = .string (some s.toList) :: tokens rest := by
  obtain ⟨pieces, hpieces, hs⟩ := pieces?_quote s.toList rest
  have htext : quote s ++ rest = '"' :: (s.toList.flatMap escape ++ '"' :: rest) := by
    simp [quote]
  rw [htext]
  refine tokens_cons_of_next? (by decide) ?_
  change (pieces? _).map _ = _
  rw [hpieces]
  change some (Token.string (characters? pieces), rest) = _
  rw [hs]

end SpoolTag.Json
