import SpoolTag.Json.Event
import SpoolTag.Proofs.Json.Scalars

/-! # Documents that were written are read

The text of a document brings the events of the document and nothing else (`events_text`), if its
numerals are spelled as the grammar wants them (`Document.Sound`): its strings and keys may be any
texts, since the writer escapes what the reader would stumble over. The numbers in any other text are
spelled as the grammar wants them, too (`spelled_of_mem_events`). -/

namespace SpoolTag.Json

open SpoolTag.Number

namespace Document

mutual

/-- What a reader of the document meets. -/
def events : Document → List Event
  | .null => [.null]
  | .bool b => [.bool b]
  | .number n => [.number n]
  | .string s => [.string (some s.toList)]
  | .array elements => .openArray :: (elementsEvents elements ++ [.closeArray])
  | .object members => .openObject :: (membersEvents members ++ [.closeObject])

def elementsEvents : List Document → List Event
  | [] => []
  | d :: rest => events d ++ elementsEvents rest

def membersEvents : List (String × Document) → List Event
  | [] => []
  | (key, d) :: rest => .key (some key.toList) :: (events d ++ membersEvents rest)

end

mutual

/-- All numerals of the document are spelled as the grammar wants them. -/
def Sound : Document → Prop
  | .number n => Spelled n
  | .array elements => ElementsSound elements
  | .object members => MembersSound members
  | _ => True

def ElementsSound : List Document → Prop
  | [] => True
  | d :: rest => Sound d ∧ ElementsSound rest

def MembersSound : List (String × Document) → Prop
  | [] => True
  | (_, d) :: rest => Sound d ∧ MembersSound rest

end

end Document

namespace Event

/-- Whether a value may come next. -/
def Expect.TakesValue (expect : Expect) : Prop := expect = .value ∨ expect = .firstValue

/-- Whether a key may come next. -/
def Expect.TakesKey (expect : Expect) : Prop := expect = .key ∨ expect = .firstKey

theorem step?_of_startValue? {expect : Expect} (hexpect : expect.TakesValue) {frames : List Frame}
    {t : Token} {step : Step} (h : startValue? frames t = some step) :
    step? expect frames t = some step := by
  rcases hexpect with rfl | rfl
  · exact h
  · cases t <;> cases h <;> rcases frames with _ | ⟨frame, frames⟩ <;>
      first | rfl | (cases frame <;> rfl)

theorem step?_key {expect : Expect} (hexpect : expect.TakesKey) (frames : List Frame)
    (text? : Option (List Char)) :
    step? expect frames (.string text?) = some ⟨some (.key text?), .colon, frames⟩ := by
  rcases hexpect with rfl | rfl
  · rfl
  · cases frames with
    | nil => rfl
    | cons frame frames => cases frame <;> rfl

theorem ofTokens_cons {expect : Expect} {frames : List Frame} {t : Token} {step : Step}
    (h : step? expect frames t = some step) (rest : List Token) :
    ofTokens expect frames (t :: rest) =
      step.event.toList ++ ofTokens step.expect step.frames rest := by
  rw [ofTokens, h]

end Event

open Event Document

/-- A mark is a token of its own. -/
theorem tokens_mark {c : Char} {t : Token} (hc : Token.isBlank c = false)
    (h : ∀ rest, Token.next? c rest = some (t, rest)) (rest : List Char) :
    tokens (c :: rest) = t :: tokens rest := tokens_cons_of_next? hc (h rest)

theorem tokens_openObject (rest : List Char) : tokens ('{' :: rest) = .openObject :: tokens rest :=
  tokens_mark (by decide) (fun _ => rfl) rest

theorem tokens_closeObject (rest : List Char) :
    tokens ('}' :: rest) = .closeObject :: tokens rest :=
  tokens_mark (by decide) (fun _ => rfl) rest

theorem tokens_openArray (rest : List Char) : tokens ('[' :: rest) = .openArray :: tokens rest :=
  tokens_mark (by decide) (fun _ => rfl) rest

theorem tokens_closeArray (rest : List Char) : tokens (']' :: rest) = .closeArray :: tokens rest :=
  tokens_mark (by decide) (fun _ => rfl) rest

theorem tokens_colon (rest : List Char) : tokens (':' :: rest) = .colon :: tokens rest :=
  tokens_mark (by decide) (fun _ => rfl) rest

theorem tokens_comma (rest : List Char) : tokens (',' :: rest) = .comma :: tokens rest :=
  tokens_mark (by decide) (fun _ => rfl) rest

mutual

/-- **A document is read back**: its text brings its events, and then comes what follows. -/
theorem ofTokens_text (d : Document) (hd : d.Sound) {expect : Expect} (hexpect : expect.TakesValue)
    (frames : List Frame) {rest : List Char} (hrest : Parted rest) :
    ofTokens expect frames (tokens (d.text ++ rest)) =
      d.events ++ ofTokens .more frames (tokens rest) := by
  cases d with
  | null =>
    have htokens : tokens (Document.null.text ++ rest) = .null :: tokens rest :=
      tokens_cons_of_next? (by decide) rfl
    rw [htokens, ofTokens_cons (step?_of_startValue? hexpect rfl)]
    rfl
  | bool b =>
    have htokens : tokens ((Document.bool b).text ++ rest) = .bool b :: tokens rest := by
      cases b <;> exact tokens_cons_of_next? (by decide) rfl
    rw [htokens, ofTokens_cons (step?_of_startValue? hexpect rfl)]
    rfl
  | number n =>
    rw [Document.text, tokens_numeral hd hrest, ofTokens_cons (step?_of_startValue? hexpect rfl)]
    rfl
  | string s =>
    rw [Document.text, tokens_quote, ofTokens_cons (step?_of_startValue? hexpect rfl)]
    rfl
  | array elements =>
    have htext : (Document.array elements).text ++ rest =
        '[' :: (elementsText elements ++ ']' :: rest) := by
      simp [Document.text]
    rw [htext, tokens_openArray, ofTokens_cons (step?_of_startValue? hexpect rfl), Document.events]
    have hinside := ofTokens_elements elements hd (.inr rfl) frames rest (fun _ => rfl)
    change .openArray :: ofTokens .firstValue (.array :: frames) _ = _
    rw [hinside]
    simp
  | object members =>
    have htext : (Document.object members).text ++ rest =
        '{' :: (membersText members ++ '}' :: rest) := by
      simp [Document.text]
    rw [htext, tokens_openObject, ofTokens_cons (step?_of_startValue? hexpect rfl), Document.events]
    have hinside := ofTokens_members members hd (.inr rfl) frames rest (fun _ => rfl)
    change .openObject :: ofTokens .firstKey (.object :: frames) _ = _
    rw [hinside]
    simp

theorem ofTokens_elements (elements : List Document) (hall : ElementsSound elements)
    {expect : Expect} (hexpect : expect.TakesValue) (frames : List Frame) (rest : List Char)
    (hfirst : elements = [] → expect = .firstValue) :
    ofTokens expect (.array :: frames) (tokens (elementsText elements ++ ']' :: rest)) =
      elementsEvents elements ++ .closeArray :: ofTokens .more frames (tokens rest) := by
  match elements, hall with
  | [], _ =>
    rw [hfirst rfl, elementsText, List.nil_append, tokens_closeArray, ofTokens_cons rfl]
    rfl
  | [d], hall =>
    have hd := ofTokens_text d hall.1 hexpect (.array :: frames) (Parted.closeArray rest)
    rw [elementsText, hd, tokens_closeArray, ofTokens_cons rfl]
    simp [elementsEvents]
  | d :: e :: more, hall =>
    have hd := ofTokens_text d hall.1 hexpect (.array :: frames)
      (Parted.comma (elementsText (e :: more) ++ ']' :: rest))
    have hmore := ofTokens_elements (e :: more) hall.2 (.inl rfl) frames rest (fun h => nomatch h)
    have htext : elementsText (d :: e :: more) ++ ']' :: rest =
        d.text ++ ',' :: (elementsText (e :: more) ++ ']' :: rest) := by
      simp [elementsText]
    rw [htext, hd, tokens_comma, ofTokens_cons rfl]
    change d.events ++ ofTokens .value (.array :: frames) _ = _
    rw [hmore]
    simp [elementsEvents]

theorem ofTokens_members (members : List (String × Document)) (hall : MembersSound members)
    {expect : Expect} (hexpect : expect.TakesKey) (frames : List Frame) (rest : List Char)
    (hfirst : members = [] → expect = .firstKey) :
    ofTokens expect (.object :: frames) (tokens (membersText members ++ '}' :: rest)) =
      membersEvents members ++ .closeObject :: ofTokens .more frames (tokens rest) := by
  match members, hall with
  | [], _ =>
    rw [hfirst rfl, membersText, List.nil_append, tokens_closeObject, ofTokens_cons rfl]
    rfl
  | [(name, d)], hall =>
    have hd := ofTokens_text d hall.1 (.inl rfl) (.object :: frames) (Parted.closeObject rest)
    have htext : membersText [(name, d)] ++ '}' :: rest =
        quote name ++ ':' :: (d.text ++ '}' :: rest) := by
      simp [membersText]
    rw [htext, tokens_quote, ofTokens_cons (step?_key hexpect _ _), tokens_colon, ofTokens_cons rfl]
    change .key (some name.toList) :: ofTokens .value (.object :: frames) _ = _
    rw [hd, tokens_closeObject, ofTokens_cons rfl]
    simp [membersEvents]
  | (name, d) :: m :: more, hall =>
    have hd := ofTokens_text d hall.1 (.inl rfl) (.object :: frames)
      (Parted.comma (membersText (m :: more) ++ '}' :: rest))
    have hmore := ofTokens_members (m :: more) hall.2 (.inl rfl) frames rest (fun h => nomatch h)
    have htext : membersText ((name, d) :: m :: more) ++ '}' :: rest =
        quote name ++ ':' :: (d.text ++ ',' :: (membersText (m :: more) ++ '}' :: rest)) := by
      simp [membersText]
    rw [htext, tokens_quote, ofTokens_cons (step?_key hexpect _ _), tokens_colon, ofTokens_cons rfl]
    change .key (some name.toList) :: ofTokens .value (.object :: frames) _ = _
    rw [hd, tokens_comma, ofTokens_cons rfl]
    change .key (some name.toList) :: (d.events ++ ofTokens .key (.object :: frames) _) = _
    rw [hmore]
    simp [membersEvents]

end

/-- The events of a text that was written are those of the document, up to the end. -/
theorem events_text {d : Document} (hd : d.Sound) : events d.text = d.events ++ [.finish] := by
  have h := ofTokens_text d hd (.inl rfl) [] Parted.nil
  rw [List.append_nil, tokens_nil] at h
  exact h

namespace Event

/-- The token that brings an event. -/
def token : Event → Token
  | .null => .null
  | .bool b => .bool b
  | .number n => .number n
  | .string text? | .key text? => .string text?
  | .openArray => .openArray
  | .closeArray => .closeArray
  | .openObject => .openObject
  | .closeObject => .closeObject
  | .finish => .finish

theorem token_of_step? {expect : Expect} {frames : List Frame} {t : Token} {step : Step} {e : Event}
    (h : step? expect frames t = some step) (he : step.event = some e) : t = e.token := by
  have start (h : startValue? frames t = some step) : t = e.token := by
    cases t <;> cases h <;> cases he <;> rfl
  unfold step? at h
  split at h
  case h_1 | h_3 => exact start h
  case h_13 => cases h
  all_goals
    cases h
    cases he <;> rfl

theorem token_mem_of_mem_ofTokens {expect : Expect} {frames : List Frame} {ts : List Token} {e : Event}
    (h : e ∈ ofTokens expect frames ts) : e.token ∈ ts := by
  induction ts generalizing expect frames with
  | nil => cases h
  | cons t rest ih =>
    rw [ofTokens] at h
    split at h
    · cases h
    · next step hstep =>
      rcases List.mem_append.1 h with hevent | hrest
      · rw [token_of_step? hstep (Option.mem_toList.1 hevent)]
        exact List.mem_cons_self
      · exact List.mem_cons_of_mem _ (ih hrest)

end Event

/-- **The numbers that a reader of a text meets** are spelled as the grammar wants them. -/
theorem spelled_of_mem_events {text : List Char} {n : Numeral} (h : .number n ∈ events text) :
    Spelled n := spelled_of_mem_tokens (Event.token_mem_of_mem_ofTokens h)

end SpoolTag.Json
