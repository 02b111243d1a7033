import SpoolTag.Json.ReadError
import SpoolTag.Proofs.Json.Documents
import SpoolTag.Proofs.Json.Range

/-! # Texts and their trees

A text that is a document from end to end parses as a tree: its events are those of the tree, and then comes
the end (`Parses`, `finish_mem_events_iff`). The strings and keys of the tree need not have a meaning, since a text
may write surrogates that are no pair. If they all have one, the tree is that of a document
(`SyntaxTree.exists_document`).

The brackets that are open tell how the events of a text go on if it comes to its end (`Event.Completes`); each
token keeps to that (`Event.completes_step`). -/

namespace SpoolTag.Json

open SpoolTag.Number

/-- A document as it is written: where a string or a key has no meaning, nothing is told of it. -/
inductive SyntaxTree where
  | null
  | bool (b : Bool)
  | number (n : Numeral)
  | string (text? : Option String)
  | array (elements : List SyntaxTree)
  | object (members : List (Option String × SyntaxTree))

namespace SyntaxTree

mutual

/-- What a reader meets of the tree. -/
def events : SyntaxTree → List Event
  | .null => [.null]
  | .bool b => [.bool b]
  | .number n => [.number n]
  | .string text? => [.string (text?.map String.toList)]
  | .array elements => .openArray :: (elementsEvents elements ++ [.closeArray])
  | .object members => .openObject :: (membersEvents members ++ [.closeObject])

def elementsEvents : List SyntaxTree → List Event
  | [] => []
  | tree :: rest => events tree ++ elementsEvents rest

def membersEvents : List (Option String × SyntaxTree) → List Event
  | [] => []
  | (key, tree) :: rest => .key (key.map String.toList) :: (events tree ++ membersEvents rest)

end

end SyntaxTree

/-- The text is a document from end to end, and this is its tree. -/
def Parses (text : List Char) (tree : SyntaxTree) : Prop := events text = tree.events ++ [.finish]

instance (text : List Char) (tree : SyntaxTree) : Decidable (Parses text tree) :=
  inferInstanceAs (Decidable (events text = tree.events ++ [.finish]))

/-! ### Every document is a tree -/

namespace Event

open SyntaxTree

/-- What is still to come when these brackets are open and a value has just ended: elements or members, the
bracket, and so on outwards, up to the end. -/
def Closes : List Frame → List Event → Prop
  | [], events => events = [.finish]
  | .array :: frames, events => ∃ elements rest,
      events = elementsEvents elements ++ .closeArray :: rest ∧ Closes frames rest
  | .object :: frames, events => ∃ members rest,
      events = membersEvents members ++ .closeObject :: rest ∧ Closes frames rest

/-- What is still to come of a text that comes to its end. -/
def Completes : Expect → List Frame → List Event → Prop
  | .value, frames, events | .colon, frames, events => ∃ (tree : SyntaxTree) (rest : List Event),
      events = tree.events ++ rest ∧ Closes frames rest
  | .key, frames, events => ∃ (key : Option String) (tree : SyntaxTree) (rest : List Event),
      events = .key (key.map String.toList) :: (tree.events ++ rest) ∧ Closes frames rest
  | .firstValue, frames, events | .firstKey, frames, events | .more, frames, events =>
      Closes frames events

/-- A bracket that has just been opened is the innermost one. -/
def Expect.Agrees : Expect → List Frame → Prop
  | .firstValue, frames => frames.head? = some .array
  | .firstKey, frames => frames.head? = some .object
  | _, _ => True

variable {expect : Expect} {frames : List Frame} {t : Token} {step : Step} {events : List Event}

theorem closes_element (h : Completes .value (.array :: frames) events) :
    Closes (.array :: frames) events := by
  obtain ⟨tree, _, rfl, elements, rest, rfl, hrest⟩ := h
  exact ⟨tree :: elements, rest, (List.append_assoc ..).symm, hrest⟩

theorem closes_member (h : Completes .key (.object :: frames) events) :
    Closes (.object :: frames) events := by
  obtain ⟨key, tree, _, rfl, members, rest, rfl, hrest⟩ := h
  exact ⟨(key, tree) :: members, rest,
    congrArg _ (List.append_assoc ..).symm, hrest⟩

/-- A scalar, or an opened bracket with what closes it, is a tree. -/
theorem completes_startValue (h : startValue? frames t = some step)
    (hrest : Completes step.expect step.frames events) :
    Completes .value frames (step.event.toList ++ events) := by
  have scalar (tree : SyntaxTree) (hone : tree.events = step.event.toList)
      (hcloses : Closes frames events) : Completes .value frames (step.event.toList ++ events) :=
    ⟨tree, events, by rw [hone], hcloses⟩
  cases t with
  | null =>
    cases h
    exact scalar .null rfl hrest
  | bool b =>
    cases h
    exact scalar (.bool b) rfl hrest
  | number n =>
    cases h
    exact scalar (.number n) rfl hrest
  | string text? =>
    cases h
    refine scalar (.string (text?.map String.ofList)) ?_ hrest
    cases text? <;> simp [SyntaxTree.events]
  | openArray =>
    cases h
    obtain ⟨elements, rest, rfl, hcloses⟩ := hrest
    exact ⟨.array elements, rest, by simp [SyntaxTree.events], hcloses⟩
  | openObject =>
    cases h
    obtain ⟨members, rest, rfl, hcloses⟩ := hrest
    exact ⟨.object members, rest, by simp [SyntaxTree.events], hcloses⟩
  | _ => cases h

theorem completes_key (text? : Option (List Char)) (hrest : Completes .colon frames events) :
    Completes .key frames (.key text? :: events) := by
  obtain ⟨tree, rest, rfl, hcloses⟩ := hrest
  refine ⟨text?.map String.ofList, tree, rest, ?_, hcloses⟩
  cases text? <;> simp

/-- **Each token keeps to what the open brackets ask for.** -/
theorem completes_step (hagrees : expect.Agrees frames) (h : step? expect frames t = some step)
    (ht : t ≠ .finish) (hrest : Completes step.expect step.frames events) :
    Completes expect frames (step.event.toList ++ events) := by
  unfold step? at h
  split at h
  case h_1 => exact completes_startValue h hrest
  case h_3 =>
    -- the first element of an array
    obtain ⟨outer, rfl⟩ := List.head?_eq_some_iff.1 hagrees
    exact closes_element (completes_startValue h hrest)
  case h_5 text? =>
    -- the first key of an object
    cases h
    obtain ⟨outer, rfl⟩ := List.head?_eq_some_iff.1 hagrees
    exact closes_member (completes_key text? hrest)
  case h_6 text? =>
    cases h
    exact completes_key text? hrest
  case h_7 =>
    cases h
    exact hrest
  case h_8 =>
    -- a comma in an array
    cases h
    exact closes_element hrest
  case h_9 =>
    -- a comma in an object
    cases h
    exact closes_member hrest
  case h_12 => exact absurd rfl ht
  case h_13 => cases h
  -- a bracket that closes
  all_goals
    cases h
    exact ⟨[], events, rfl, hrest⟩

theorem agrees_step (h : step? expect frames t = some step) : step.expect.Agrees step.frames := by
  have start (h : startValue? frames t = some step) : step.expect.Agrees step.frames := by
    cases t <;> cases h <;> trivial
  unfold step? at h
  split at h
  case h_1 | h_3 => exact start h
  all_goals cases h; try trivial

/-- The end of a text is in place where no bracket is open. -/
theorem step?_finish (h : step? expect frames .finish = some step) :
    expect = .more ∧ frames = [] ∧ step = ⟨some .finish, .more, []⟩ := by
  cases expect with
  | more =>
    rcases frames with _ | ⟨frame, frames⟩
    · exact ⟨rfl, rfl, (Option.some.inj h).symm⟩
    · cases frame <;> cases h
  | _ => rcases frames with _ | ⟨frame, frames⟩ <;> first | cases h | (cases frame <;> cases h)

/-- **The events up to the end** are what was asked for from the beginning. -/
theorem completes_ofTokens {ts : List Token} (hts : .finish ∉ ts) (hagrees : expect.Agrees frames)
    (h : .finish ∈ ofTokens expect frames (ts ++ [.finish])) :
    Completes expect frames (ofTokens expect frames (ts ++ [.finish])) := by
  induction ts generalizing expect frames with
  | nil =>
    rw [List.nil_append, ofTokens] at h ⊢
    split at h
    · cases h
    · next step hstep =>
      obtain ⟨rfl, rfl, rfl⟩ := step?_finish hstep
      rfl
  | cons t rest ih =>
    rw [List.mem_cons, not_or] at hts
    rw [List.cons_append, ofTokens] at h ⊢
    split at h
    · cases h
    · next step hstep =>
      have hrest : .finish ∈ ofTokens step.expect step.frames (rest ++ [.finish]) :=
        (List.mem_append.1 h).resolve_left fun hevent =>
          hts.1 (token_of_step? hstep (Option.mem_toList.1 hevent)).symm
      exact completes_step hagrees hstep (Ne.symm hts.1) (ih hts.2 (agrees_step hstep) hrest)

end Event

theorem Token.ne_finish_of_next? {c : Char} {rest after : List Char} {t : Token}
    (h : next? c rest = some (t, after)) : t ≠ .finish := by
  rintro rfl
  unfold next? at h
  split at h <;> simp at h

/-- The end of a text is its last token, if the text is cut into tokens up to there. -/
theorem exists_tokens_eq {text : List Char} (h : .finish ∈ tokens text) :
    ∃ ts, tokens text = ts ++ [.finish] ∧ .finish ∉ ts := by
  unfold tokens at h ⊢
  fun_induction scan text with
  | case1 => exact ⟨[], rfl, List.not_mem_nil⟩
  | case2 c rest _ ih => exact ih h
  | case3 => simp at h
  | case4 c rest _ t after hnext ih =>
    have hne := Token.ne_finish_of_next? hnext
    rw [List.map_cons] at h ⊢
    obtain ⟨ts, hts, hnot⟩ := ih ((List.mem_cons.1 h).resolve_left (Ne.symm hne))
    refine ⟨t :: ts, by rw [hts, List.cons_append], ?_⟩
    rw [List.mem_cons, not_or]
    exact ⟨Ne.symm hne, hnot⟩

/-- **A text that is a document from end to end parses as a tree**, and no other text does. -/
theorem finish_mem_events_iff {text : List Char} : .finish ∈ events text ↔ ∃ tree, Parses text tree := by
  constructor
  · intro h
    obtain ⟨ts, htokens, hts⟩ := exists_tokens_eq (Event.token_mem_of_mem_ofTokens h)
    have hagrees : Event.Expect.Agrees .value [] := trivial
    unfold events at h
    rw [htokens] at h
    obtain ⟨tree, rest, hevents, rfl⟩ := Event.completes_ofTokens hts hagrees h
    refine ⟨tree, ?_⟩
    unfold Parses events
    rw [htokens, hevents]
  · rintro ⟨tree, h⟩
    rw [h]
    exact List.mem_append_right _ (List.mem_singleton_self _)

/-! ### Trees of documents -/

namespace Document

mutual

/-- The tree of a document. -/
def tree : Document → SyntaxTree
  | .null => .null
  | .bool b => .bool b
  | .number n => .number n
  | .string s => .string (some s)
  | .array elements => .array (elementTrees elements)
  | .object members => .object (memberTrees members)

def elementTrees : List Document → List SyntaxTree
  | [] => []
  | d :: rest => tree d :: elementTrees rest

def memberTrees : List (String × Document) → List (Option String × SyntaxTree)
  | [] => []
  | (key, d) :: rest => (some key, tree d) :: memberTrees rest

end

mutual

theorem events_tree (d : Document) : d.tree.events = d.events := by
  cases d with
  | array elements => rw [tree, SyntaxTree.events, elementsEvents_elementTrees, events]
  | object members => rw [tree, SyntaxTree.events, membersEvents_memberTrees, events]
  | _ => rfl

theorem elementsEvents_elementTrees (elements : List Document) :
    SyntaxTree.elementsEvents (elementTrees elements) = elementsEvents elements := by
  match elements with
  | [] => rfl
  | d :: rest =>
    rw [elementTrees, SyntaxTree.elementsEvents, events_tree d, elementsEvents_elementTrees rest,
      elementsEvents]

theorem membersEvents_memberTrees (members : List (String × Document)) :
    SyntaxTree.membersEvents (memberTrees members) = membersEvents members := by
  match members with
  | [] => rfl
  | (key, d) :: rest =>
    rw [memberTrees, SyntaxTree.membersEvents, events_tree d, membersEvents_memberTrees rest,
      membersEvents]
    rfl

end

/-- The text of a document parses as its tree. -/
theorem parses_text {d : Document} (hd : d.Sound) : Parses d.text d.tree := by
  unfold Parses
  rw [events_text hd, events_tree]

end Document

namespace SyntaxTree

mutual

/-- **A tree of which everything has a meaning is that of a document.** -/
theorem exists_document (tree : SyntaxTree) (h : ∀ e ∈ tree.events, e.hasMeaning = true) :
    ∃ d : Document, d.tree = tree := by
  match tree with
  | .null => exact ⟨.null, rfl⟩
  | .bool b => exact ⟨.bool b, rfl⟩
  | .number n => exact ⟨.number n, rfl⟩
  | .string (some s) => exact ⟨.string s, rfl⟩
  | .string none => exact absurd (h _ (List.mem_singleton_self _)) Bool.false_ne_true
  | .array elements =>
    obtain ⟨ds, rfl⟩ := exists_elements elements fun e he =>
      h e (List.mem_cons_of_mem _ (List.mem_append_left _ he))
    exact ⟨.array ds, rfl⟩
  | .object members =>
    obtain ⟨ds, rfl⟩ := exists_members members fun e he =>
      h e (List.mem_cons_of_mem _ (List.mem_append_left _ he))
    exact ⟨.object ds, rfl⟩

theorem exists_elements (elements : List SyntaxTree)
    (h : ∀ e ∈ elementsEvents elements, e.hasMeaning = true) :
    ∃ ds, Document.elementTrees ds = elements := by
  match elements with
  | [] => exact ⟨[], rfl⟩
  | tree :: rest =>
    obtain ⟨hfirst, hrest⟩ := List.forall_mem_append.1 h
    obtain ⟨d, rfl⟩ := exists_document tree hfirst
    obtain ⟨ds, rfl⟩ := exists_elements rest hrest
    exact ⟨d :: ds, rfl⟩

theorem exists_members (members : List (Option String × SyntaxTree))
    (h : ∀ e ∈ membersEvents members, e.hasMeaning = true) :
    ∃ ds, Document.memberTrees ds = members := by
  match members with
  | [] => exact ⟨[], rfl⟩
  | (none, tree) :: rest => exact absurd (h _ List.mem_cons_self) Bool.false_ne_true
  | (some key, tree) :: rest =>
    obtain ⟨hfirst, hrest⟩ := List.forall_mem_append.1 (List.forall_mem_cons.1 h).2
    obtain ⟨d, rfl⟩ := exists_document tree hfirst
    obtain ⟨ds, rfl⟩ := exists_members rest hrest
    exact ⟨(key, d) :: ds, rfl⟩

end

/-! ### What a reader can follow -/

mutual

/-- How many brackets are open at a time at most. -/
def height : SyntaxTree → Nat
  | .array elements => elementsHeight elements + 1
  | .object members => membersHeight members + 1
  | _ => 0

def elementsHeight : List SyntaxTree → Nat
  | [] => 0
  | tree :: rest => max tree.height (elementsHeight rest)

def membersHeight : List (Option String × SyntaxTree) → Nat
  | [] => 0
  | (_, tree) :: rest => max tree.height (membersHeight rest)

end

/-- A reader can follow the document: its numbers can be worked out within double precision, its strings and
keys have a meaning, and no more than `maxDepth` brackets are open at a time. -/
structure Legible (tree : SyntaxTree) : Prop where
  numbers : ∀ n, .number n ∈ tree.events → ¬ n.Exceeds
  strings : .string none ∉ tree.events
  keys : .key none ∉ tree.events
  nesting : tree.height ≤ maxDepth

/-- What can be followed is what has a meaning and does not nest too deep. -/
theorem legible_iff {tree : SyntaxTree} :
    tree.Legible ↔ (∀ e ∈ tree.events, e.hasMeaning = true) ∧ tree.height ≤ maxDepth := by
  have hnumber (n : Numeral) : (Event.number n).hasMeaning = true ↔ ¬ n.Exceeds := by
    rw [← ofNumeral?_eq_none_iff, ← ne_eq, Option.ne_none_iff_isSome]
    rfl
  constructor
  · intro h
    refine ⟨fun e he => ?_, h.nesting⟩
    cases e with
    | number n => exact (hnumber n).2 (h.numbers n he)
    | string text? =>
      cases text? with
      | none => exact absurd he h.strings
      | some text => rfl
    | key text? =>
      cases text? with
      | none => exact absurd he h.keys
      | some text => rfl
    | _ => rfl
  · rintro ⟨hmeaning, hnesting⟩
    exact ⟨fun n hn => (hnumber n).1 (hmeaning _ hn),
      fun hstring => Bool.false_ne_true (hmeaning _ hstring),
      fun hkey => Bool.false_ne_true (hmeaning _ hkey), hnesting⟩

theorem mem_membersEvents {e : Event} {members : List (Option String × SyntaxTree)} :
    e ∈ membersEvents members ↔
      ∃ member ∈ members, e = .key (member.1.map String.toList) ∨ e ∈ member.2.events := by
  induction members with
  | nil => simp [membersEvents]
  | cons member rest ih => simp [membersEvents, ih, or_assoc]

theorem membersHeight_le {bound : Nat} {members : List (Option String × SyntaxTree)} :
    membersHeight members ≤ bound ↔ ∀ member ∈ members, member.2.height ≤ bound := by
  induction members with
  | nil => simp [membersHeight]
  | cons member rest ih => simp [membersHeight, ih]

/-- Whether an object can be followed does not depend on the order of its members. -/
theorem Legible.perm {members members' : List (Option String × SyntaxTree)}
    (h : (object members).Legible) (hperm : members'.Perm members) : (object members').Legible := by
  have hevents (e : Event) : e ∈ (object members').events ↔ e ∈ (object members).events := by
    simp only [events, List.mem_cons, List.mem_append, mem_membersEvents, hperm.mem_iff]
  have hnesting : ∀ member ∈ members, member.2.height ≤ maxDepth - 1 :=
    membersHeight_le.1 (Nat.le_sub_one_of_lt h.nesting)
  refine ⟨fun n hn => h.numbers n ((hevents _).1 hn), mt (hevents _).1 h.strings,
    mt (hevents _).1 h.keys, ?_⟩
  have hheight : membersHeight members' ≤ maxDepth - 1 :=
    membersHeight_le.2 fun member hmember => hnesting member (hperm.mem_iff.1 hmember)
  exact Nat.add_le_of_le_sub (by decide) hheight

end SyntaxTree

end SpoolTag.Json
