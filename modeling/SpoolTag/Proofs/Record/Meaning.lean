import SpoolTag.Proofs.Json.Trees
import SpoolTag.Proofs.Record.Members

/-! # What is read has a meaning

Whatever is read as a record is an object that comes to its end, and everything in it has a meaning, in the
members that are passed over as well (`Record.hasMeaning_of_ofText`). Of a document that has a meaning, it is
the nesting alone that decides whether it is passed over (`Document.passable_iff`). -/

namespace SpoolTag

open SpoolTag.Json

/-! ### Nesting -/

namespace Json.Document

theorem mem_membersEvents {key : String} {d : Document} {members : List (String × Document)}
    (h : (key, d) ∈ members) {e : Event} (he : e ∈ d.events) : e ∈ membersEvents members := by
  induction members with
  | nil => cases h
  | cons member rest ih =>
    rcases List.mem_cons.1 h with rfl | h
    · exact List.mem_cons_of_mem _ (List.mem_append_left _ he)
    · exact List.mem_cons_of_mem _ (List.mem_append_right _ (ih h))

theorem membersPassable_eq_true_iff {depth : Nat} {members : List (String × Document)} :
    membersPassable depth members = true ↔ ∀ member ∈ members, member.2.passable depth = true := by
  induction members with
  | nil => simp [membersPassable]
  | cons member rest ih => simp [membersPassable, ih]

/-- One more bracket is opened if that is not too deep, and so on inside it. -/
theorem opened_passable_iff {depth height : Nat} {passable : Bool}
    (h : depth + 1 ≤ maxDepth → (passable = true ↔ depth + 1 + height ≤ maxDepth)) :
    (decide (depth < maxDepth) && passable) = true ↔ depth + (height + 1) ≤ maxDepth := by
  rw [Bool.and_eq_true, decide_eq_true_iff]
  constructor
  · rintro ⟨hopen, hpassable⟩
    have hinside := (h hopen).1 hpassable
    omega
  · intro hheight
    exact ⟨by omega, (h (by omega)).2 (by omega)⟩

mutual

/-- **A document that has a meaning can be passed over if it does not nest too deep.** -/
theorem passable_iff (d : Document) (hmeaning : ∀ e ∈ d.events, e.hasMeaning = true) {depth : Nat}
    (hdepth : depth ≤ maxDepth) : d.passable depth = true ↔ depth + d.tree.height ≤ maxDepth := by
  match d with
  | .null | .bool _ | .string _ => exact iff_of_true rfl hdepth
  | .number n => exact iff_of_true (hmeaning (.number n) (List.mem_singleton_self _)) hdepth
  | .array elements =>
    rw [passable, tree, SyntaxTree.height]
    exact opened_passable_iff fun hopen => elementsPassable_iff elements
      (fun e he => hmeaning e (List.mem_cons_of_mem _ (List.mem_append_left _ he))) hopen
  | .object members =>
    rw [passable, tree, SyntaxTree.height]
    exact opened_passable_iff fun hopen => membersPassable_iff members
      (fun e he => hmeaning e (List.mem_cons_of_mem _ (List.mem_append_left _ he))) hopen

theorem elementsPassable_iff (elements : List Document)
    (hmeaning : ∀ e ∈ elementsEvents elements, e.hasMeaning = true) {depth : Nat}
    (hdepth : depth ≤ maxDepth) : elementsPassable depth elements = true ↔
      depth + SyntaxTree.elementsHeight (elementTrees elements) ≤ maxDepth := by
  match elements with
  | [] => exact iff_of_true rfl hdepth
  | d :: rest =>
    obtain ⟨hfirst, hrest⟩ := List.forall_mem_append.1 hmeaning
    rw [elementsPassable, Bool.and_eq_true, passable_iff d hfirst hdepth,
      elementsPassable_iff rest hrest hdepth, elementTrees, SyntaxTree.elementsHeight]
    omega

theorem membersPassable_iff (members : List (String × Document))
    (hmeaning : ∀ e ∈ membersEvents members, e.hasMeaning = true) {depth : Nat}
    (hdepth : depth ≤ maxDepth) : membersPassable depth members = true ↔
      depth + SyntaxTree.membersHeight (memberTrees members) ≤ maxDepth := by
  match members with
  | [] => exact iff_of_true rfl hdepth
  | (_, d) :: rest =>
    obtain ⟨hfirst, hrest⟩ := List.forall_mem_append.1 (List.forall_mem_cons.1 hmeaning).2
    rw [membersPassable, Bool.and_eq_true, passable_iff d hfirst hdepth,
      membersPassable_iff rest hrest hdepth, memberTrees, SyntaxTree.membersHeight]
    omega

end

end Json.Document

/-! ### Reading -/

theorem Json.Event.hasMeaning_of_found? {e : Event} {found : Found} (h : e.found? = some found) :
    e.hasMeaning = true := by
  cases e with
  | number n =>
    obtain ⟨number, hnumber, -⟩ := Option.map_eq_some_iff.1 h
    exact Option.isSome_of_eq_some hnumber
  | string text? =>
    obtain ⟨text, htext, -⟩ := Option.map_eq_some_iff.1 h
    exact Option.isSome_of_eq_some htext
  | key text? => cases h
  | _ => rfl

namespace Record

theorem hasMeaning_of_take {d d' : Draft} {field : Mandatory} {e : Event}
    (h : d.take field e = .ok d') : e.hasMeaning = true := by
  unfold Draft.take at h
  cases field with
  | name =>
    cases e with
    | string text? =>
      cases text? with
      | none => cases h
      | some text => rfl
    | _ => cases h
  | id | spoolWeight | totalWeight =>
    dsimp only at h
    cases hread : e.int32 (some _) with
    | error error =>
      rw [hread] at h
      cases h
    | ok i =>
      cases hfound : e.found? with
      | none =>
        unfold Event.int32 Event.integer at hread
        rw [hfound] at hread
        cases hread
      | some found => exact Event.hasMeaning_of_found? hfound

/-- **One event is read**: it has a meaning, and the rest is read on, or is the end. -/
theorem readFrom_cons {d : Draft} {place : Place} {e : Event} {rest : List Event} {record : Record}
    (h : readFrom d place (e :: rest) = .ok record) :
    e.hasMeaning = true ∧ (rest = [.finish] ∨ ∃ d' place', readFrom d' place' rest = .ok record) := by
  cases place with
  | member =>
    cases e with
    | closeObject =>
      rw [readFrom] at h
      cases hfinish : d.finish with
      | error error =>
        rw [hfinish] at h
        cases h
      | ok found =>
        rw [hfinish] at h
        change (if rest = [.finish] then pure found else throw _) = Except.ok record at h
        split at h
        · next hrest => exact ⟨rfl, .inl hrest⟩
        · cases h
    | key text? =>
      cases text? with
      | none => cases h
      | some text =>
        rw [readFrom] at h
        split at h
        · exact ⟨rfl, .inr ⟨_, _, h⟩⟩
        · split at h
          · cases h
          · exact ⟨rfl, .inr ⟨_, _, h⟩⟩
    | _ => cases h
  | mandatory field =>
    rw [readFrom] at h
    cases htake : d.take field e with
    | error error =>
      rw [htake] at h
      cases h
    | ok d' =>
      rw [htake] at h
      exact ⟨hasMeaning_of_take htake, .inr ⟨d', .member, h⟩⟩
  | other key =>
    cases e with
    | number n =>
      have hleads := leads_number d key n
      cases hnumber : (Number.ofNumeral? n).isSome with
      | true =>
        rw [hnumber] at hleads
        exact ⟨hnumber, .inr ⟨_, _, (hleads rest).symm.trans h⟩⟩
      | false =>
        rw [hnumber] at hleads
        obtain ⟨halt, hhalt⟩ := hleads rest
        cases h.symm.trans hhalt
    | string text? | key text? =>
      cases text? with
      | none => cases h
      | some text => exact ⟨rfl, .inr ⟨_, _, h⟩⟩
    | _ => exact ⟨rfl, .inr ⟨_, _, h⟩⟩
  | inside depth =>
    cases e with
    | number n =>
      change (if ¬ (Number.ofNumeral? n).isSome then .error ⟨.notJson, rest.length⟩
        else readFrom d (.inside depth) rest) = Except.ok record at h
      split at h
      · cases h
      · next hnumber => exact ⟨not_not.1 hnumber, .inr ⟨_, _, h⟩⟩
    | string text? | key text? =>
      cases text? with
      | none => cases h
      | some text => exact ⟨rfl, .inr ⟨_, _, h⟩⟩
    | openArray | openObject =>
      change (if depth < maxDepth then readFrom d (.inside (depth + 1)) rest
        else .error ⟨.notJson, rest.length⟩) = Except.ok record at h
      split at h
      · exact ⟨rfl, .inr ⟨_, _, h⟩⟩
      · cases h
    | closeArray | closeObject =>
      change (if depth ≤ 2 then readFrom d .member rest else readFrom d (.inside (depth - 1)) rest) =
        Except.ok record at h
      split at h
      · exact ⟨rfl, .inr ⟨_, _, h⟩⟩
      · exact ⟨rfl, .inr ⟨_, _, h⟩⟩
    | _ => exact ⟨rfl, .inr ⟨_, _, h⟩⟩

/-- **Whatever is read comes to its end and has a meaning.** -/
theorem hasMeaning_of_readFrom {d : Draft} {place : Place} {events : List Event} {record : Record}
    (h : readFrom d place events = .ok record) :
    .finish ∈ events ∧ ∀ e ∈ events, e.hasMeaning = true := by
  induction events generalizing d place with
  | nil => cases place <;> cases h
  | cons e rest ih =>
    obtain ⟨hmeaning, rfl | ⟨d', place', hrest⟩⟩ := readFrom_cons h
    · refine ⟨List.mem_cons_of_mem _ (List.mem_singleton_self _), List.forall_mem_cons.2 ⟨hmeaning, ?_⟩⟩
      exact List.forall_mem_singleton.2 rfl
    · obtain ⟨hfinish, hall⟩ := ih hrest
      exact ⟨List.mem_cons_of_mem _ hfinish, List.forall_mem_cons.2 ⟨hmeaning, hall⟩⟩

/-- What is read is an object, comes to its end and has a meaning. -/
theorem hasMeaning_of_ofText {text : List Char} {record : Record} (h : ofText text = .ok record) :
    (∃ rest, events text = .openObject :: rest) ∧ .finish ∈ events text ∧
      ∀ e ∈ events text, e.hasMeaning = true := by
  unfold ofText at h
  cases hevents : events text with
  | nil =>
    rw [hevents] at h
    cases h
  | cons e rest =>
    rw [hevents] at h
    cases e with
    | openObject =>
      cases hread : readFrom {} .member rest with
      | error halt =>
        rw [ofEvents, hread] at h
        cases h
      | ok found =>
        obtain ⟨hfinish, hall⟩ := hasMeaning_of_readFrom hread
        exact ⟨⟨rest, rfl⟩, List.mem_cons_of_mem _ hfinish, List.forall_mem_cons.2 ⟨rfl, hall⟩⟩
    | _ => cases h

end Record

end SpoolTag
