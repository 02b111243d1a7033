import SpoolTag.Proofs.Json.Documents
import SpoolTag.Record.Reading

/-! # Records are read member by member

What is read of an object depends on its members one after the other: each of them is refused, or it
changes the draft of the record and the next one is read (`Record.leads_members`). A mandatory member puts a
value into its place, which must be empty; any other one puts a value under its key, or takes away the one
that was there (`Draft.member?`). So the text of an object is read as a record exactly if no member is
refused and the draft has all its mandatory fields in the end (`Record.ofEvents_object_ok_iff`), and a
number that is put in the place of another one changes nothing but the field of its key
(`Record.ofEvents_replace`). -/

namespace SpoolTag

open SpoolTag.Json

namespace Json.Document

/-- The event with which a document begins. -/
def first : Document → Event
  | .null => .null
  | .bool b => .bool b
  | .number n => .number n
  | .string s => .string (some s.toList)
  | .array _ => .openArray
  | .object _ => .openObject

mutual

/-- Whether a document can be passed over inside this many brackets: its numbers can be worked out, and
it does not nest too deep. -/
def passable (depth : Nat) : Document → Bool
  | .number n => (Number.ofNumeral? n).isSome
  | .array elements => depth < maxDepth && elementsPassable (depth + 1) elements
  | .object members => depth < maxDepth && membersPassable (depth + 1) members
  | _ => true

def elementsPassable (depth : Nat) : List Document → Bool
  | [] => true
  | d :: rest => passable depth d && elementsPassable depth rest

def membersPassable (depth : Nat) : List (String × Document) → Bool
  | [] => true
  | (_, d) :: rest => passable depth d && membersPassable depth rest

end

end Json.Document

/-- Puts a value under a name, or leaves it without one. -/
def Fields.set (fields : Fields) (name : String) : Option Value → Fields
  | some v => fields.insert name v
  | none => fields.erase name

theorem Fields.get?_set (fields : Fields) (name key : String) (v? : Option Value) :
    (fields.set name v?).get? key = if name = key then v? else fields.get? key := by
  cases v? with
  | some v => exact get?_insert fields name key v
  | none => exact get?_erase fields name key

theorem Fields.set_set (fields : Fields) (name : String) (v? w? : Option Value) :
    (fields.set name v?).set name w? = fields.set name w? := by
  refine ext_get? fun key => ?_
  simp only [get?_set]
  split <;> rfl

theorem Fields.set_comm (fields : Fields) {a b : String} (h : a ≠ b) (v? w? : Option Value) :
    (fields.set a v?).set b w? = (fields.set b w?).set a v? := by
  refine ext_get? fun key => ?_
  simp only [get?_set]
  by_cases hb : b = key
  · subst hb
    rw [if_pos rfl, if_neg h, if_pos rfl]
  · rw [if_neg hb, if_neg hb]

namespace Record

/-- What a draft becomes with a member, unless that is refused. -/
def Draft.member? (d : Draft) (name : String) (document : Document) : Option Draft :=
  match Mandatory.ofKey? name with
  | some field => if d.has field then none else (d.take field document.first).toOption
  | none =>
    if document.passable 1 then
      some { d with optional := d.optional.set name (Value.ofEvent? document.first) }
    else none

/-- What a draft becomes with members, unless one of them is refused. -/
def Draft.members? (d : Draft) (members : List (String × Document)) : Option Draft :=
  members.foldlM (fun d member => d.member? member.1 member.2) d

theorem Draft.members?_cons (d : Draft) (name : String) (document : Document)
    (rest : List (String × Document)) : d.members? ((name, document) :: rest) =
      (d.member? name document).bind fun d' => d'.members? rest := List.foldlM_cons

theorem Draft.members?_append (d : Draft) (before after : List (String × Document)) :
    d.members? (before ++ after) = (d.members? before).bind fun d' => d'.members? after :=
  List.foldlM_append

/-- Puts a value under an optional key of a draft, or leaves it without one. -/
def Draft.set (d : Draft) (key : String) (v? : Option Value) : Draft :=
  { d with optional := d.optional.set key v? }

theorem Draft.finish_set (d : Draft) (key : String) (v? : Option Value) :
    (d.set key v?).finish =
      d.finish.map fun record => { record with optional := record.optional.set key v? } := by
  obtain ⟨id, name, spoolWeight, totalWeight, optional⟩ := d
  cases id <;> cases name <;> cases spoolWeight <;> cases totalWeight <;> rfl

theorem Draft.take_set (d : Draft) (key : String) (v? : Option Value) (field : Mandatory) (e : Event) :
    (d.set key v?).take field e = (d.take field e).map (·.set key v?) := by
  cases field with
  | name =>
    unfold Draft.take
    cases e.text (some Mandatory.name.key) <;> rfl
  | id | spoolWeight | totalWeight =>
    unfold Draft.take
    cases e.int32 (some _) <;> rfl

/-- The value under a key does not bear on the members with another one. -/
theorem Draft.member?_set (d : Draft) {key name : String} (h : name ≠ key) (v? : Option Value)
    (document : Document) :
    (d.set key v?).member? name document = (d.member? name document).map (·.set key v?) := by
  unfold Draft.member?
  cases Mandatory.ofKey? name with
  | none =>
    dsimp only
    split
    · exact congrArg some (congrArg (fun o => { d with optional := o }) (Fields.set_comm _ h.symm _ _))
    · rfl
  | some field =>
    have hhas : (d.set key v?).has field = d.has field := by cases field <;> rfl
    dsimp only
    rw [hhas, take_set]
    split
    · rfl
    · cases d.take field document.first <;> rfl

theorem Draft.members?_set (d : Draft) {key : String} (v? : Option Value)
    {members : List (String × Document)} (h : key ∉ members.map Prod.fst) :
    (d.set key v?).members? members = (d.members? members).map (·.set key v?) := by
  induction members generalizing d with
  | nil => rfl
  | cons member rest ih =>
    obtain ⟨name, document⟩ := member
    rw [List.map_cons, List.mem_cons, not_or] at h
    rw [members?_cons, members?_cons, member?_set d (Ne.symm h.1)]
    cases d.member? name document with
    | none => rfl
    | some d' => exact ih d' h.2

/-- What members come to of which one is the last with its key, and the key is optional. -/
theorem Draft.members?_around {before after : List (String × Document)} {key : String}
    (hkey : Mandatory.ofKey? key = none) (hafter : key ∉ after.map Prod.fst) (document : Document) :
    Draft.members? {} (before ++ (key, document) :: after) =
      if document.passable 1 then
        ((Draft.members? {} before).bind fun d => d.members? after).map
          (·.set key (Value.ofEvent? document.first))
      else none := by
  rw [members?_append]
  cases Draft.members? {} before with
  | none => simp
  | some d =>
    have hmember : d.member? key document =
        if document.passable 1 then some (d.set key (Value.ofEvent? document.first)) else none := by
      rw [member?, hkey]
      rfl
    rw [Option.bind_some, members?_cons, hmember]
    split
    · exact members?_set d _ hafter
    · rfl

/-! ### Reading on -/

/-- Events lead a reader from a place to another one with another draft, whatever follows them, or to an
error. -/
def Leads (d : Draft) (place : Place) (events : List Event) : Option (Draft × Place) → Prop
  | some (d', place') => ∀ rest, readFrom d place (events ++ rest) = readFrom d' place' rest
  | none => ∀ rest, ∃ halt, readFrom d place (events ++ rest) = .error halt

namespace Leads

variable {d d' : Draft} {place place' : Place} {events events' : List Event}
  {next : Option (Draft × Place)}

theorem append (h : Leads d place events (some (d', place'))) (h' : Leads d' place' events' next) :
    Leads d place (events ++ events') next := by
  cases next with
  | none =>
    intro rest
    rw [List.append_assoc, h]
    exact h' rest
  | some next =>
    intro rest
    rw [List.append_assoc, h]
    exact h' rest

theorem append_of_none (h : Leads d place events none) (events' : List Event) :
    Leads d place (events ++ events') none := by
  intro rest
  rw [List.append_assoc]
  exact h _

theorem nil (d : Draft) (place : Place) : Leads d place [] (some (d, place)) := fun _ => rfl

end Leads

/-- Where a reader stands inside this many brackets, or behind them. -/
def Place.within (depth : Nat) : Place := if depth ≤ 1 then .member else .inside depth

theorem leads_close (d : Draft) {depth : Nat} (hdepth : 1 ≤ depth) {closing : Event}
    (hclosing : closing = .closeArray ∨ closing = .closeObject) :
    Leads d (.inside (depth + 1)) [closing] (some (d, .within depth)) := by
  intro rest
  have hread : readFrom d (.inside (depth + 1)) (closing :: rest) =
      if depth + 1 ≤ 2 then readFrom d .member rest else readFrom d (.inside depth) rest := by
    rcases hclosing with rfl | rfl <;> rfl
  unfold Place.within
  rw [List.singleton_append, hread]
  by_cases h : depth ≤ 1
  · rw [if_pos (by omega), if_pos h]
  · rw [if_neg (by omega), if_neg h]

theorem leads_open (d : Draft) (depth : Nat) {opening : Event}
    (hopening : opening = .openArray ∨ opening = .openObject) :
    Leads d (.inside depth) [opening]
      (if depth < maxDepth then some (d, .inside (depth + 1)) else none) := by
  have hread (rest : List Event) : readFrom d (.inside depth) (opening :: rest) =
      if depth < maxDepth then readFrom d (.inside (depth + 1)) rest
      else .error ⟨.notJson, rest.length⟩ := by
    rcases hopening with rfl | rfl <;> rfl
  split
  · next h => exact fun rest => (hread rest).trans (if_pos h)
  · next h => exact fun rest => ⟨_, (hread rest).trans (if_neg h)⟩

/-- What stands between brackets is passed over with the brackets. -/
theorem leads_brackets {d d' : Draft} {place : Place} {depth : Nat} {opening closing : Event}
    {inner : List Event} {passed : Bool} (hdepth : 1 ≤ depth)
    (hopening : Leads d place [opening] (some (d', .inside (depth + 1))))
    (hinner : Leads d' (.inside (depth + 1)) inner
      (if passed then some (d', .inside (depth + 1)) else none))
    (hclosing : closing = .closeArray ∨ closing = .closeObject) :
    Leads d place (opening :: (inner ++ [closing]))
      (if passed then some (d', .within depth) else none) := by
  have hrest : Leads d' (.inside (depth + 1)) (inner ++ [closing])
      (if passed then some (d', .within depth) else none) := by
    cases passed with
    | false => exact hinner.append_of_none _
    | true => exact hinner.append (leads_close d' hdepth hclosing)
  exact hopening.append hrest

mutual

/-- **A document is passed over** inside the value of a member. -/
theorem leads_document (d : Draft) (document : Document) {depth : Nat} (hdepth : 2 ≤ depth) :
    Leads d (.inside depth) document.events
      (if document.passable depth then some (d, .inside depth) else none) := by
  have hwithin : Place.within depth = .inside depth := if_neg (by omega)
  match document with
  | .null => exact fun _ => rfl
  | .bool b => exact fun _ => rfl
  | .string s => exact fun _ => rfl
  | .number n =>
    unfold Document.passable
    have hread (rest : List Event) : readFrom d (.inside depth) (.number n :: rest) =
        if ¬ (Number.ofNumeral? n).isSome then .error ⟨.notJson, rest.length⟩
        else readFrom d (.inside depth) rest := rfl
    cases hn : (Number.ofNumeral? n).isSome with
    | true => exact fun rest => (hread rest).trans (if_neg (by simp [hn]))
    | false => exact fun rest => ⟨_, (hread rest).trans (if_pos (by simp [hn]))⟩
  | .array elements =>
    have hopen := leads_open d depth (.inl rfl : Event.openArray = .openArray ∨ _)
    unfold Document.passable Document.events
    by_cases h : depth < maxDepth
    · rw [if_pos h] at hopen
      rw [decide_eq_true h, Bool.true_and, ← hwithin]
      exact leads_brackets (by omega) (hwithin ▸ hopen)
        (leads_elements d elements (Nat.le_succ_of_le hdepth)) (.inl rfl)
    · rw [if_neg h] at hopen
      rw [decide_eq_false h, Bool.false_and]
      exact hopen.append_of_none _
  | .object members =>
    have hopen := leads_open d depth (.inr rfl : Event.openObject = .openArray ∨ _)
    unfold Document.passable Document.events
    by_cases h : depth < maxDepth
    · rw [if_pos h] at hopen
      rw [decide_eq_true h, Bool.true_and, ← hwithin]
      exact leads_brackets (by omega) (hwithin ▸ hopen)
        (leads_inner d members (Nat.le_succ_of_le hdepth)) (.inr rfl)
    · rw [if_neg h] at hopen
      rw [decide_eq_false h, Bool.false_and]
      exact hopen.append_of_none _

theorem leads_elements (d : Draft) (elements : List Document) {depth : Nat} (hdepth : 2 ≤ depth) :
    Leads d (.inside depth) (Document.elementsEvents elements)
      (if Document.elementsPassable depth elements then some (d, .inside depth) else none) := by
  match elements with
  | [] => exact Leads.nil d _
  | document :: rest =>
    have hfirst := leads_document d document hdepth
    have hrest := leads_elements d rest hdepth
    unfold Document.elementsEvents Document.elementsPassable
    cases hpassable : document.passable depth with
    | false =>
      rw [hpassable] at hfirst
      exact hfirst.append_of_none _
    | true =>
      rw [hpassable] at hfirst
      exact hfirst.append hrest

theorem leads_inner (d : Draft) (members : List (String × Document)) {depth : Nat} (hdepth : 2 ≤ depth) :
    Leads d (.inside depth) (Document.membersEvents members)
      (if Document.membersPassable depth members then some (d, .inside depth) else none) := by
  match members with
  | [] => exact Leads.nil d _
  | (key, document) :: rest =>
    have hkey : Leads d (.inside depth) [.key (some key.toList)] (some (d, .inside depth)) :=
      fun _ => rfl
    have hfirst := leads_document d document hdepth
    have hrest := leads_inner d rest hdepth
    unfold Document.membersEvents Document.membersPassable
    cases hpassable : document.passable depth with
    | false =>
      rw [hpassable] at hfirst
      exact hkey.append (hfirst.append_of_none (Document.membersEvents rest))
    | true =>
      rw [hpassable] at hfirst
      exact hkey.append (hfirst.append hrest)

end

/-! ### Members -/

/-- A number that can be worked out is put under its key. -/
theorem leads_number (d : Draft) (key : String) (n : Number.Numeral) :
    Leads d (.other key) [.number n]
      (if (Number.ofNumeral? n).isSome then
        some ({ d with optional := d.optional.set key (Value.ofEvent? (.number n)) }, .member)
      else none) := by
  have hread (rest : List Event) : readFrom d (.other key) (.number n :: rest) =
      match Value.ofEvent? (.number n) with
      | some v => readFrom { d with optional := d.optional.insert key v } .member rest
      | none =>
        if (Event.number n).hasMeaning then
          readFrom { d with optional := d.optional.erase key } .member rest
        else .error ⟨.notJson, rest.length⟩ := by
    rw [readFrom.eq_def]
    dsimp only
    cases Value.ofEvent? (.number n) <;> rfl
  cases hn : Number.ofNumeral? n with
  | some number =>
    have hvalue : Value.ofEvent? (.number n) = some (Value.ofNumber number) :=
      congrArg (Option.map Value.ofNumber) hn
    intro rest
    refine (hread rest).trans ?_
    rw [hvalue]
    rfl
  | none =>
    have hvalue : Value.ofEvent? (.number n) = none := congrArg (Option.map Value.ofNumber) hn
    have hmeaning : (Event.number n).hasMeaning = false := congrArg Option.isSome hn
    intro rest
    refine ⟨⟨.notJson, rest.length⟩, (hread rest).trans ?_⟩
    rw [hvalue]
    dsimp only
    rw [hmeaning, if_neg Bool.false_ne_true]

/-- The value of a member that is not mandatory is put under its key, or there is none under it then. -/
theorem leads_value (d : Draft) (key : String) (document : Document) :
    Leads d (.other key) document.events
      (if document.passable 1 then
        some ({ d with optional := d.optional.set key (Value.ofEvent? document.first) }, .member)
      else none) := by
  cases document with
  | null => exact fun _ => rfl
  | bool b => exact fun _ => rfl
  | string s => exact fun _ => rfl
  | number n => exact leads_number d key n
  | array elements =>
    have hopen : Leads d (.other key) [.openArray]
        (some ({ d with optional := d.optional.erase key }, .inside 2)) := fun _ => rfl
    exact leads_brackets le_rfl hopen (leads_elements _ elements le_rfl) (.inl rfl)
  | object members =>
    have hopen : Leads d (.other key) [.openObject]
        (some ({ d with optional := d.optional.erase key }, .inside 2)) := fun _ => rfl
    exact leads_brackets le_rfl hopen (leads_inner _ members le_rfl) (.inr rfl)

/-- What is taken for a mandatory field is a scalar. -/
theorem events_of_take {d d' : Draft} {field : Mandatory} {document : Document}
    (h : d.take field document.first = .ok d') : document.events = [document.first] := by
  cases document with
  | array elements => cases field <;> cases h
  | object members => cases field <;> cases h
  | _ => rfl

theorem leads_mandatory {d : Draft} {field : Mandatory} (document : Document) :
    Leads d (.mandatory field) document.events
      ((d.take field document.first).toOption.map (·, .member)) := by
  have hread (rest : List Event) : readFrom d (.mandatory field) (document.first :: rest) =
      (do readFrom (← ReadError.before rest (d.take field document.first)) .member rest) := by
    rw [readFrom]
  cases htake : d.take field document.first with
  | ok d' =>
    intro rest
    rw [events_of_take htake, List.singleton_append, hread, htake]
    rfl
  | error e =>
    obtain ⟨tail, htail⟩ : ∃ tail, document.events = document.first :: tail := by
      cases document <;> exact ⟨_, rfl⟩
    intro rest
    refine ⟨⟨e, (tail ++ rest).length⟩, ?_⟩
    rw [htail, List.cons_append, hread, htake]
    rfl

/-- **A member changes the draft or is refused.** -/
theorem leads_member (d : Draft) (name : String) (document : Document) :
    Leads d .member (.key (some name.toList) :: document.events)
      ((d.member? name document).map (·, .member)) := by
  unfold Draft.member?
  cases hfield : Mandatory.ofKey? name with
  | none =>
    have hread (rest : List Event) : readFrom d .member (.key (some name.toList) :: rest) =
        readFrom d (.other name) rest := by
      rw [readFrom, String.ofList_toList, hfield]
    have hkey : Leads d .member [.key (some name.toList)] (some (d, .other name)) := hread
    dsimp only
    rw [apply_ite (Option.map _), Option.map_some, Option.map_none]
    exact hkey.append (leads_value d name document)
  | some field =>
    have hread (rest : List Event) : readFrom d .member (.key (some name.toList) :: rest) =
        if d.has field then .error ⟨.mismatch none (.duplicateField name), rest.length⟩
        else readFrom d (.mandatory field) rest := by
      rw [readFrom, String.ofList_toList, hfield]
    dsimp only
    split
    · next h => exact fun rest => ⟨_, (hread _).trans (if_pos h)⟩
    · next h =>
      have hkey : Leads d .member [.key (some name.toList)] (some (d, .mandatory field)) :=
        fun rest => (hread rest).trans (if_neg h)
      exact hkey.append (leads_mandatory document)

/-- **The members of an object are read one after the other.** -/
theorem leads_members (d : Draft) (members : List (String × Document)) :
    Leads d .member (Document.membersEvents members) ((d.members? members).map (·, .member)) := by
  induction members generalizing d with
  | nil => exact Leads.nil d _
  | cons member rest ih =>
    obtain ⟨name, document⟩ := member
    have hfirst := leads_member d name document
    have hevents : Document.membersEvents ((name, document) :: rest) =
        .key (some name.toList) :: document.events ++ Document.membersEvents rest := rfl
    rw [hevents, Draft.members?_cons]
    cases hmember : d.member? name document with
    | none =>
      rw [hmember] at hfirst
      exact hfirst.append_of_none _
    | some d' =>
      rw [hmember] at hfirst
      exact hfirst.append (ih d')

/-- **The objects that are read as a record.** -/
theorem ofEvents_object_ok_iff {members : List (String × Document)} {record : Record} :
    ofEvents ((Document.object members).events ++ [.finish]) = .ok record ↔
      ∃ d, Draft.members? {} members = some d ∧ d.finish = .ok record := by
  have hevents : (Document.object members).events ++ [.finish] =
      .openObject :: (Document.membersEvents members ++ [.closeObject, .finish]) := by
    rw [Document.events]
    simp
  have hread := leads_members {} members
  rw [hevents, ofEvents]
  cases hmembers : Draft.members? {} members with
  | none =>
    rw [hmembers] at hread
    obtain ⟨halt, hhalt⟩ := hread [.closeObject, .finish]
    rw [hhalt]
    simp
  | some d =>
    rw [hmembers] at hread
    rw [hread]
    have hclose : readFrom d .member [.closeObject, .finish] =
        (do let record ← ReadError.before [.finish] d.finish
            if [Event.finish] = [.finish] then pure record else throw ⟨.notJson, 1⟩) := rfl
    rw [hclose]
    cases hfinish : d.finish with
    | ok r => simp [ReadError.before, Except.mapError, bind, Except.bind, pure, Except.pure, hfinish]
    | error e => simp [ReadError.before, Except.mapError, bind, Except.bind, hfinish]

/-- **A member in the place of another one.** Where the last member with an optional key is replaced, the
value under this key is the other one's, and all else is as it was. -/
theorem ofEvents_replace {before after : List (String × Document)} {key : String} {document : Document}
    {record : Record} (hkey : Mandatory.ofKey? key = none) (hafter : key ∉ after.map Prod.fst)
    (hread : ofEvents ((Document.object (before ++ (key, document) :: after)).events ++ [.finish]) =
      .ok record)
    (other : Document) (record' : Record) :
    ofEvents ((Document.object (before ++ (key, other) :: after)).events ++ [.finish]) = .ok record' ↔
      other.passable 1 = true ∧
        record' = { record with optional := record.optional.set key (Value.ofEvent? other.first) } := by
  obtain ⟨drafted, hdrafted, hfinish⟩ := ofEvents_object_ok_iff.1 hread
  have hpassed : document.passable 1 = true := by
    by_contra hnot
    rw [Draft.members?_around hkey hafter, if_neg hnot] at hdrafted
    cases hdrafted
  rw [Draft.members?_around hkey hafter, if_pos hpassed] at hdrafted
  obtain ⟨d, hd, rfl⟩ := Option.map_eq_some_iff.1 hdrafted
  rw [Draft.finish_set] at hfinish
  rw [ofEvents_object_ok_iff, Draft.members?_around hkey hafter, hd]
  cases hplain : d.finish with
  | error e =>
    rw [hplain] at hfinish
    cases hfinish
  | ok plain =>
    rw [hplain] at hfinish
    cases hfinish
    by_cases hpassable : other.passable 1 = true
    · simp [hpassable, Draft.finish_set, hplain, Except.map, Fields.set_set, eq_comm]
    · simp [hpassable]

end Record

end SpoolTag
