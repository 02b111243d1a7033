import SpoolTag.Proofs.Json.Accuracy
import SpoolTag.Proofs.Record.RoundTrip
import SpoolTag.Proofs.Value.Integers

/-! # Members key by key

`Draft.members?` goes through the members of an object one after the other. `Draft.Gathers` tells the same key
by key, from the values of each key in their order (`Record.occurrences`, `Draft.members?_eq_some_iff`): the
one value of a mandatory key fills its field, and of the values of any other key the last one counts. A number
is an integer on the face of it, or it is read in single precision (`Numeral.ofEvent?_cases`). -/

namespace SpoolTag

open SpoolTag.Json
open SpoolTag.Number

/-! ### Integers on the face, and other numbers -/

/-- The numeral is this integer on the face of it: it has no fraction and no exponent, and a zero has no
sign. -/
structure Number.Numeral.Shows (n : Numeral) (i : Int32) : Prop where
  bare : Bare n
  value : n.value = i.toInt
  unsigned : i = 0 → n.negative = false

/-- The numeral is read as this single-precision number: the same one if it is one, and otherwise one
that is near it or infinite. -/
structure Number.Numeral.Narrows (n : Numeral) (x : Single) : Prop where
  read : ∃ number, Number.ofNumeral? n = some number ∧ number.toSingle = x
  near : x.isFinite = true → |x.value - n.value| ≤ n.size / 2 ^ 23 + 1 / 2 ^ 149
  same : ∀ y : Single, y.isFinite = true → y.value = n.value → x.isFinite = true ∧ x.value = n.value

namespace Number.Numeral

variable {n : Numeral} {i : Int32}

theorem ofNumeral?_eq_integer_iff (hn : Spelled n) :
    Number.ofNumeral? n = some (.integer i.toInt) ↔ n.Shows i := by
  constructor
  · intro h
    obtain ⟨hbare, hvalue⟩ := value_of_integer hn h
    refine ⟨hbare, hvalue, ?_⟩
    rintro rfl
    exact negative_of_ofNumeral?_zero h
  · rintro ⟨hbare, hvalue, hunsigned⟩
    have hlow := i.le_toInt
    have hhigh := i.toInt_lt
    refine hbare.ofNumeral?_of_signed hvalue (by omega) fun hnegative hzero => ?_
    rw [hunsigned (Int32.toInt_inj.1 hzero)] at hnegative
    cases hnegative

theorem shows_ofInt (i : Int32) : (ofInt i.toInt).Shows i := by
  have hlow := i.le_toInt
  have hhigh := i.toInt_lt
  exact (ofNumeral?_eq_integer_iff (spelled_ofInt _)).1 (ofNumeral?_ofInt (by omega))

theorem Shows.eq {j : Int32} (hi : n.Shows i) (hj : n.Shows j) : i = j := by
  have hvalue : (i.toInt : ℚ) = j.toInt := hi.value.symm.trans hj.value
  exact Int32.toInt_inj.1 (by exact_mod_cast hvalue)

theorem narrows_toSingle (hn : Spelled n) {number : Number}
    (h : Number.ofNumeral? n = some number) : n.Narrows number.toSingle where
  read := ⟨number, h, rfl⟩
  near := toSingle_near hn h
  same y hy hvalue := by
    obtain ⟨found, hfound, hfinite, hsame⟩ := toSingle_exact hn hy hvalue
    cases hfound.symm.trans h
    exact ⟨hfinite, hsame⟩

/-- **What a number in a document is read as**: an integer of 32 bits if it is one on the face of it, and
a single-precision number if not. -/
theorem ofEvent?_cases (hn : Spelled n) {v : Value} (h : Value.ofEvent? (.number n) = some v) :
    (∃ i, n.Shows i ∧ v = .int32 i) ∨ (∀ i, ¬ n.Shows i) ∧ ∃ x, n.Narrows x ∧ v = .float32 x := by
  obtain ⟨number, hnumber, rfl⟩ := Option.map_eq_some_iff.1 h
  have hnarrows := narrows_toSingle hn hnumber
  have hshows (i : Int32) (hi : n.Shows i) : number = .integer i.toInt :=
    Option.some.inj (hnumber.symm.trans ((ofNumeral?_eq_integer_iff hn).2 hi))
  cases number with
  | float negative b => exact .inr ⟨fun i hi => (nomatch hshows i hi), _, hnarrows, rfl⟩
  | integer k =>
    by_cases hrange : Value.inInt32 k = true
    · obtain ⟨i, rfl⟩ := inInt32_iff.1 hrange
      refine .inl ⟨i, (ofNumeral?_eq_integer_iff hn).1 hnumber, (if_pos hrange).trans ?_⟩
      rw [Int32.ofInt_toInt]
    · refine .inr ⟨fun i hi => hrange ?_, _, hnarrows, if_neg hrange⟩
      obtain rfl := Number.integer.inj (hshows i hi)
      exact Value.inInt32_toInt i

end Number.Numeral

namespace Record

/-! ### Occurrences -/

section Occurrences

variable {κ α : Type} [DecidableEq κ]

/-- The values that a key has in an object, in their order. -/
def occurrences (members : List (κ × α)) (key : κ) : List α :=
  (members.filter (·.1 == key)).map Prod.snd

theorem occurrences_cons (name : κ) (value : α) (rest : List (κ × α)) (key : κ) :
    occurrences ((name, value) :: rest) key =
      if name = key then value :: occurrences rest key else occurrences rest key := by
  unfold occurrences
  by_cases h : name = key
  · rw [List.filter_cons_of_pos (by simpa using h), if_pos h]
    rfl
  · rw [List.filter_cons_of_neg (by simpa using h), if_neg h]

theorem mem_occurrences {members : List (κ × α)} {key : κ} {value : α} :
    value ∈ occurrences members key ↔ (key, value) ∈ members := by
  unfold occurrences
  simp

end Occurrences

namespace Mandatory

theorem ofKey?_key (field : Mandatory) : ofKey? field.key = some field := by
  cases field <;> decide

theorem key_of_ofKey? {name : String} {field : Mandatory} (h : ofKey? name = some field) :
    field.key = name := by
  have hfound := List.find?_some h
  simpa using hfound

theorem key_inj {field other : Mandatory} : field.key = other.key ↔ field = other := by
  refine ⟨fun h => ?_, congrArg key⟩
  have hkey := congrArg ofKey? h
  rw [ofKey?_key, ofKey?_key] at hkey
  exact Option.some.inj hkey

/-- What a mandatory field takes of a value: an integer or a text. -/
def datum? (field : Mandatory) (document : Document) : Option (Int32 ⊕ String) :=
  match field with
  | .name => (document.first.text (some field.key)).toOption.map .inr
  | _ => (document.first.int32 (some field.key)).toOption.map .inl

/-- What becomes of a mandatory field whose key has these values: without any it stays as it is, and a
single one fills it if it is empty. -/
def Fills (field : Mandatory) : List Document → Option (Int32 ⊕ String) →
    Option (Int32 ⊕ String) → Prop
  | [], before, after => after = before
  | [document], before, after => before = none ∧ after.isSome = true ∧ after = field.datum? document
  | _, _, _ => False

theorem fills_cons {field : Mandatory} {document : Document} {rest : List Document}
    {before after : Option (Int32 ⊕ String)} : field.Fills (document :: rest) before after ↔
      before = none ∧ ∃ x, field.datum? document = some x ∧ field.Fills rest (some x) after := by
  cases rest with
  | nil =>
    refine and_congr_right fun _ => ?_
    constructor
    · rintro ⟨hsome, rfl⟩
      obtain ⟨x, hx⟩ := Option.isSome_iff_exists.1 hsome
      exact ⟨x, hx, hx⟩
    · rintro ⟨x, hx, rfl⟩
      exact ⟨rfl, hx.symm⟩
  | cons second others =>
    -- the first value fills the field, and the second one finds it filled
    refine iff_of_false (fun h => h) ?_
    rintro ⟨-, x, -, hfills⟩
    cases others with
    | nil => exact Option.some_ne_none x hfills.1
    | cons third others => exact hfills

end Mandatory

/-- All members but the mandatory ones can be passed over. -/
def Passable (members : List (String × Document)) : Prop :=
  ∀ member ∈ members, Mandatory.ofKey? member.1 = none → member.2.passable 1 = true

/-! ### Drafts, field by field -/

namespace Draft

/-- What has been read of a mandatory field. -/
def slot (d : Draft) : Mandatory → Option (Int32 ⊕ String)
  | .id => d.id.map .inl
  | .name => d.name.map .inr
  | .spoolWeight => d.spoolWeight.map .inl
  | .totalWeight => d.totalWeight.map .inl

def fill (d : Draft) : Mandatory → Int32 ⊕ String → Draft
  | .id, .inl i => { d with id := some i }
  | .name, .inr s => { d with name := some s }
  | .spoolWeight, .inl i => { d with spoolWeight := some i }
  | .totalWeight, .inl i => { d with totalWeight := some i }
  | _, _ => d

variable {d d' : Draft} {field : Mandatory} {document : Document} {x : Int32 ⊕ String}

theorem ext_slot (h : ∀ field, d.slot field = d'.slot field) (hoptional : d.optional = d'.optional) :
    d = d' := by
  obtain ⟨id, name, spoolWeight, totalWeight, optional⟩ := d
  obtain ⟨id', name', spoolWeight', totalWeight', optional'⟩ := d'
  obtain rfl := Option.map_injective Sum.inl_injective (h .id)
  obtain rfl := Option.map_injective Sum.inr_injective (h .name)
  obtain rfl := Option.map_injective Sum.inl_injective (h .spoolWeight)
  obtain rfl := Option.map_injective Sum.inl_injective (h .totalWeight)
  obtain rfl : optional = optional' := hoptional
  rfl

theorem has_eq (d : Draft) (field : Mandatory) : d.has field = (d.slot field).isSome := by
  cases field <;> exact Option.isSome_map.symm

theorem take_eq (d : Draft) (field : Mandatory) (document : Document) :
    (d.take field document.first).toOption = (field.datum? document).map (d.fill field) := by
  unfold take Mandatory.datum?
  cases field with
  | name => cases document.first.text (some Mandatory.name.key) <;> rfl
  | id | spoolWeight | totalWeight => cases document.first.int32 (some _) <;> rfl

theorem optional_fill (d : Draft) (field : Mandatory) (x : Int32 ⊕ String) :
    (d.fill field x).optional = d.optional := by
  cases field <;> cases x <;> rfl

theorem slot_fill (d : Draft) (h : field.datum? document = some x) (other : Mandatory) :
    (d.fill field x).slot other = if field = other then some x else d.slot other := by
  unfold Mandatory.datum? at h
  cases field with
  | name =>
    obtain ⟨s, -, rfl⟩ := Option.map_eq_some_iff.1 h
    cases other <;> rfl
  | id | spoolWeight | totalWeight =>
    obtain ⟨i, -, rfl⟩ := Option.map_eq_some_iff.1 h
    cases other <;> rfl

theorem member?_mandatory (d : Draft) (field : Mandatory) (document : Document) :
    d.member? field.key document =
      if (d.slot field).isSome then none else (field.datum? document).map (d.fill field) := by
  rw [member?, Mandatory.ofKey?_key]
  dsimp only
  rw [has_eq, take_eq]

theorem member?_optional {name : String} (d : Draft) (h : Mandatory.ofKey? name = none)
    (document : Document) : d.member? name document =
      if document.passable 1 then some (d.set name (Value.ofEvent? document.first)) else none := by
  rw [member?, h]
  rfl

/-- What is under a key after members: the last value that it has among them counts, unless the key is
mandatory. -/
def keeps (members : List (String × Document)) (key : String) (before : Option Value) :
    Option Value :=
  if (Mandatory.ofKey? key).isSome then before
  else ((occurrences members key).getLast?.map fun document => Value.ofEvent? document.first).getD before

theorem keeps_cons_of_mandatory {name : String} (h : (Mandatory.ofKey? name).isSome = true)
    (document : Document) (rest : List (String × Document)) (key : String) (before : Option Value) :
    keeps ((name, document) :: rest) key before = keeps rest key before := by
  unfold keeps
  rw [occurrences_cons]
  by_cases hkey : name = key
  · subst hkey
    rw [if_pos h, if_pos h]
  · rw [if_neg hkey]

theorem keeps_cons_of_optional {name : String} (h : Mandatory.ofKey? name = none)
    (document : Document) (rest : List (String × Document)) (key : String) (fields : Fields) :
    keeps ((name, document) :: rest) key (fields.get? key) =
      keeps rest key ((fields.set name (Value.ofEvent? document.first)).get? key) := by
  unfold keeps
  rw [occurrences_cons, Fields.get?_set]
  by_cases hkey : name = key
  · subst hkey
    rw [if_pos rfl, if_pos rfl, h, List.getLast?_cons]
    cases (occurrences rest name).getLast? <;> rfl
  · rw [if_neg hkey, if_neg hkey]

/-- What members come to, key by key: the values of a mandatory key fill its field, those of another one
can be passed over, and the last of them counts. -/
structure Gathers (members : List (String × Document)) (d d' : Draft) : Prop where
  slots : ∀ field : Mandatory,
    field.Fills (occurrences members field.key) (d.slot field) (d'.slot field)
  passable : Passable members
  optional : ∀ key, d'.optional.get? key = keeps members key (d.optional.get? key)

theorem gathers_nil : Gathers [] d d' ↔ d = d' := by
  have hkeeps (key : String) (before : Option Value) : keeps [] key before = before := ite_self _
  constructor
  · rintro ⟨hslots, -, hoptional⟩
    refine ext_slot (fun field => (hslots field).symm) (Fields.ext_get? fun key => ?_)
    rw [hoptional, hkeeps]
  · rintro rfl
    exact ⟨fun field => rfl, nofun, fun key => (hkeeps key _).symm⟩

/-- A member that is not mandatory is passed over and sets its key. -/
theorem gathers_cons_optional {name : String} (h : Mandatory.ofKey? name = none)
    {rest : List (String × Document)} : Gathers ((name, document) :: rest) d d' ↔
      document.passable 1 = true ∧
        Gathers rest (d.set name (Value.ofEvent? document.first)) d' := by
  have hslot (field : Mandatory) :
      (d.set name (Value.ofEvent? document.first)).slot field = d.slot field := by
    cases field <;> rfl
  have hother (field : Mandatory) :
      occurrences ((name, document) :: rest) field.key = occurrences rest field.key := by
    have hne : name ≠ field.key := by
      rintro rfl
      rw [Mandatory.ofKey?_key] at h
      cases h
    rw [occurrences_cons, if_neg hne]
  have hkeeps (key : String) : keeps ((name, document) :: rest) key (d.optional.get? key) =
      keeps rest key ((d.set name (Value.ofEvent? document.first)).optional.get? key) :=
    keeps_cons_of_optional h document rest key d.optional
  constructor
  · rintro ⟨hslots, hpassable, hoptional⟩
    obtain ⟨hfirst, hrest⟩ := List.forall_mem_cons.1 hpassable
    refine ⟨hfirst h, fun field => ?_, hrest, fun key => ?_⟩
    · rw [hslot, ← hother]
      exact hslots field
    · rw [hoptional, hkeeps]
  · rintro ⟨hfirst, hslots, hrest, hoptional⟩
    refine ⟨fun field => ?_, List.forall_mem_cons.2 ⟨fun _ => hfirst, hrest⟩, fun key => ?_⟩
    · rw [hother, ← hslot]
      exact hslots field
    · rw [hoptional, hkeeps]

/-- A member that is mandatory fills its field, which has been empty. -/
theorem gathers_cons_mandatory {rest : List (String × Document)} :
    Gathers ((field.key, document) :: rest) d d' ↔
      d.slot field = none ∧ ∃ x, field.datum? document = some x ∧ Gathers rest (d.fill field x) d' := by
  have hfills (after : Option (Int32 ⊕ String)) :
      field.Fills (occurrences ((field.key, document) :: rest) field.key) (d.slot field) after ↔
        d.slot field = none ∧ ∃ x, field.datum? document = some x ∧
          field.Fills (occurrences rest field.key) (some x) after := by
    rw [occurrences_cons, if_pos rfl, Mandatory.fills_cons]
  have hother {other : Mandatory} (hne : field ≠ other) :
      occurrences ((field.key, document) :: rest) other.key = occurrences rest other.key := by
    rw [occurrences_cons, if_neg (mt Mandatory.key_inj.1 hne)]
  have hkeeps (key : String) (x : Int32 ⊕ String) :
      keeps ((field.key, document) :: rest) key (d.optional.get? key) =
        keeps rest key ((d.fill field x).optional.get? key) := by
    rw [optional_fill, keeps_cons_of_mandatory (by rw [Mandatory.ofKey?_key]; rfl)]
  have hpassable : Passable ((field.key, document) :: rest) ↔ Passable rest := by
    unfold Passable
    rw [List.forall_mem_cons, Mandatory.ofKey?_key]
    exact and_iff_right nofun
  constructor
  · rintro ⟨hslots, hpass, hoptional⟩
    obtain ⟨hempty, x, hx, hrest⟩ := (hfills _).1 (hslots field)
    refine ⟨hempty, x, hx, fun other => ?_, hpassable.1 hpass, fun key => ?_⟩
    · rw [slot_fill d hx]
      by_cases heq : field = other
      · subst heq
        rwa [if_pos rfl]
      · rw [if_neg heq, ← hother heq]
        exact hslots other
    · rw [hoptional, hkeeps]
  · rintro ⟨hempty, x, hx, hslots, hpass, hoptional⟩
    refine ⟨fun other => ?_, hpassable.2 hpass, fun key => ?_⟩
    · have hslot := hslots other
      rw [slot_fill d hx] at hslot
      by_cases heq : field = other
      · subst heq
        rw [if_pos rfl] at hslot
        exact (hfills _).2 ⟨hempty, x, hx, hslot⟩
      · rw [hother heq]
        rwa [if_neg heq] at hslot
    · rw [hoptional, hkeeps]

/-- **Members that are read one after the other come to what they come to key by key.** -/
theorem members?_eq_some_iff {members : List (String × Document)} :
    d.members? members = some d' ↔ Gathers members d d' := by
  induction members generalizing d with
  | nil =>
    rw [gathers_nil]
    exact Option.some_inj
  | cons member rest ih =>
    obtain ⟨name, document⟩ := member
    rw [members?_cons]
    cases hname : Mandatory.ofKey? name with
    | none =>
      rw [member?_optional d hname, gathers_cons_optional hname, ← ih]
      by_cases hpassable : document.passable 1 = true
      · simp [hpassable]
      · simp [hpassable]
    | some field =>
      obtain rfl := Mandatory.key_of_ofKey? hname
      rw [member?_mandatory, gathers_cons_mandatory]
      cases d.slot field with
      | some x => simp
      | none => cases field.datum? document <;> simp [ih]

end Draft

/-! ### Records -/

/-- The draft that comes to a record. -/
def draft (r : Record) : Draft :=
  ⟨some r.id, some r.name, some r.spoolWeight, some r.totalWeight, r.optional⟩

theorem Draft.finish_eq_ok_iff {d : Draft} {record : Record} :
    d.finish = .ok record ↔ d = record.draft := by
  obtain ⟨id, name, spoolWeight, totalWeight, optional⟩ := d
  constructor
  · intro h
    cases id <;> cases name <;> cases spoolWeight <;> cases totalWeight <;> cases h
    rfl
  · rintro ⟨⟩
    rfl

namespace Mandatory

variable {field : Mandatory} {document : Document}

theorem fills_none_some {documents : List Document} {x : Int32 ⊕ String} :
    field.Fills documents none (some x) ↔
      ∃ document, documents = [document] ∧ field.datum? document = some x := by
  match documents with
  | [] => exact iff_of_false nofun (by rintro ⟨_, ⟨⟩, -⟩)
  | [document] =>
    constructor
    · rintro ⟨-, -, h⟩
      exact ⟨document, rfl, h.symm⟩
    · rintro ⟨_, ⟨⟩, h⟩
      exact ⟨rfl, rfl, h.symm⟩
  | _ :: _ :: _ => exact iff_of_false (fun h => h) (by rintro ⟨_, ⟨⟩, -⟩)

theorem datum?_name {s : String} : name.datum? document = some (.inr s) ↔ document = .string s := by
  cases document with
  | string text =>
    have hdatum : name.datum? (.string text) = some (.inr (String.ofList text.toList)) := rfl
    rw [hdatum, String.ofList_toList]
    simp
  | _ => exact iff_of_false nofun nofun

theorem int32_eq_ok_iff {e : Event} {label : Option String} {i : Int32} :
    e.int32 label = .ok i ↔ e.found? = some (.number (.integer i.toInt)) := by
  unfold Event.int32 Event.integer
  cases e.found? with
  | none => constructor <;> rintro ⟨⟩
  | some found =>
    cases found with
    | number number =>
      cases number with
      | integer k =>
        have hrange : -2147483648 ≤ k ∧ k ≤ 2147483647 ↔ Value.inInt32 k = true := by
          simp only [Value.inInt32, Bool.and_eq_true, decide_eq_true_eq]
          omega
        dsimp only
        by_cases hk : Value.inInt32 k = true
        · rw [if_pos (hrange.2 hk)]
          simp [Except.map, Numeral.ofInt_eq_iff hk]
        · rw [if_neg (mt hrange.1 hk)]
          constructor
          · rintro ⟨⟩
          · rintro ⟨⟩
            exact absurd (Value.inInt32_toInt i) hk
      | float negative b => constructor <;> rintro ⟨⟩
    | _ => constructor <;> rintro ⟨⟩

theorem datum?_integer (hfield : field ≠ .name) {i : Int32} :
    field.datum? document = some (.inl i) ↔
      ∃ n, document = .number n ∧ Number.ofNumeral? n = some (.integer i.toInt) := by
  have hdatum : field.datum? document = some (.inl i) ↔
      document.first.int32 (some field.key) = .ok i := by
    unfold datum?
    cases field with
    | name => exact absurd rfl hfield
    | id | spoolWeight | totalWeight =>
      dsimp only
      cases document.first.int32 (some _) with
      | ok j => simp [Except.toOption]
      | error e => simp [Except.toOption]
  rw [hdatum, int32_eq_ok_iff]
  cases document with
  | number n =>
    have hfound : (Document.number n).first.found? = (Number.ofNumeral? n).map Found.number := rfl
    rw [hfound]
    simp
  | _ => exact iff_of_false nofun nofun

end Mandatory

end Record

end SpoolTag
