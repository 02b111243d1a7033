import SpoolTag.Proofs.Record.Meaning
import SpoolTag.Proofs.Record.Occurrences

/-! # Which objects are records

An object is read as a record exactly if a reader can follow it, each mandatory key has one value, and this is
of the right kind; of the values of any other key the last one counts, which stands for a value of the record
if it is a scalar and for none if it is not (`Record.read_exactly`). So it does not matter in which order the
members are, as long as those of one key keep theirs.

Nothing is read but what has a meaning, so the tree of what is read is that of a document, and its members
are read one after the other (`Record.ofText_document_eq_ok_iff`). -/

namespace SpoolTag

open SpoolTag.Json
open SpoolTag.Number

namespace Record

/-! ### What an object tells of a record -/

/-- The key has one value, and this is an integer on the face of it. -/
def HasInteger (members : List (Option String × SyntaxTree)) (key : String) (i : Int32) : Prop :=
  ∃ n, occurrences members (some key) = [.number n] ∧ n.Shows i

/-- The key has one value, and this is a string. -/
def HasString (members : List (Option String × SyntaxTree)) (key : String) (s : String) : Prop :=
  occurrences members (some key) = [.string (some s)]

/-- What is kept of the last value of a key: a truth value, or a number, as an integer if it is one on the
face of it and in single precision if not. -/
def Kept : Option SyntaxTree → Option Value → Prop
  | some (.bool b), v? => v? = some (.bool b)
  | some (.number n), v? =>
    (∃ i, n.Shows i ∧ v? = some (.int32 i)) ∨
      (∀ i, ¬ n.Shows i) ∧ ∃ x, n.Narrows x ∧ v? = some (.float32 x)
  | _, v? => v? = none

/-- The record is what the members tell: its mandatory fields are the values of their keys, and under every
other key is what is kept of the last value. -/
structure Describes (members : List (Option String × SyntaxTree)) (record : Record) : Prop where
  id : HasInteger members "id" record.id
  name : HasString members "name" record.name
  spoolWeight : HasInteger members "spool_weight" record.spoolWeight
  totalWeight : HasInteger members "total_weight" record.totalWeight
  mandatory : ∀ field : Mandatory, record.optional.get? field.key = none
  optional : ∀ key, Mandatory.ofKey? key = none →
    Kept (occurrences members (some key)).getLast? (record.optional.get? key)

theorem Kept.eq {last : Option SyntaxTree} {v? w? : Option Value} (hv : Kept last v?)
    (hw : Kept last w?) : v? = w? := by
  match last with
  | none | some .null | some (.bool b) | some (.string _) | some (.array _) | some (.object _) =>
    exact Eq.trans hv (Eq.symm hw)
  | some (.number n) =>
    rcases hv with ⟨i, hi, rfl⟩ | ⟨hnone, x, hx, rfl⟩
    · rcases hw with ⟨j, hj, rfl⟩ | ⟨hnone, -⟩
      · rw [hi.eq hj]
      · exact absurd hi (hnone i)
    · rcases hw with ⟨j, hj, -⟩ | ⟨-, y, hy, rfl⟩
      · exact absurd hj (hnone j)
      · obtain ⟨number, hnumber, rfl⟩ := hx.read
        obtain ⟨other, hother, rfl⟩ := hy.read
        cases hnumber.symm.trans hother
        rfl

/-- What members tell depends on the values of each key in their order only. -/
theorem Describes.congr {members members' : List (Option String × SyntaxTree)} {record : Record}
    (h : Describes members record)
    (hsame : ∀ key : String, occurrences members' (some key) = occurrences members (some key)) :
    Describes members' record := by
  obtain ⟨hid, hname, hspool, htotal, hmandatory, hoptional⟩ := h
  unfold HasInteger at hid hspool htotal
  unfold HasString at hname
  simp only [← hsame] at hid hname hspool htotal hoptional
  exact ⟨hid, hname, hspool, htotal, hmandatory, hoptional⟩

/-! ### Trees of documents -/

theorem occurrences_memberTrees (documents : List (String × Document)) (key : String) :
    occurrences (Document.memberTrees documents) (some key) =
      (occurrences documents key).map Document.tree := by
  induction documents with
  | nil => rfl
  | cons member rest ih =>
    obtain ⟨name, document⟩ := member
    rw [Document.memberTrees, occurrences_cons, occurrences_cons, ih]
    by_cases h : name = key
    · rw [if_pos h, if_pos (congrArg some h), List.map_cons]
    · rw [if_neg h, if_neg (mt Option.some.inj h)]

theorem hasInteger_memberTrees {documents : List (String × Document)} {key : String} {i : Int32} :
    HasInteger (Document.memberTrees documents) key i ↔
      ∃ n, occurrences documents key = [.number n] ∧ n.Shows i := by
  have hnumber (d : Document) (n : Numeral) : d.tree = .number n ↔ d = .number n := by
    cases d <;> simp [Document.tree]
  unfold HasInteger
  simp only [occurrences_memberTrees, List.map_eq_singleton_iff, hnumber, exists_eq_right]

theorem hasString_memberTrees {documents : List (String × Document)} {key : String} {s : String} :
    HasString (Document.memberTrees documents) key s ↔ occurrences documents key = [.string s] := by
  have hstring (d : Document) : d.tree = .string (some s) ↔ d = .string s := by
    cases d <;> simp [Document.tree]
  unfold HasString
  simp only [occurrences_memberTrees, List.map_eq_singleton_iff, hstring, exists_eq_right]

variable {documents : List (String × Document)} {text : List Char} {record : Record}

/-- What stands under a mandatory key is no array and no object. -/
theorem Describes.height_eq_zero (h : Describes (Document.memberTrees documents) record)
    {field : Mandatory} {document : Document} (hmem : (field.key, document) ∈ documents) :
    document.tree.height = 0 := by
  have hinteger {key : String} {i : Int32} (h : HasInteger (Document.memberTrees documents) key i)
      (hmem : (key, document) ∈ documents) : document.tree.height = 0 := by
    obtain ⟨n, hn, -⟩ := hasInteger_memberTrees.1 h
    rw [← mem_occurrences, hn, List.mem_singleton] at hmem
    rw [hmem]
    rfl
  cases field with
  | id => exact hinteger h.id hmem
  | name =>
    have hname := hasString_memberTrees.1 h.name
    rw [← mem_occurrences, Mandatory.key, hname, List.mem_singleton] at hmem
    rw [hmem]
    rfl
  | spoolWeight => exact hinteger h.spoolWeight hmem
  | totalWeight => exact hinteger h.totalWeight hmem

/-- The members of an object that describes a record can be passed over if the object does not nest too
deep. -/
theorem Describes.passable_iff (h : Describes (Document.memberTrees documents) record)
    (hmeaning : ∀ e ∈ (Document.object documents).events, e.hasMeaning = true) :
    Passable documents ↔ (Document.object documents).tree.height ≤ maxDepth := by
  have hinside : ∀ e ∈ Document.membersEvents documents, e.hasMeaning = true := fun e he =>
    hmeaning e (List.mem_cons_of_mem _ (List.mem_append_left _ he))
  have hall := Document.membersPassable_iff documents hinside (show 1 ≤ maxDepth by decide)
  rw [Document.tree, SyntaxTree.height, Nat.add_comm, ← hall, Document.membersPassable_eq_true_iff]
  refine forall₂_congr fun member hmem => ?_
  constructor
  · intro hother
    cases hkey : Mandatory.ofKey? member.1 with
    | none => exact hother hkey
    | some field =>
      obtain ⟨name, document⟩ := member
      obtain rfl := Mandatory.key_of_ofKey? hkey
      rw [Document.passable_iff document (fun e he => hinside e (Document.mem_membersEvents hmem he))
        (by decide), h.height_eq_zero hmem]
      decide
  · exact fun hpassable _ => hpassable

/-! ### Reading -/

/-- The numbers among the values of an object are spelled as the grammar wants them. -/
theorem spelled_of_mem (htext : events text = (Document.object documents).events ++ [.finish])
    {key : String} {n : Numeral} (h : (key, .number n) ∈ documents) : Spelled n := by
  suffices hmem : .number n ∈ events text from spelled_of_mem_events hmem
  rw [htext]
  exact List.mem_append_left _ (List.mem_cons_of_mem _ (List.mem_append_left _
    (Document.mem_membersEvents h (List.mem_singleton_self _))))

/-- There are fields that have what members put under their keys. -/
theorem exists_fields (documents : List (String × Document)) (before : Fields) :
    ∃ fields : Fields, ∀ key, fields.get? key = Draft.keeps documents key (before.get? key) := by
  induction documents generalizing before with
  | nil => exact ⟨before, fun key => (ite_self _).symm⟩
  | cons member rest ih =>
    obtain ⟨name, document⟩ := member
    cases hname : Mandatory.ofKey? name with
    | none =>
      obtain ⟨fields, hfields⟩ := ih (before.set name (Value.ofEvent? document.first))
      exact ⟨fields, fun key => by rw [Draft.keeps_cons_of_optional hname, hfields]⟩
    | some field =>
      obtain ⟨fields, hfields⟩ := ih before
      exact ⟨fields, fun key => by rw [Draft.keeps_cons_of_mandatory (by rw [hname]; rfl), hfields]⟩

section Documents

variable (htext : events text = (Document.object documents).events ++ [.finish])

include htext

theorem fills_integer_iff (field : Mandatory) (hfield : field ≠ .name) (i : Int32) :
    field.Fills (occurrences documents field.key) none (some (.inl i)) ↔
      HasInteger (Document.memberTrees documents) field.key i := by
  rw [Mandatory.fills_none_some, hasInteger_memberTrees]
  have hshows {n : Numeral} (h : occurrences documents field.key = [.number n]) :
      Number.ofNumeral? n = some (.integer i.toInt) ↔ n.Shows i := by
    have hmem : (field.key, .number n) ∈ documents := by
      rw [← mem_occurrences, h]
      exact List.mem_singleton_self _
    exact Numeral.ofNumeral?_eq_integer_iff (spelled_of_mem htext hmem)
  constructor
  · rintro ⟨_, hsingle, h⟩
    obtain ⟨n, rfl, hn⟩ := (Mandatory.datum?_integer hfield).1 h
    exact ⟨n, hsingle, (hshows hsingle).1 hn⟩
  · rintro ⟨n, hsingle, hn⟩
    exact ⟨_, hsingle, (Mandatory.datum?_integer hfield).2 ⟨n, rfl, (hshows hsingle).2 hn⟩⟩

section Meaning

variable (hmeaning : ∀ e ∈ (Document.object documents).events, e.hasMeaning = true)

include hmeaning

/-- What is under a key that is not mandatory is what is kept of its last value. -/
theorem kept_keeps {key : String} (hkey : Mandatory.ofKey? key = none) :
    Kept (occurrences (Document.memberTrees documents) (some key)).getLast?
      (Draft.keeps documents key none) := by
  have hkeeps : Draft.keeps documents key none =
      ((occurrences documents key).getLast?.map fun document => Value.ofEvent? document.first).getD none := by
    unfold Draft.keeps
    rw [hkey]
    rfl
  rw [hkeeps, occurrences_memberTrees, List.getLast?_map]
  cases hlast : (occurrences documents key).getLast? with
  | none => rfl
  | some document =>
    have hmem : (key, document) ∈ documents := mem_occurrences.1 (List.mem_of_getLast? hlast)
    cases document with
    | number n =>
      have hnumber : .number n ∈ (Document.object documents).events :=
        List.mem_cons_of_mem _ (List.mem_append_left _
          (Document.mem_membersEvents hmem (List.mem_singleton_self _)))
      obtain ⟨number, hnumber⟩ := Option.isSome_iff_exists.1 (hmeaning _ hnumber)
      have hvalue : Value.ofEvent? (.number n) = some (Value.ofNumber number) :=
        congrArg (Option.map Value.ofNumber) hnumber
      change Kept (some (.number n)) (Value.ofEvent? (.number n))
      rw [hvalue]
      rcases Numeral.ofEvent?_cases (spelled_of_mem htext hmem) hvalue with
        ⟨i, hi, hv⟩ | ⟨hnone, x, hx, hv⟩
      · exact .inl ⟨i, hi, congrArg some hv⟩
      · exact .inr ⟨hnone, x, hx, congrArg some hv⟩
    | _ => rfl

/-- The fields of a record are what its members keep, key by key. -/
theorem optional_iff {fields : Fields} :
    (∀ key, fields.get? key = Draft.keeps documents key none) ↔
      (∀ field : Mandatory, fields.get? field.key = none) ∧
        ∀ key, Mandatory.ofKey? key = none →
          Kept (occurrences (Document.memberTrees documents) (some key)).getLast? (fields.get? key) := by
  have hmandatory (field : Mandatory) : Draft.keeps documents field.key none = none :=
    if_pos (by rw [Mandatory.ofKey?_key]; rfl)
  constructor
  · intro h
    refine ⟨fun field => (h field.key).trans (hmandatory field), fun key hkey => ?_⟩
    rw [h]
    exact kept_keeps htext hmeaning hkey
  · rintro ⟨hnone, hkept⟩ key
    cases hkey : Mandatory.ofKey? key with
    | none => exact (hkept key hkey).eq (kept_keeps htext hmeaning hkey)
    | some field =>
      obtain rfl := Mandatory.key_of_ofKey? hkey
      rw [hnone, hmandatory]

/-- **What is read of a document**: what its members tell, if it does not nest too deep. -/
theorem ofText_document_eq_ok_iff : ofText text = .ok record ↔
    Describes (Document.memberTrees documents) record ∧
      (Document.object documents).tree.height ≤ maxDepth := by
  have hread : ofText text = .ok record ↔ Draft.members? {} documents = some record.draft := by
    have hobject : ofText text = .ok record ↔
        ofEvents ((Document.object documents).events ++ [.finish]) = .ok record := by
      unfold ofText
      rw [htext]
      cases ofEvents ((Document.object documents).events ++ [.finish]) with
      | ok r => simp [Except.mapError]
      | error e => simp [Except.mapError]
    rw [hobject, ofEvents_object_ok_iff]
    constructor
    · rintro ⟨d, hd, hfinish⟩
      rw [hd, Draft.finish_eq_ok_iff.1 hfinish]
    · intro h
      exact ⟨_, h, Draft.finish_eq_ok_iff.2 rfl⟩
  have hname : Mandatory.name.Fills (occurrences documents "name") none (some (.inr record.name)) ↔
      HasString (Document.memberTrees documents) "name" record.name := by
    rw [Mandatory.fills_none_some, hasString_memberTrees]
    simp [Mandatory.datum?_name]
  have hid := fills_integer_iff htext .id nofun record.id
  have hspool := fills_integer_iff htext .spoolWeight nofun record.spoolWeight
  have htotal := fills_integer_iff htext .totalWeight nofun record.totalWeight
  rw [hread, Draft.members?_eq_some_iff]
  constructor
  · rintro ⟨hslots, hpassable, hfields⟩
    obtain ⟨hmandatory, hoptional⟩ := (optional_iff htext hmeaning).1 hfields
    have h : Describes (Document.memberTrees documents) record :=
      ⟨hid.1 (hslots .id), hname.1 (hslots .name), hspool.1 (hslots .spoolWeight),
        htotal.1 (hslots .totalWeight), hmandatory, hoptional⟩
    exact ⟨h, (h.passable_iff hmeaning).1 hpassable⟩
  · rintro ⟨h, hheight⟩
    have hfields := (optional_iff htext hmeaning).2 ⟨h.mandatory, h.optional⟩
    refine ⟨fun field => ?_, (h.passable_iff hmeaning).2 hheight, hfields⟩
    cases field with
    | id => exact hid.2 h.id
    | name => exact hname.2 h.name
    | spoolWeight => exact hspool.2 h.spoolWeight
    | totalWeight => exact htotal.2 h.totalWeight

end Meaning

end Documents

section Trees

variable {members : List (Option String × SyntaxTree)} (hparses : Parses text (.object members))

include hparses

theorem hasMeaning_of_parses (h : ∀ e ∈ events text, e.hasMeaning = true) :
    ∀ e ∈ (SyntaxTree.object members).events, e.hasMeaning = true := by
  intro e he
  refine h e ?_
  rw [hparses]
  exact List.mem_append_left _ he

/-- An object of which everything has a meaning is that of documents. -/
theorem exists_documents
    (hmeaning : ∀ e ∈ (SyntaxTree.object members).events, e.hasMeaning = true) :
    ∃ documents, Document.memberTrees documents = members ∧
      events text = (Document.object documents).events ++ [.finish] := by
  obtain ⟨documents, rfl⟩ := SyntaxTree.exists_members members fun e he =>
    hmeaning e (List.mem_cons_of_mem _ (List.mem_append_left _ he))
  exact ⟨documents, rfl, by rw [hparses, ← Document.events_tree, Document.tree]⟩

/-- **What is read of an object**: what its members tell, if a reader can follow it. -/
theorem ofText_eq_ok_iff :
    ofText text = .ok record ↔ Describes members record ∧ (SyntaxTree.object members).Legible := by
  suffices h : (∀ e ∈ (SyntaxTree.object members).events, e.hasMeaning = true) →
      (ofText text = .ok record ↔
        Describes members record ∧ (SyntaxTree.object members).height ≤ maxDepth) by
    rw [SyntaxTree.legible_iff]
    constructor
    · intro hread
      have hmeaning := hasMeaning_of_parses hparses (hasMeaning_of_ofText hread).2.2
      obtain ⟨hdescribes, hheight⟩ := (h hmeaning).1 hread
      exact ⟨hdescribes, hmeaning, hheight⟩
    · rintro ⟨hdescribes, hmeaning, hheight⟩
      exact (h hmeaning).2 ⟨hdescribes, hheight⟩
  intro hmeaning
  obtain ⟨documents, rfl, htext⟩ := exists_documents hparses hmeaning
  exact ofText_document_eq_ok_iff htext (Document.events_tree _ ▸ hmeaning)

/-- The mandatory keys of an object that can be followed are enough for it to describe a record. -/
theorem exists_describes {id spoolWeight totalWeight : Int32} {name : String}
    (hlegible : (SyntaxTree.object members).Legible) (hid : HasInteger members "id" id)
    (hname : HasString members "name" name) (hspool : HasInteger members "spool_weight" spoolWeight)
    (htotal : HasInteger members "total_weight" totalWeight) :
    ∃ record, Describes members record := by
  have hmeaning := (SyntaxTree.legible_iff.1 hlegible).1
  obtain ⟨documents, rfl, htext⟩ := exists_documents hparses hmeaning
  obtain ⟨optional, hoptional⟩ := exists_fields documents .empty
  obtain ⟨hmandatory, hkept⟩ :=
    (optional_iff htext (Document.events_tree _ ▸ hmeaning)).1 hoptional
  exact ⟨⟨id, name, spoolWeight, totalWeight, optional⟩, hid, hname, hspool, htotal, hmandatory, hkept⟩

end Trees

/-- The bytes of a text are read as the same record. -/
theorem ofBytes_encode_eq_ok_iff :
    ofBytes (Text.Utf8.encode text) = .ok record ↔ ofText text = .ok record := by
  rw [ofBytes_encode, ofText]
  cases ofEvents (events text) <;> simp [Except.mapError]

/-- **Which texts are read as a record, and as which.** No text is read but objects. An object is read exactly
if `id`, `spool_weight` and `total_weight` have one value each, an integer of 32 bits on the face of it, `name`
has one, a string, and a reader can follow the object; and it is read as the record that its members tell. The
order of the members does not matter, but for that of the values of one key. -/
theorem read_exactly (text : List Char) :
    (∀ record, ofBytes (Text.Utf8.encode text) = .ok record ↔ ofText text = .ok record) ∧
    ((∃ record, ofText text = .ok record) → ∃ members, Parses text (.object members)) ∧
    ∀ members, Parses text (.object members) →
      ((∃ record, ofText text = .ok record) ↔
        (∃ i, HasInteger members "id" i) ∧ (∃ s, HasString members "name" s) ∧
          (∃ i, HasInteger members "spool_weight" i) ∧ (∃ i, HasInteger members "total_weight" i) ∧
            (SyntaxTree.object members).Legible) ∧
      (∀ record, ofText text = .ok record ↔
        Describes members record ∧ (SyntaxTree.object members).Legible) ∧
      ∀ text' members', Parses text' (.object members') → members'.Perm members →
        (∀ key : String, occurrences members' (some key) = occurrences members (some key)) →
          ∀ record, ofText text' = .ok record ↔ ofText text = .ok record := by
  refine ⟨fun record => ofBytes_encode_eq_ok_iff, ?_, fun members hparses => ⟨?_, fun record =>
    ofText_eq_ok_iff hparses, fun text' members' hparses' hperm hsame record => ?_⟩⟩
  · rintro ⟨record, hrecord⟩
    obtain ⟨⟨rest, hopen⟩, hfinish, -⟩ := hasMeaning_of_ofText hrecord
    obtain ⟨tree, hparses⟩ := finish_mem_events_iff.1 hfinish
    -- no other tree begins with a brace
    have hfirst := hopen.symm.trans hparses
    cases tree with
    | object members => exact ⟨members, hparses⟩
    | _ => cases hfirst
  · constructor
    · rintro ⟨record, hrecord⟩
      obtain ⟨h, hlegible⟩ := (ofText_eq_ok_iff hparses).1 hrecord
      exact ⟨⟨_, h.id⟩, ⟨_, h.name⟩, ⟨_, h.spoolWeight⟩, ⟨_, h.totalWeight⟩, hlegible⟩
    · rintro ⟨⟨id, hid⟩, ⟨name, hname⟩, ⟨spoolWeight, hspool⟩, ⟨totalWeight, htotal⟩, hlegible⟩
      obtain ⟨record, hrecord⟩ := exists_describes hparses hlegible hid hname hspool htotal
      exact ⟨record, (ofText_eq_ok_iff hparses).2 ⟨hrecord, hlegible⟩⟩
  · rw [ofText_eq_ok_iff hparses, ofText_eq_ok_iff hparses']
    exact and_congr ⟨fun h => h.congr fun key => (hsame key).symm, fun h => h.congr hsame⟩
      ⟨fun h => h.perm hperm.symm, fun h => h.perm hperm⟩

/-- An object with two keys that occur twice, the last value of one of them being no scalar. -/
def jumbled : List (String × Document) :=
  [("y", .bool true), ("total_weight", .int 1000), ("x", .null), ("id", .int (-7)),
    ("y", .array [.int 1]), ("x", .int 3), ("name", .string "PLA"), ("spool_weight", .int 250)]

/-- The same object with its first two members the other way round. -/
def swapped : List (String × Document) :=
  ("total_weight", .int 1000) :: ("y", .bool true) :: jumbled.drop 2

theorem parses_jumbled :
    Parses (Document.object jumbled).text (.object (Document.memberTrees jumbled)) :=
  Document.parses_text ⟨trivial, spelled_ofInt _, trivial, spelled_ofInt _, ⟨spelled_ofInt _, trivial⟩,
    spelled_ofInt _, trivial, spelled_ofInt _, trivial⟩

theorem parses_swapped :
    Parses (Document.object swapped).text (.object (Document.memberTrees swapped)) :=
  Document.parses_text ⟨spelled_ofInt _, trivial, trivial, spelled_ofInt _, ⟨spelled_ofInt _, trivial⟩,
    spelled_ofInt _, trivial, spelled_ofInt _, trivial⟩

theorem occurrences_swapped (key : String) :
    occurrences (Document.memberTrees swapped) (some key) =
      occurrences (Document.memberTrees jumbled) (some key) := by
  rw [occurrences_memberTrees, occurrences_memberTrees]
  unfold swapped jumbled
  simp only [occurrences_cons, List.drop]
  by_cases h : "y" = key
  · subst h
    rfl
  · simp [h]

theorem legible_jumbled : (SyntaxTree.object (Document.memberTrees jumbled)).Legible :=
  SyntaxTree.legible_iff.2 ⟨by decide, by decide⟩

/-- Of the values of `x` the last one is kept, and of those of `y` none; it does not matter which of `y`
and `total_weight` comes first. -/
theorem read_exactly_jumbled :
    ∃ record, ofText (Document.object jumbled).text = .ok record ∧ record.id = -7 ∧
      record.optional.get? "x" = some (.int32 3) ∧ record.optional.get? "y" = none ∧
      ofText (Document.object swapped).text = .ok record := by
  obtain ⟨-, -, hobject⟩ := read_exactly (Document.object jumbled).text
  obtain ⟨hiff, hrecord, horder⟩ := hobject _ parses_jumbled
  obtain ⟨record, hread⟩ := hiff.2 ⟨⟨-7, _, rfl, Numeral.shows_ofInt (-7)⟩, ⟨"PLA", rfl⟩,
    ⟨250, _, rfl, Numeral.shows_ofInt 250⟩, ⟨1000, _, rfl, Numeral.shows_ofInt 1000⟩,
    legible_jumbled⟩
  obtain ⟨⟨n, hn, hid⟩, -, -, -, -, hkept⟩ := ((hrecord record).1 hread).1
  refine ⟨record, hread, ?_, ?_, hkept "y" rfl,
    (horder _ _ parses_swapped (List.Perm.swap ..) occurrences_swapped record).2 hread⟩
  · cases hn
    exact hid.eq (Numeral.shows_ofInt (-7))
  · rcases hkept "x" rfl with ⟨i, hi, hx⟩ | ⟨hnone, -⟩
    · rw [hx, hi.eq (Numeral.shows_ofInt 3)]
    · exact absurd (Numeral.shows_ofInt 3) (hnone 3)

/-! ### What a reader does not follow -/

/-- The mandatory members of an object. -/
def plain : List (String × Document) :=
  [("id", .int 7), ("name", .string "PLA"), ("spool_weight", .int 250), ("total_weight", .int 1000)]

/-- A member as it is written, with its key and its value. -/
structure Extra where
  text : List Char
  key : Option String
  value : SyntaxTree

namespace Extra

/-- A string with a surrogate that has no other half. -/
def string : Extra := ⟨"\"x\":\"\\ud800\"".toList, some "x", .string none⟩

/-- A key with a surrogate that has no other half. -/
def name : Extra := ⟨"\"\\ud800\":true".toList, none, .bool true⟩

/-- A number that is below the largest one of double precision, and leads beyond it when it is worked out. -/
def steep : Numeral := ⟨false, ['1'], "7976931348623157000".toList, some ⟨false, ['3', '0', '8']⟩⟩

def number : Extra := ⟨"\"x\":1.7976931348623157000e308".toList, some "x", .number steep⟩

/-- Arrays inside an array, so many deep. -/
def nested : Nat → SyntaxTree
  | 0 => .array []
  | depth + 1 => .array [nested depth]

/-- Arrays that are nested too deep. -/
def deep : Extra :=
  ⟨"\"x\":".toList ++ List.replicate 127 '[' ++ List.replicate 127 ']', some "x", nested 126⟩

/-- The mandatory members and one more. -/
def members (extra : Extra) : List (Option String × SyntaxTree) :=
  Document.memberTrees plain ++ [(extra.key, extra.value)]

/-- The text of an object with the mandatory members and one more. -/
def object (extra : Extra) : List Char :=
  '{' :: Document.membersText plain ++ ',' :: extra.text ++ ['}']

/-- With this member an object is not read, although its mandatory keys have the values that they need. -/
structure Spoils (extra : Extra) : Prop where
  parses : Parses extra.object (.object extra.members)
  id : HasInteger extra.members "id" 7
  name : HasString extra.members "name" "PLA"
  spoolWeight : HasInteger extra.members "spool_weight" 250
  totalWeight : HasInteger extra.members "total_weight" 1000
  refused : ¬ ∃ record, ofText extra.object = .ok record

variable {extra : Extra}

theorem occurrences_members {key : String} (h : extra.key ≠ some key) :
    occurrences extra.members (some key) = occurrences (Document.memberTrees plain) (some key) := by
  unfold occurrences members
  simp [List.filter_append, h]

theorem spoils (hparses : Parses extra.object (.object extra.members))
    (hother : ∀ field : Mandatory, extra.key ≠ some field.key)
    (hlegible : ¬ (SyntaxTree.object extra.members).Legible) : extra.Spoils where
  parses := hparses
  id := ⟨_, (occurrences_members (hother .id)).trans rfl, Numeral.shows_ofInt 7⟩
  name := (occurrences_members (hother .name)).trans rfl
  spoolWeight := ⟨_, (occurrences_members (hother .spoolWeight)).trans rfl, Numeral.shows_ofInt 250⟩
  totalWeight := ⟨_, (occurrences_members (hother .totalWeight)).trans rfl, Numeral.shows_ofInt 1000⟩
  refused := fun ⟨_, hrecord⟩ => hlegible ((ofText_eq_ok_iff hparses).1 hrecord).2

theorem exceeds_steep : steep.Exceeds := ofNumeral?_eq_none_iff.1 (by decide +kernel)

/-- **Objects that are refused for something else than their mandatory members**: each of the limits of a
reader is passed by a member that the grammar allows. -/
theorem refused_beyond_limits : string.Spoils ∧ name.Spoils ∧ number.Spoils ∧ deep.Spoils := by
  have hheight : ¬ (SyntaxTree.object deep.members).height ≤ maxDepth := by decide +kernel
  refine ⟨spoils (by decide +kernel) ?_ fun h => h.strings (by decide),
    spoils (by decide +kernel) ?_ fun h => h.keys (by decide),
    spoils (by decide +kernel) ?_ fun h => h.numbers steep (by decide) exceeds_steep,
    spoils (by decide +kernel) ?_ fun h => hheight h.nesting⟩
  all_goals
    intro field
    cases field <;> decide

end Extra

end Record

end SpoolTag
