import SpoolTag.Proofs.Record.Members
import SpoolTag.Proofs.Text.Utf8
import SpoolTag.Proofs.Value.Documents

/-! # Records that were written are read

A record is read back from its document with the same mandatory fields, whatever characters its name
and its keys have (`read_written`). The members are read one after the other, each of them putting a
value under its key or leaving the key without one (`members?_entries`); since the keys of a record
differ, every key ends up with what the text of its own value is read as (`get?_keep`). -/

namespace SpoolTag

open SpoolTag.Json

namespace Fields

/-- Puts what is kept of a value under a key. -/
def put (fields : Fields) (key : String) (v : Value) : Fields :=
  match v.kept? with
  | some w => fields.insert key w
  | none => fields.erase key

/-- Puts the values of a list under their keys, one after the other. -/
def keep (fields : Fields) : Entries → Fields
  | [] => fields
  | (key, v) :: rest => (fields.put key v).keep rest

theorem put_eq_set (fields : Fields) (key : String) (v : Value) :
    fields.put key v = fields.set key v.kept? := by
  unfold put set
  cases v.kept? <;> rfl

theorem get?_keep (fields : Fields) {entries : Entries} (h : entries.Ascending) (key : String) :
    (fields.keep entries).get? key =
      match entries.get? key with
      | some v => v.kept?
      | none => fields.get? key := by
  induction entries generalizing fields with
  | nil => rfl
  | cons head rest ih =>
    obtain ⟨name, v⟩ := head
    rw [keep, ih _ (List.Pairwise.of_cons h), Entries.get?, put_eq_set, get?_set]
    by_cases hname : name = key
    · subst hname
      rw [Entries.get?_eq_none_of_lt (List.pairwise_cons.1 h).1, if_pos rfl, if_pos rfl]
    · rw [if_neg hname, if_neg hname]

end Fields

namespace Entries

/-- The members of a document that have the values of the list. -/
def members (entries : Entries) : List (String × Document) :=
  entries.map fun (key, v) => (key, v.document)

theorem get?_ne_none {key : String} {v : Value} {entries : Entries} (h : (key, v) ∈ entries) :
    entries.get? key ≠ none := by
  induction entries with
  | nil => cases h
  | cons head rest ih =>
    rw [get?]
    split
    · exact Option.some_ne_none _
    · next hne =>
      rcases List.mem_cons.1 h with rfl | h
      · exact absurd rfl hne
      · exact ih h

theorem sound_members (entries : Entries) : Document.MembersSound entries.members := by
  induction entries with
  | nil => trivial
  | cons head rest ih => exact ⟨head.2.sound_document, ih⟩

end Entries

namespace Json

theorem Event.int32_ofInt (i : Int32) (field : Option String) :
    Event.int32 (.number (.ofInt i.toInt)) field = .ok i := by
  have hlow := i.le_toInt
  have hhigh := i.toInt_lt
  unfold Event.int32 Event.integer Event.found?
  dsimp only
  rw [ofNumeral?_ofInt (by omega), Option.map_some]
  dsimp only
  rw [if_pos (by omega)]
  exact congrArg Except.ok (Int32.ofInt_toInt i)

end Json

namespace Value

/-- The event of a value is the one at which its document stands. -/
theorem first_document (v : Value) : v.document.first = v.event := by
  have hfirst (d : Document) : d.events.head? = some d.first := by cases d <;> rfl
  have hhead := hfirst v.document
  rw [events_document, List.head?_cons] at hhead
  exact (Option.some.inj hhead).symm

theorem passable_document (v : Value) : v.document.passable 1 = true := by
  have hread := v.ofEvent?_event
  cases v with
  | bool b => rfl
  | int32 i => exact Option.isSome_map.symm.trans (congrArg Option.isSome hread)
  | byte b => exact Option.isSome_map.symm.trans (congrArg Option.isSome hread)
  | float32 x =>
    unfold document Document.single Number.Single.numeral?
    dsimp only
    by_cases hfinite : x.isFinite = true
    · obtain ⟨-, w, hw, -⟩ := ofNumeral?_single x.negative (of_decide_eq_true hfinite)
      rw [if_pos hfinite]
      exact congrArg Option.isSome hw
    · rw [if_neg hfinite]
      rfl

end Value

namespace Record

/-- The optional fields are read one after the other. -/
theorem members?_entries {entries : Entries}
    (h : ∀ entry ∈ entries, Mandatory.ofKey? entry.1 = none) (d : Draft) :
    d.members? entries.members = some { d with optional := d.optional.keep entries } := by
  induction entries generalizing d with
  | nil => rfl
  | cons head tail ih =>
    obtain ⟨key, v⟩ := head
    have hmember : d.member? key v.document = some { d with optional := d.optional.put key v } := by
      rw [Draft.member?, h _ List.mem_cons_self, Fields.put_eq_set, ← v.ofEvent?_event, ← v.first_document]
      exact if_pos v.passable_document
    refine (Draft.members?_cons d key v.document _).trans ?_
    rw [hmember]
    exact ih (fun entry he => h entry (List.mem_cons_of_mem _ he)) _

/-- A mandatory field that has not been read is taken. -/
theorem members?_mandatory {d d' : Draft} {field : Mandatory} (document : Document)
    (hnew : d.has field = false) (h : d.take field document.first = .ok d')
    (rest : List (String × Document)) :
    d.members? ((field.key, document) :: rest) = d'.members? rest := by
  have hfield : Mandatory.ofKey? field.key = some field := by cases field <;> decide
  rw [Draft.members?_cons, Draft.member?, hfield]
  dsimp only
  rw [hnew, h]
  rfl

/-- The record that is read from the document of a record. -/
def kept (r : Record) : Record := { r with optional := Fields.empty.keep r.optional.entries }

theorem get?_kept (r : Record) (key : String) :
    r.kept.optional.get? key = (r.optional.get? key).bind Value.kept? := by
  refine (Fields.get?_keep .empty r.optional.ascending key).trans ?_
  unfold Fields.get?
  cases r.optional.entries.get? key <;> rfl

/-- No optional field has the name of a mandatory one. -/
def Apart (r : Record) : Prop := ∀ field : Mandatory, r.optional.get? field.key = none

theorem Apart.ofKey?_eq_none {r : Record} (h : r.Apart) :
    ∀ entry ∈ r.optional.entries, Mandatory.ofKey? entry.1 = none := by
  intro ⟨key, v⟩ hentry
  cases hkey : Mandatory.ofKey? key with
  | none => rfl
  | some field =>
    have hname : field.key = key := by
      have := List.find?_some hkey
      simpa using this
    exact absurd (hname ▸ h field) (Entries.get?_ne_none hentry)

/-- The four mandatory fields are read first. -/
theorem members?_members (r : Record) :
    Draft.members? {} r.members =
      Draft.members? { id := some r.id, name := some r.name, spoolWeight := some r.spoolWeight,
                       totalWeight := some r.totalWeight } r.optional.entries.members := by
  have hid (d : Draft) : d.take .id (.number (.ofInt r.id.toInt)) =
      .ok { d with id := some r.id } := by
    rw [Draft.take, Event.int32_ofInt]
    rfl
  have hname (d : Draft) : d.take .name (.string (some r.name.toList)) =
      .ok { d with name := some r.name } := by
    rw [Draft.take, Event.text, String.ofList_toList]
    rfl
  have hspool (d : Draft) : d.take .spoolWeight (.number (.ofInt r.spoolWeight.toInt)) =
      .ok { d with spoolWeight := some r.spoolWeight } := by
    rw [Draft.take, Event.int32_ofInt]
    rfl
  have htotal (d : Draft) : d.take .totalWeight (.number (.ofInt r.totalWeight.toInt)) =
      .ok { d with totalWeight := some r.totalWeight } := by
    rw [Draft.take, Event.int32_ofInt]
    rfl
  exact (members?_mandatory (.int _) rfl (hid _) _).trans
    ((members?_mandatory (.string _) rfl (hname _) _).trans
      ((members?_mandatory (.int _) rfl (hspool _) _).trans
        (members?_mandatory (.int _) rfl (htotal _) _)))

/-- **A record is read back from the events of its document.** -/
theorem ofEvents_document {r : Record} (h : r.Apart) :
    ofEvents (r.document.events ++ [.finish]) = .ok r.kept := by
  have hdrafted := (members?_members r).trans (members?_entries h.ofKey?_eq_none _)
  exact ofEvents_object_ok_iff.2 ⟨_, hdrafted, rfl⟩

theorem sound_document (r : Record) : r.document.Sound :=
  ⟨spelled_ofInt _, trivial, spelled_ofInt _, spelled_ofInt _,
    Entries.sound_members r.optional.entries⟩

theorem ofText_document {r : Record} (h : r.Apart) : ofText r.document.text = .ok r.kept := by
  rw [ofText, events_text r.sound_document, ofEvents_document h]
  rfl

/-- The bytes of a text are read as the text is. -/
theorem ofBytes_encode (text : List Char) :
    ofBytes (Text.Utf8.encode text) = (ofEvents (events text)).mapError fun halt =>
      (halt.error, halt.position text (events text).length) := by
  unfold ofBytes Text.Utf8.decodePrefix
  rw [Text.Utf8.scan_encode]
  dsimp only [Option.isNone_none]
  rw [if_pos rfl]
  cases ofEvents (events text) <;> rfl

theorem ofBytes_document {r : Record} (h : r.Apart) :
    ofBytes (Text.Utf8.encode r.document.text) = .ok r.kept := by
  rw [ofBytes_encode, events_text r.sound_document, ofEvents_document h]
  rfl

/-- **A record that was written is read**: the mandatory fields are the same, and under every key is
what the text of the value there is read as by itself. That is the value again, except that a byte is
read as an integer and that a number that is not finite, having been written as null, is not there. -/
theorem read_written (r : Record) (h : ∀ field : Mandatory, r.optional.get? field.key = none) :
    ∃ back : Record, ofText r.document.text = .ok back ∧
      ofBytes (Text.Utf8.encode r.document.text) = .ok back ∧
      back.id = r.id ∧ back.name = r.name ∧ back.spoolWeight = r.spoolWeight ∧
      back.totalWeight = r.totalWeight ∧
      (∀ key, back.optional.get? key =
        (r.optional.get? key).bind fun v => (Value.ofText v.document.text).toOption) ∧
      (∀ b : Bool, Value.ofText (Value.bool b).document.text = .ok (.bool b)) ∧
      (∀ i : Int32, Value.ofText (Value.int32 i).document.text = .ok (.int32 i)) ∧
      (∀ b : UInt8,
        Value.ofText (Value.byte b).document.text = .ok (.int32 (Int32.ofNat b.toNat))) ∧
      ∀ x : Number.Single,
        if x.isFinite then Value.ofText (Value.float32 x).document.text = .ok (.float32 x)
        else (Value.float32 x).document = .null ∧
          (Value.ofText (Value.float32 x).document.text).toOption = none := by
  refine ⟨r.kept, ofText_document h, ofBytes_document h, rfl, rfl, rfl, rfl, fun key => ?_,
    fun b => Value.ofText_of_kept rfl, fun i => Value.ofText_of_kept rfl,
    fun b => Value.ofText_of_kept rfl, fun x => ?_⟩
  · rw [get?_kept]
    exact congrArg _ (funext fun v => (Value.ofText_document v).symm)
  · have hkept : (Value.float32 x).kept? = if x.isFinite then some (.float32 x) else none := rfl
    split
    · next hfinite =>
      rw [if_pos hfinite] at hkept
      exact Value.ofText_of_kept hkept
    · next hinfinite =>
      rw [if_neg hinfinite] at hkept
      refine ⟨?_, (Value.ofText_document _).trans hkept⟩
      unfold Value.document Document.single Number.Single.numeral?
      dsimp only
      rw [if_neg hinfinite]

/-- A record whose texts have to be escaped, with a value of every kind. -/
def intricate : Record :=
  { id := -2147483648
    name := "a\"b\\c\n\x07\t\u00fc😀"
    spoolWeight := 0
    totalWeight := 2147483647
    optional := .insert (.insert (.insert (.insert (.insert .empty "\"" (.bool true))
      "\\x" (.byte 255)) "" (.int32 (-1))) "\x1f" (.float32 ⟨0x7f800000⟩))
      "\u00e9" (.float32 ⟨0x80000001⟩) }

theorem read_written_intricate :
    (∀ field : Mandatory, intricate.optional.get? field.key = none) ∧
      ∃ back : Record, ofText intricate.document.text = .ok back ∧
        ofBytes (Text.Utf8.encode intricate.document.text) = .ok back ∧
        back.name = intricate.name ∧
        ∀ key, back.optional.get? key =
          (intricate.optional.get? key).bind fun v => (Value.ofText v.document.text).toOption := by
  have hapart : ∀ field : Mandatory, intricate.optional.get? field.key = none := by
    intro field
    cases field <;> decide
  obtain ⟨back, htext, hbytes, -, hname, -, -, hfields, -⟩ := read_written intricate hapart
  exact ⟨hapart, back, htext, hbytes, hname, hfields⟩

end Record

end SpoolTag
