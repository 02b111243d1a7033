import SpoolTag.Proofs.Record.RoundTrip

/-! # Records without what their documents lose

Of the values of a record only numbers that are not finite have no text of their own. `Record.finite`
is the record without them; its document has the same text exactly if there are none
(`text_finite_iff`), because every optional field brings a key and a value, whatever its value is. -/

namespace SpoolTag

open SpoolTag.Json

namespace Value

/-- Whether the value is finite, which only a single-precision number can fail to be. -/
def isFinite : Value → Bool
  | .float32 x => x.isFinite
  | .bool _ | .int32 _ | .byte _ => true

theorem kept?_eq_none_iff {v : Value} : v.kept? = none ↔ v.isFinite = false := by
  cases v with
  | float32 x =>
    change (if x.isFinite then some (Value.float32 x) else none) = none ↔ x.isFinite = false
    cases x.isFinite <;> simp
  | _ => simp [kept?, isFinite]

end Value

namespace Entries

theorem mem_of_get? {key : String} {v : Value} {entries : Entries}
    (h : entries.get? key = some v) : (key, v) ∈ entries := by
  induction entries with
  | nil => cases h
  | cons head rest ih =>
    rw [get?] at h
    split at h
    · next hname =>
      cases h
      subst hname
      exact List.mem_cons_self
    · exact List.mem_cons_of_mem _ (ih h)

theorem get?_filter {entries : Entries} (h : entries.Ascending) (p : Value → Bool)
    (key : String) :
    get? key (entries.filter fun entry => p entry.2) = (entries.get? key).filter p := by
  induction entries with
  | nil => rfl
  | cons head rest ih =>
    obtain ⟨name, v⟩ := head
    have hrest := ih (List.Pairwise.of_cons h)
    rw [get?, List.filter_cons]
    by_cases hname : name = key
    · subst hname
      -- no later entry has the name of one that is left out
      rw [get?_eq_none_of_lt (List.pairwise_cons.1 h).1] at hrest
      rw [if_pos rfl, Option.filter_some]
      split
      · rw [get?, if_pos rfl]
      · exact hrest
    · rw [if_neg hname]
      split
      · rw [get?, if_neg hname, hrest]
      · exact hrest

theorem length_membersEvents (entries : Entries) :
    (Document.membersEvents entries.members).length = 2 * entries.length := by
  induction entries with
  | nil => rfl
  | cons head rest ih =>
    change (Event.key _ :: (head.2.document.events ++ Document.membersEvents (members rest))).length =
      _
    rw [head.2.events_document, List.length_cons, List.length_append, ih]
    simp only [List.length_cons, List.length_nil]
    omega

end Entries

/-- The fields without the numbers that are not finite. -/
def Fields.finite (fields : Fields) : Fields :=
  ⟨fields.entries.filter fun entry => entry.2.isFinite, List.Pairwise.filter _ fields.ascending⟩

theorem Fields.get?_finite (fields : Fields) (key : String) :
    fields.finite.get? key = (fields.get? key).filter Value.isFinite :=
  Entries.get?_filter fields.ascending Value.isFinite key

namespace Record

/-- The record without its numbers that are not finite. -/
def finite (r : Record) : Record := { r with optional := r.optional.finite }

variable {r : Record}

/-- Records with as many optional fields as each other bring as many events. -/
theorem length_events (r : Record) :
    r.document.events.length = 2 * r.optional.entries.length + 10 := by
  change (Event.openObject :: (Document.membersEvents r.members ++ [.closeObject])).length = _
  have hmembers : (Document.membersEvents r.members).length =
      (Document.membersEvents r.optional.entries.members).length + 8 := rfl
  rw [List.length_cons, List.length_append, hmembers, Entries.length_membersEvents]
  rfl

theorem finite_eq_self (h : ∀ key x, r.optional.get? key = some (.float32 x) → x.isFinite = true) :
    r.finite = r := by
  have hoptional : r.optional.finite = r.optional := Fields.ext_get? fun key => by
    rw [Fields.get?_finite]
    cases hv : r.optional.get? key with
    | none => rfl
    | some v =>
      refine Option.filter_some.trans (if_pos ?_)
      cases v with
      | float32 x => exact h key x hv
      | _ => rfl
  rw [finite, hoptional]

/-- **The text of a document shows whether a number was lost.** -/
theorem text_finite_iff : r.finite.document.text = r.document.text ↔
    ∀ key x, r.optional.get? key = some (.float32 x) → x.isFinite = true := by
  constructor
  · intro h key x hx
    have hevents := events_text r.finite.sound_document
    rw [h, events_text r.sound_document] at hevents
    have hlength := congrArg List.length hevents
    rw [List.length_append, List.length_append, length_events, length_events] at hlength
    have hall := List.length_filter_eq_length_iff.1
      (show (r.optional.entries.filter fun entry => entry.2.isFinite).length =
        r.optional.entries.length by
        change _ = 2 * (r.optional.entries.filter fun entry => entry.2.isFinite).length + 10 + _
          at hlength
        omega)
    exact hall (key, .float32 x) (Entries.mem_of_get? hx)
  · intro h
    rw [finite_eq_self h]

end Record

end SpoolTag
