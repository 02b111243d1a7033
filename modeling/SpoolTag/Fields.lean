import SpoolTag.Value

/-!
# Named values

The optional fields of a record: values under names, at most one for each, listed in the order of
the names. Names are ordered by their characters' code points, which is also the order of their
UTF-8 bytes.

The view is `get?`: two collections with the same values under all names are equal (`ext_get?`), and
`insert` and `erase` change the value under one name (`get?_insert`, `get?_erase`).
-/

namespace SpoolTag

/-- A list of named values in the order of the names. -/
abbrev Entries := List (String × Value)

namespace Entries

/-- No name occurs twice, and the names ascend. -/
def Ascending (entries : Entries) : Prop := entries.Pairwise fun a b => a.1 < b.1

def get? (name : String) : Entries → Option Value
  | [] => none
  | (n, v) :: rest => if n = name then some v else get? name rest

/-- Puts a value under a name, in place of the one that was there. -/
def insert (name : String) (v : Value) : Entries → Entries
  | [] => [(name, v)]
  | (n, w) :: rest =>
    if name < n then (name, v) :: (n, w) :: rest
    else if name = n then (name, v) :: rest
    else (n, w) :: insert name v rest

/-- Leaves out the value under a name. -/
def erase (name : String) (entries : Entries) : Entries := entries.filter (·.1 != name)

theorem mem_insert {name : String} {v : Value} {entry : String × Value} {entries : Entries}
    (h : entry ∈ insert name v entries) : entry = (name, v) ∨ entry ∈ entries := by
  induction entries with
  | nil => simpa [insert] using h
  | cons head rest ih =>
    rw [insert] at h
    split at h
    · simpa using h
    · split at h
      · rcases List.mem_cons.1 h with h | h
        · exact .inl h
        · exact .inr (List.mem_cons_of_mem _ h)
      · rcases List.mem_cons.1 h with h | h
        · exact .inr (h ▸ List.mem_cons_self)
        · exact (ih h).imp_right (List.mem_cons_of_mem _)

theorem ascending_insert (name : String) (v : Value) {entries : Entries}
    (h : entries.Ascending) : Ascending (insert name v entries) := by
  induction entries with
  | nil => simp [insert, Ascending]
  | cons head rest ih =>
    obtain ⟨n, w⟩ := head
    have hrest : Ascending rest := List.Pairwise.of_cons h
    have hhead : ∀ e ∈ rest, n < e.1 := (List.pairwise_cons.1 h).1
    rw [insert]
    split
    · next hlt =>
      refine List.pairwise_cons.2 ⟨fun e he => ?_, h⟩
      rcases List.mem_cons.1 he with rfl | he
      · exact hlt
      · exact String.lt_trans hlt (hhead e he)
    · next hnlt =>
      split
      · next heq =>
        subst heq
        exact List.pairwise_cons.2 ⟨hhead, hrest⟩
      · next hne =>
        refine List.pairwise_cons.2 ⟨fun e he => ?_, ih hrest⟩
        rcases mem_insert he with rfl | he
        · exact (Std.lt_trichotomy n name).resolve_right fun h =>
            h.elim (fun h => hne h.symm) hnlt
        · exact hhead e he

theorem ascending_erase (name : String) {entries : Entries} (h : entries.Ascending) :
    Ascending (erase name entries) := List.Pairwise.filter _ h

theorem get?_insert (name key : String) (v : Value) (entries : Entries) :
    get? key (insert name v entries) = if name = key then some v else get? key entries := by
  induction entries with
  | nil => simp [insert, get?]
  | cons head rest ih =>
    obtain ⟨n, w⟩ := head
    rw [insert]
    split
    · simp [get?]
    · split
      · next heq => subst heq; by_cases h : name = key <;> simp [get?, h]
      · next hne =>
        by_cases h : n = key
        · have : name ≠ key := fun e => hne (e.trans h.symm)
          simp [get?, h, this]
        · simp [get?, h, ih]

theorem get?_erase (name key : String) (entries : Entries) :
    get? key (erase name entries) = if name = key then none else get? key entries := by
  induction entries with
  | nil => simp [erase, get?]
  | cons head rest ih =>
    obtain ⟨n, w⟩ := head
    unfold erase at ih ⊢
    by_cases hn : n = name
    · subst hn
      rw [List.filter_cons_of_neg (by simp), ih]
      by_cases h : n = key <;> simp [get?, h]
    · rw [List.filter_cons_of_pos (by simpa using hn)]
      by_cases h : n = key
      · subst h
        simp [get?, Ne.symm hn]
      · simp [get?, h, ih]

theorem get?_eq_none_of_lt {key : String} {entries : Entries}
    (h : ∀ e ∈ entries, key < e.1) : get? key entries = none := by
  induction entries with
  | nil => rfl
  | cons head rest ih =>
    obtain ⟨n, w⟩ := head
    have hlt : key < n := h (n, w) List.mem_cons_self
    have hne : n ≠ key := fun e => String.lt_irrefl key (e ▸ hlt)
    simp [get?, hne, ih fun e he => h e (List.mem_cons_of_mem _ he)]

theorem Ascending.ext {a b : Entries} (ha : a.Ascending) (hb : b.Ascending)
    (h : ∀ key, get? key a = get? key b) : a = b := by
  induction a generalizing b with
  | nil =>
    cases b with
    | nil => rfl
    | cons head rest => simpa [get?] using h head.1
  | cons x as ih =>
    obtain ⟨n, v⟩ := x
    cases b with
    | nil => simpa [get?] using h n
    | cons y bs =>
      obtain ⟨m, w⟩ := y
      have hn := (List.pairwise_cons.1 ha).1
      have hm := (List.pairwise_cons.1 hb).1
      have hnm : n = m := by
        rcases Std.lt_trichotomy n m with hlt | heq | hgt
        · have hb' : get? n ((m, w) :: bs) = none := get?_eq_none_of_lt fun e he => by
            rcases List.mem_cons.1 he with rfl | he
            · exact hlt
            · exact String.lt_trans hlt (hm e he)
          have := h n
          rw [hb'] at this
          simp [get?] at this
        · exact heq
        · have ha' : get? m ((n, v) :: as) = none := get?_eq_none_of_lt fun e he => by
            rcases List.mem_cons.1 he with rfl | he
            · exact hgt
            · exact String.lt_trans hgt (hn e he)
          have := h m
          rw [ha'] at this
          simp [get?] at this
      subst hnm
      have hvw : v = w := by simpa [get?] using h n
      subst hvw
      refine congrArg _ (ih ha.of_cons hb.of_cons fun key => ?_)
      by_cases hk : n = key
      · subst hk
        rw [get?_eq_none_of_lt hn, get?_eq_none_of_lt hm]
      · simpa [get?, hk] using h key

end Entries

/-- Values under names, in the order of the names. -/
structure Fields where
  entries : Entries
  ascending : entries.Ascending
  deriving DecidableEq

namespace Fields

def empty : Fields := ⟨[], List.Pairwise.nil⟩

def get? (fields : Fields) (name : String) : Option Value := fields.entries.get? name

/-- Puts a value under a name, in place of the one that was there. -/
def insert (fields : Fields) (name : String) (v : Value) : Fields :=
  ⟨fields.entries.insert name v, Entries.ascending_insert name v fields.ascending⟩

/-- Leaves out the value under a name. -/
def erase (fields : Fields) (name : String) : Fields :=
  ⟨fields.entries.erase name, Entries.ascending_erase name fields.ascending⟩

def names (fields : Fields) : List String := fields.entries.map (·.1)

theorem ext_get? {a b : Fields} (h : ∀ name, a.get? name = b.get? name) : a = b := by
  obtain ⟨as, ha⟩ := a
  obtain ⟨bs, hb⟩ := b
  have : as = bs := ha.ext hb h
  subst this
  rfl

@[simp] theorem get?_empty (name : String) : empty.get? name = none := rfl

theorem get?_insert (fields : Fields) (name key : String) (v : Value) :
    (fields.insert name v).get? key = if name = key then some v else fields.get? key :=
  Entries.get?_insert name key v fields.entries

theorem get?_erase (fields : Fields) (name key : String) :
    (fields.erase name).get? key = if name = key then none else fields.get? key :=
  Entries.get?_erase name key fields.entries

/-- Equality of the names and, value by value, of the values with numbers compared as numbers. -/
def same (a b : Fields) : Bool :=
  a.names == b.names && (a.entries.zip b.entries).all fun (x, y) => x.2.same y.2

end Fields

end SpoolTag
