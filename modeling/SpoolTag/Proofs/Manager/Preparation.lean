import SpoolTag.Manager.Records
import SpoolTag.Proofs.Catalog.Marks
import SpoolTag.Proofs.Value.Codec

/-! # The optional values of a record

Before anything is written, the fields of a record are matched with the optional registers. `named`
says which registers the fields name, `Refuses` which of them cannot take the value they are given,
and `assigned` lists the others with their converted values, in the order of their addresses.

`prepare` finds the first refused register if there is one (`prepare_refused`) and otherwise exactly
the assigned registers with their bits (`prepare_ok`); `testBit_bitmapOf` says that the bitmap made
of them has the bits of the named registers and no others. -/

namespace SpoolTag

namespace Fields

variable (fields : Fields) (r : Register)

/-- The fields have a value for the register. -/
def named : Bool := (fields.get? r.name).isSome

/-- The value for the register, converted to what it holds. -/
def valueFor : Option Value := (fields.get? r.name).bind (·.coerce? r.kind)

/-- The register cannot take the value that the fields have for it. -/
def Refuses : Prop := fields.named r = true ∧ fields.valueFor r = none

instance : Decidable (fields.Refuses r) := inferInstanceAs (Decidable (_ ∧ _))

/-- The registers that the fields have values for, with these values. -/
def assigned (registers : List Register) : List (Register × Value) :=
  registers.filterMap fun r => (fields.valueFor r).map (r, ·)

variable {fields r}

theorem valueFor_of_get? {v : Value} (h : fields.get? r.name = some v) :
    fields.valueFor r = v.coerce? r.kind := by
  rw [valueFor, h]
  rfl

theorem named_of_get? {v : Value} (h : fields.get? r.name = some v) : fields.named r = true := by
  rw [named, h]
  rfl

theorem kind_of_valueFor {v : Value} (h : fields.valueFor r = some v) : v.kind = r.kind := by
  obtain ⟨w, -, hw⟩ := Option.bind_eq_some_iff.1 h
  exact Value.kind_of_coerce? hw

theorem named_of_valueFor {v : Value} (h : fields.valueFor r = some v) : fields.named r = true := by
  obtain ⟨w, hw, -⟩ := Option.bind_eq_some_iff.1 h
  exact named_of_get? hw

theorem valueFor_of_named (h : ¬ fields.Refuses r) (hr : fields.named r = true) :
    ∃ v, fields.valueFor r = some v := Option.ne_none_iff_exists'.1 fun hv => h ⟨hr, hv⟩

theorem mem_assigned {registers : List Register} {p : Register × Value} :
    p ∈ fields.assigned registers ↔ p.1 ∈ registers ∧ fields.valueFor p.1 = some p.2 := by
  simp only [assigned, List.mem_filterMap, Option.map_eq_some_iff]
  constructor
  · rintro ⟨r, hr, v, hv, rfl⟩
    exact ⟨hr, hv⟩
  · rintro ⟨hr, hv⟩
    exact ⟨p.1, hr, p.2, hv, rfl⟩

/-- The assigned registers stand in the order of their addresses. -/
theorem ascending_assigned {registers : List Register}
    (h : registers.Pairwise fun r s => r.address < s.address) :
    (fields.assigned registers).Pairwise fun p q => p.1.address < q.1.address := by
  rw [assigned, List.pairwise_filterMap]
  refine h.imp fun {r s} hrs p hp q hq => ?_
  obtain ⟨v, -, rfl⟩ := Option.map_eq_some_iff.1 hp
  obtain ⟨w, -, rfl⟩ := Option.map_eq_some_iff.1 hq
  exact hrs

end Fields

namespace Manager

variable {c : Catalog} {fields : Fields} {registers : List Register}

/-- A preparation goes with its register: it has the bit of its position and the value of the
fields. -/
structure Prepared.Fits (c : Catalog) (fields : Fields) (p : Prepared) : Prop where
  optional : p.register ∈ c.optional
  index : p.index = p.register.address - c.start
  value : fields.valueFor p.register = some p.value

theorem prepare_ok (hoptional : ∀ r ∈ registers, r ∈ c.optional)
    (hok : ∀ r ∈ registers, ¬ fields.Refuses r) :
    ∃ prepared, prepare c fields registers = .ok prepared ∧
      prepared.map (fun p => (p.register, p.value)) = fields.assigned registers ∧
      ∀ p ∈ prepared, p.Fits c fields := by
  induction registers with
  | nil => exact ⟨[], rfl, rfl, by simp⟩
  | cons r rest ih =>
    obtain ⟨prepared, hprepare, hmap, hfits⟩ :=
      ih (fun s hs => hoptional s (List.mem_cons_of_mem _ hs))
        fun s hs => hok s (List.mem_cons_of_mem _ hs)
    rw [prepare]
    cases hget : fields.get? r.name with
    | none =>
      refine ⟨prepared, hprepare, ?_, hfits⟩
      have hvalue : fields.valueFor r = none := by rw [Fields.valueFor, hget]; rfl
      rw [hmap, Fields.assigned, Fields.assigned, List.filterMap_cons, hvalue]
      rfl
    | some v =>
      have hr := hoptional r List.mem_cons_self
      have hvalue := Fields.valueFor_of_get? hget
      cases hcoerce : v.coerce? r.kind with
      | none =>
        rw [hcoerce] at hvalue
        exact absurd ⟨Fields.named_of_get? hget, hvalue⟩ (hok r List.mem_cons_self)
      | some w =>
        rw [hcoerce] at hvalue
        refine ⟨⟨r, r.address - c.start, w⟩ :: prepared, ?_, ?_, ?_⟩
        · dsimp only
          rw [Catalog.bitIndex_of_mem hr, Value.coerce_eq_ok r.name hcoerce, hprepare]
          rfl
        · rw [List.map_cons, hmap, Fields.assigned, Fields.assigned, List.filterMap_cons, hvalue]
          rfl
        · rintro p hp
          rcases List.mem_cons.1 hp with rfl | hp
          · exact ⟨hr, rfl, hvalue⟩
          · exact hfits p hp

/-- The first register that cannot take its value is reported. -/
theorem prepare_refused {before after : List Register} {r : Register}
    (hoptional : ∀ s ∈ before ++ r :: after, s ∈ c.optional)
    (hok : ∀ s ∈ before, ¬ fields.Refuses s) (hr : fields.Refuses r) :
    prepare c fields (before ++ r :: after) = .error (.kindMismatch r.name r.kind) := by
  induction before with
  | nil =>
    obtain ⟨hnamed, hvalue⟩ := hr
    obtain ⟨v, hget⟩ := Option.isSome_iff_exists.1 hnamed
    rw [Fields.valueFor_of_get? hget] at hvalue
    have hindex := Catalog.bitIndex_of_mem (hoptional r (by simp))
    rw [List.nil_append, prepare, hget]
    simp only [hindex, Value.coerce, hvalue]
    rfl
  | cons s before ih =>
    have hrest := ih (fun t ht => hoptional t (List.mem_cons_of_mem _ ht))
      fun t ht => hok t (List.mem_cons_of_mem _ ht)
    rw [List.cons_append, prepare]
    cases hget : fields.get? s.name with
    | none => exact hrest
    | some v =>
      have hindex := Catalog.bitIndex_of_mem (hoptional s (by simp))
      cases hcoerce : v.coerce? s.kind with
      | none =>
        have hvalue := Fields.valueFor_of_get? hget
        rw [hcoerce] at hvalue
        exact absurd ⟨Fields.named_of_get? hget, hvalue⟩ (hok s List.mem_cons_self)
      | some w =>
        dsimp only
        rw [hindex, Value.coerce_eq_ok s.name hcoerce, hrest]
        rfl

/-! ### The bitmap -/

theorem Prepared.Fits.index_lt {p : Prepared} (h : p.Fits c fields) : p.index < 8 :=
  h.index ▸ Catalog.index_lt_of_mem h.optional

/-- **The bitmap has the bits of the named registers**, and no others. -/
theorem testBit_bitmapOf {prepared : List Prepared}
    (hok : ∀ r ∈ c.optional, ¬ fields.Refuses r)
    (hmap : prepared.map (fun p => (p.register, p.value)) = fields.assigned c.optional)
    (hfits : ∀ p ∈ prepared, p.Fits c fields) (i : Nat) :
    (bitmapOf prepared).bits.toNat.testBit i = (c.optional[i]?).any fields.named := by
  have hindex : ∀ index ∈ prepared.map Prepared.index, index < 8 := by
    rintro index hmem
    obtain ⟨p, hp, rfl⟩ := List.mem_map.1 hmem
    exact (hfits p hp).index_lt
  have hbits := Bitmap.testBit_foldl_insert _ hindex .empty i
  rw [List.foldl_map] at hbits
  rw [bitmapOf, hbits, Bitmap.testBit_empty, Bool.false_or, List.any_map, Bool.eq_iff_iff,
    List.any_eq_true, Option.any_eq_true]
  constructor
  · rintro ⟨p, hp, hi⟩
    have hfit := hfits p hp
    obtain ⟨j, hj, hr⟩ := List.getElem_of_mem hfit.optional
    have hindex := c.index_optional j hj
    rw [hr, ← hfit.index] at hindex
    obtain rfl : j = i := by rw [← hindex]; simpa using hi
    exact ⟨p.register, by rw [List.getElem?_eq_getElem hj, hr],
      Fields.named_of_valueFor hfit.value⟩
  · rintro ⟨r, hr, hnamed⟩
    obtain ⟨hi, rfl⟩ := List.getElem?_eq_some_iff.1 hr
    have hmem : c.optional[i] ∈ c.optional := List.getElem_mem hi
    obtain ⟨v, hv⟩ := Fields.valueFor_of_named (hok _ hmem) hnamed
    have hassigned : (c.optional[i], v) ∈ fields.assigned c.optional :=
      Fields.mem_assigned.2 ⟨hmem, hv⟩
    rw [← hmap] at hassigned
    obtain ⟨p, hp, he⟩ := List.mem_map.1 hassigned
    obtain ⟨hregister, -⟩ := Prod.mk.inj he
    refine ⟨p, hp, ?_⟩
    rw [Function.comp_apply, (hfits p hp).index, hregister, c.index_optional i hi]
    simp

end Manager

end SpoolTag
