import SpoolTag.Manager.Records
import SpoolTag.Proofs.Bus.Memory
import SpoolTag.Proofs.Catalog.Layout
import SpoolTag.Proofs.Record.Presence
import SpoolTag.Proofs.Text.Utf8
import SpoolTag.Proofs.Value.Codec

/-! # What a record read shows

The contents of the registers of an attached device decide what is read: a register that holds a
value shows it (`shows_read`), the string register shows the text whose bytes it holds
(`shows_readText`), and the optional registers that the bitmap names give the fields of their names
(`shows_readFields`, `get?_load`). `HoldsTag` puts together what the registers of a tag hold, and
`shows_readRecord` is the record that is read from it. -/

namespace SpoolTag

open Memory

/-! ### Fields from registers -/

namespace Fields

/-- The fields of registers and their values. -/
def load (fields : Fields) (values : List (Register × Value)) : Fields :=
  values.foldl (fun fields p => fields.insert p.1.name p.2) fields

theorem get?_load_of_notMem {values : List (Register × Value)} {name : String} :
    ∀ {fields : Fields}, (∀ p ∈ values, p.1.name ≠ name) →
      (fields.load values).get? name = fields.get? name := by
  induction values with
  | nil => intro fields _; rfl
  | cons p rest ih =>
    intro fields h
    refine (ih fun q hq => h q (List.mem_cons_of_mem _ hq)).trans ?_
    rw [get?_insert, if_neg (h p List.mem_cons_self)]

/-- The fields of registers of different names have exactly their values. -/
theorem get?_load {values : List (Register × Value)} {name : String} {v : Value} :
    ∀ {fields : Fields}, fields.get? name = none →
      values.Pairwise (fun p q => p.1.name ≠ q.1.name) →
        ((fields.load values).get? name = some v ↔ ∃ p ∈ values, p.1.name = name ∧ p.2 = v) := by
  induction values with
  | nil => intro fields hnone _; simp [load, hnone]
  | cons p rest ih =>
    intro fields hnone h
    obtain ⟨hp, hrest⟩ := List.pairwise_cons.1 h
    change ((fields.insert p.1.name p.2).load rest).get? name = some v ↔ _
    by_cases hname : p.1.name = name
    · subst hname
      have hother : ∀ q ∈ rest, q.1.name ≠ p.1.name := fun q hq => (hp q hq).symm
      rw [get?_load_of_notMem hother, get?_insert, if_pos rfl]
      constructor
      · intro hv
        exact ⟨p, List.mem_cons_self, rfl, Option.some.inj hv⟩
      · rintro ⟨q, hq, hqname, rfl⟩
        rcases List.mem_cons.1 hq with rfl | hq
        · rfl
        · exact absurd hqname (hother q hq)
    · have hnone' : (fields.insert p.1.name p.2).get? name = none := by
        rw [get?_insert, if_neg hname]
        exact hnone
      rw [ih hnone' hrest]
      constructor
      · rintro ⟨q, hq, hqname⟩
        exact ⟨q, List.mem_cons_of_mem _ hq, hqname⟩
      · rintro ⟨q, hq, hqname⟩
        rcases List.mem_cons.1 hq with rfl | hq
        · exact absurd hqname.1 hname
        · exact ⟨q, hq, hqname⟩

end Fields

namespace Manager

variable {m : Manager} {mem : Memory} {r : Register} {v : Value}

/-! ### Registers -/

/-- A register of the device holds a value of its kind. -/
structure Holds (m : Manager) (mem : Memory) (r : Register) (v : Value) : Prop where
  kind : v.kind = r.kind
  bytes : mem.get? m.device r.address = some v.bytes

theorem shows_read (h : mem.attached.contains m.device) (hr : m.Holds mem r v) :
    Shows mem (m.read r) (.ok v) := by
  have hwidth : r.kind.width? = some v.bytes.length := by
    rw [← hr.kind]
    exact v.width_kind
  have hshown := Shows.read h r.address v.bytes.length
  rw [shown_of_get? hr.bytes] at hshown
  unfold read
  rw [hwidth]
  have hdecode := Shows.ofExcept mem (Register.decode_bytes hr.kind)
  exact hshown.bind (hdecode.bind ((Shows.report mem _).bind (Shows.pure mem v)))

theorem shows_register (mem : Memory) (hmem : r ∈ m.catalog.registers) :
    Shows mem (m.register r.name) (.ok r) := Shows.ofExcept mem (Catalog.lookup_of_mem hmem)

theorem shows_readAs {α : Type} {expected : Kind} {view : Value → Option α} {a : α}
    (h : mem.attached.contains m.device) (hmem : r ∈ m.catalog.registers) (hr : m.Holds mem r v)
    (hview : view v = some a) : Shows mem (m.readAs r.name expected view) (.ok a) := by
  refine (shows_register mem hmem).bind ((shows_read h hr).bind ?_)
  rw [hview]
  exact Shows.pure mem a

theorem shows_readInt32 {name : String} {address : UInt8} {i : Int32}
    (h : mem.attached.contains m.device) (hmem : ⟨name, address, .int32⟩ ∈ m.catalog.registers)
    (hr : m.Holds mem ⟨name, address, .int32⟩ (.int32 i)) : Shows mem (m.readInt32 name) (.ok i) :=
  shows_readAs (r := ⟨name, address, .int32⟩) h hmem hr rfl

theorem shows_readByte {name : String} {address b : UInt8} (h : mem.attached.contains m.device)
    (hmem : ⟨name, address, .byte⟩ ∈ m.catalog.registers)
    (hr : m.Holds mem ⟨name, address, .byte⟩ (.byte b)) : Shows mem (m.readByte name) (.ok b) :=
  shows_readAs (r := ⟨name, address, .byte⟩) h hmem hr rfl

theorem textCount_ofNat {n : Nat} (h : n ≤ Register.maxStringBytes) :
    textCount (Int32.ofNat n) = n := by
  have hn : n ≤ 32 := h
  have hint : (Int32.ofNat n).toInt = n := by
    rw [Int32.toInt_ofNat', show Int32.size = 4294967296 from rfl]
    exact Int.bmod_eq_of_le (by omega) (by omega)
  rw [textCount, hint]
  exact Nat.min_eq_left h

/-- The string register shows the text whose bytes it holds, for every length that makes a read ask
for as many bytes. -/
theorem shows_readText {text : List Char} {length : Int32} (h : mem.attached.contains m.device)
    (hkind : r.kind = .utf8String) (hcount : textCount length = (Text.Utf8.encode text).length)
    (hbytes : mem.get? m.device r.address = some (Text.Utf8.encode text)) :
    Shows mem (m.readText r length) (.ok (String.ofList text)) := by
  have hneed : Shows mem (needText r) (.ok ()) := by
    unfold needText
    rw [if_pos hkind]
    exact Shows.pure mem ()
  have hread := Shows.read h r.address (Text.Utf8.encode text).length
  rw [shown_of_get? hbytes] at hread
  refine hneed.bind ?_
  rw [hcount]
  dsimp only
  split
  · next hzero =>
    obtain rfl : text = [] := by
      cases text with
      | nil => rfl
      | cons c text =>
        have hpos := c.utf8Size_pos
        rw [Text.Utf8.length_encode_cons] at hzero
        omega
    exact (Shows.report mem _).bind (Shows.pure mem "")
  · refine hread.bind ?_
    rw [if_neg (not_not_intro rfl), Text.Utf8.decode_encode]
    exact (Shows.report mem _).bind (Shows.pure mem _)

theorem shows_readFields (h : mem.attached.contains m.device) {values : List (Register × Value)}
    (hvalues : ∀ p ∈ values, m.Holds mem p.1 p.2) :
    ∀ fields : Fields,
      Shows mem (m.readFields fields (values.map Prod.fst)) (.ok (fields.load values)) := by
  induction values with
  | nil => intro fields; exact Shows.pure mem fields
  | cons p rest ih =>
    intro fields
    have hp := shows_read h (hvalues p List.mem_cons_self)
    exact hp.bind (ih (fun q hq => hvalues q (List.mem_cons_of_mem _ hq)) _)

/-! ### Records -/

/-- What the registers of a tag hold: the bytes of a name that one transaction carries, and with the
optional values the bits of their registers. -/
structure HoldsTag (m : Manager) (mem : Memory) (l : m.catalog.TagRegisters) (record : Record)
    (name : List Char) (values : List (Register × Value)) (bits : UInt8) : Prop where
  attached : mem.attached.contains m.device
  fits : (Text.Utf8.encode name).length ≤ Register.maxStringBytes
  id : m.Holds mem ⟨Register.filamentId, l.id, .int32⟩ (.int32 record.id)
  nameLength : m.Holds mem ⟨Register.filamentNameLen, l.nameLength, .int32⟩
    (.int32 (Int32.ofNat (Text.Utf8.encode name).length))
  text : mem.get? m.device l.name = some (Text.Utf8.encode name)
  spoolWeight : m.Holds mem ⟨Register.spoolWeight, l.spoolWeight, .int32⟩
    (.int32 record.spoolWeight)
  totalWeight : m.Holds mem ⟨Register.totalWeight, l.totalWeight, .int32⟩
    (.int32 record.totalWeight)
  bitmap : m.Holds mem m.catalog.bitmapRegister (.byte bits)
  optional : ∀ p ∈ values, m.Holds mem p.1 p.2
  present : Bitmap.presentIn ⟨bits⟩ m.catalog.optional = values.map Prod.fst

/-- **The record that is read from a tag.** -/
theorem shows_readRecord {l : m.catalog.TagRegisters} {record : Record} {name : List Char}
    {values : List (Register × Value)} {bits : UInt8}
    (h : m.HoldsTag mem l record name values bits) :
    Shows mem m.readRecord
      (.ok ⟨record.id, String.ofList name, record.spoolWeight, record.totalWeight,
        Fields.load .empty values⟩) := by
  have hlength := shows_readInt32 h.attached l.nameLength_mem h.nameLength
  have hid := shows_readInt32 h.attached l.id_mem h.id
  have hregister := shows_register mem l.name_mem
  have htext := shows_readText (r := ⟨Register.filamentName, l.name, .utf8String⟩) h.attached rfl
    (textCount_ofNat h.fits) h.text
  have hspool := shows_readInt32 h.attached l.spoolWeight_mem h.spoolWeight
  have htotal := shows_readInt32 h.attached l.totalWeight_mem h.totalWeight
  have hbits := shows_readByte h.attached m.catalog.bitmap_mem h.bitmap
  have hfields := shows_readFields h.attached h.optional .empty
  rw [← h.present] at hfields
  exact hlength.bind (hid.bind (hregister.bind (htext.bind (hspool.bind (htotal.bind (hbits.bind
    ((Shows.report mem _).bind (hfields.bind (Shows.pure mem _)))))))))

end Manager

end SpoolTag
