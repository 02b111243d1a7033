import SpoolTag.Proofs.Manager.Looking
import SpoolTag.Proofs.Manager.ReadProtocol
import SpoolTag.Proofs.Manager.RoundTrip
import SpoolTag.Proofs.Record.Finite
import SpoolTag.Proofs.Text.Cutting

/-! # Writing back what was read

A record that was read from a tag, written as a document and read again as a record, can be written
to the tag, and what is read afterwards is the first record without its numbers that are not finite
(`read_after_rewriting`).

The registers have to take back what the document keeps of their values: the register of a byte gets
an integer, which is the byte again (`coerce?_kept`). That a value goes to the register it comes from
is a matter of the names in the catalog (`OfTag`). -/

namespace SpoolTag

open Memory

/-- What is kept of a value converts to the value again. -/
theorem Value.coerce?_kept {v w : Value} (h : v.kept? = some w) : w.coerce? v.kind = some v := by
  cases v with
  | bool b =>
    cases h
    rfl
  | int32 i =>
    cases h
    rfl
  | float32 x =>
    change (if x.isFinite then some (Value.float32 x) else none) = some w at h
    split at h <;> cases h
    rfl
  | byte b =>
    cases h
    have hb := b.toNat_lt
    have hint : (Int32.ofNat b.toNat).toInt = b.toNat := Int32.toInt_ofNat_of_lt (by omega)
    change (if 0 ≤ (Int32.ofNat b.toNat).toInt ∧ (Int32.ofNat b.toNat).toInt < 256 then
      some (Value.byte (UInt8.ofNat (Int32.ofNat b.toNat).toInt.toNat)) else none) = some (.byte b)
    rw [hint, if_pos (by omega), Int.toNat_natCast, UInt8.ofNat_toNat]

/-! ### Records of a tag -/

/-- What a tag keeps of a record whose name fits is the record, but for the optional fields. -/
theorem Record.KeptAs.eq_of_fits {c : Catalog} {record back : Record} (h : record.KeptAs c back)
    (hfits : (Text.Utf8.encode record.name.toList).length ≤ Register.maxStringBytes) :
    back = { record with optional := back.optional } := by
  have hname : back.name = record.name := String.toList_inj.1 (h.name.eq_of_fits hfits)
  obtain ⟨id, name, spoolWeight, totalWeight, optional⟩ := back
  obtain ⟨hid, -, hspool, htotal, -⟩ := h
  dsimp only at hid hspool htotal hname ⊢
  rw [hid, hspool, htotal, hname]

/-- What is known of a record that was read from a tag: its name is one that a transaction carries,
and its optional fields have the names of optional registers and values of their kinds. -/
structure Record.OfTag (c : Catalog) (record : Record) : Prop where
  fits : (Text.Utf8.encode record.name.toList).length ≤ Register.maxStringBytes
  optional : ∀ key v, record.optional.get? key = some v →
    ∃ r ∈ c.optional, r.name = key ∧ v.kind = r.kind

namespace Record.OfTag

variable {c : Catalog} {record : Record}

/-- The register of a field has the kind of its value. -/
theorem kind_eq (h : record.OfTag c) {r : Register} (hr : r ∈ c.optional) {v : Value}
    (hv : record.optional.get? r.name = some v) : v.kind = r.kind := by
  obtain ⟨s, hs, hname, hkind⟩ := h.optional _ v hv
  rw [hkind, Catalog.eq_of_name_eq (Catalog.mem_of_mem_optional hs)
    (Catalog.mem_of_mem_optional hr) hname]

/-- **No register refuses what the document keeps of its value.** -/
theorem not_refuses_kept (h : record.OfTag c) :
    ∀ r ∈ c.optional, ¬ record.kept.optional.Refuses r := by
  rintro r hr ⟨hnamed, hvalue⟩
  obtain ⟨w, hw⟩ := Option.isSome_iff_exists.1 hnamed
  rw [Fields.valueFor_of_get? hw] at hvalue
  rw [Record.get?_kept, Option.bind_eq_some_iff] at hw
  obtain ⟨v, hv, hkept⟩ := hw
  rw [← h.kind_eq hr hv, Value.coerce?_kept hkept] at hvalue
  cases hvalue

/-- What the registers make of what the document keeps are the finite fields. -/
theorem get?_finite_iff (h : record.OfTag c) {key : String} {v : Value} :
    record.optional.finite.get? key = some v ↔ ∃ r ∈ c.optional, r.name = key ∧
      ∃ w, record.kept.optional.get? key = some w ∧ w.coerce? r.kind = some v := by
  rw [Fields.get?_finite, Option.filter_eq_some_iff, Record.get?_kept]
  constructor
  · rintro ⟨hv, hfinite⟩
    obtain ⟨r, hr, hname, hkind⟩ := h.optional key v hv
    obtain ⟨w, hw⟩ : ∃ w, v.kept? = some w := by
      refine Option.ne_none_iff_exists'.1 fun hlost => ?_
      rw [Value.kept?_eq_none_iff.1 hlost] at hfinite
      cases hfinite
    refine ⟨r, hr, hname, w, Option.bind_eq_some_iff.2 ⟨v, hv, hw⟩, ?_⟩
    rw [← hkind]
    exact Value.coerce?_kept hw
  · rintro ⟨r, hr, rfl, w, hw, hcoerce⟩
    obtain ⟨u, hu, hkept⟩ := Option.bind_eq_some_iff.1 hw
    rw [← h.kind_eq hr hu, Value.coerce?_kept hkept] at hcoerce
    cases hcoerce
    refine ⟨hu, ?_⟩
    cases hfinite : v.isFinite with
    | true => rfl
    | false =>
      rw [Value.kept?_eq_none_iff.2 hfinite] at hkept
      cases hkept

/-- What a tag keeps of the record that is read from the document. -/
theorem eq_finite_of_keptAs (h : record.OfTag c) {back : Record}
    (hback : record.kept.KeptAs c back) : back = record.finite := by
  have hoptional : back.optional = record.finite.optional := Fields.ext_get? fun key =>
    Option.ext fun v => (hback.optional key v).trans h.get?_finite_iff.symm
  rw [hback.eq_of_fits h.fits, hoptional]
  rfl

end Record.OfTag

/-! ### Reading -/

theorem Kind.kind_spelled (bytes : List UInt8) {kind : Kind} (h : kind ≠ .utf8String) :
    (kind.spelled bytes).kind = kind := by
  cases kind with
  | utf8String => exact absurd rfl h
  | _ => rfl

theorem Register.Tells.kind_eq {r : Register} {reply : Reply} {v : Value} (h : r.Tells reply v)
    (hr : r.kind ≠ .utf8String) : v.kind = r.kind := by
  obtain ⟨bytes, -, hdecode⟩ := h
  rw [decode_eq hr] at hdecode
  split at hdecode
  · cases hdecode
  · cases hdecode
    exact Kind.kind_spelled bytes hr

theorem TagReplies.Gives.ofTag {c : Catalog} {t : TagReplies} {l : c.ReadRegisters}
    {record : Record} {device : UInt8} (h : t.Gives l record)
    (hgood : (t.inquiry l).fault? device = none) : record.OfTag c where
  fits := by
    have hname := h.name
    split at hname
    · rw [hname]
      exact Nat.zero_le _
    · next hlength =>
      obtain ⟨bytes, hbytes, hcount⟩ := Query.length_of_good
        (Inquiry.good_of_mem hgood _ (name_mem_inquiry hlength))
      rw [hname] at hbytes
      cases hbytes
      rw [hcount]
      exact Nat.min_le_right _ _
  optional key v hv := by
    obtain ⟨r, hr, hkey, htells⟩ := (h.optional key v).1 hv
    have hmem := Catalog.mem_optional_of_marked hr
    exact ⟨r, hmem, hkey, htells.kind_eq (Catalog.width_of_mem_optional hmem)⟩

namespace Manager

variable {m : Manager} {mem : Memory} {record : Record}

/-- A record that was read, on any bus, is one of a tag. -/
theorem ofTag_of_readRecord {σ : Type} {bus : Bus σ} {s : σ} (l : m.catalog.ReadRegisters)
    (h : (m.readRecord.run.run bus s).result = .ok record) : record.OfTag m.catalog := by
  obtain ⟨t, later, hread⟩ := inquires_readRecord bus s m l
  obtain ⟨hgood, rfl⟩ := hread.of_ok h
  exact (TagReplies.gives_record hgood).ofTag hgood

/-- Only a device that is attached is read. -/
theorem attached_of_readRecord (l : m.catalog.ReadRegisters)
    (h : (m.readRecord.run.run bus mem).result = .ok record) :
    mem.attached.contains m.device := by
  by_contra hdetached
  have hread : Shows mem (m.read ⟨Register.filamentNameLen, l.nameLength, .int32⟩) (.error _) :=
    Shows.bind_error _ (Shows.detached (r := .read m.device l.nameLength 4) hdetached)
  have hlength : Shows mem (m.readInt32 Register.filamentNameLen) (.error _) :=
    (shows_register mem l.nameLength_mem).bind (Shows.bind_error _ hread)
  have hrecord : Shows mem m.readRecord (.error _) := Shows.bind_error _ hlength
  have hresult := hrecord.result
  rw [h] at hresult
  cases hresult

/-! ### Writing -/

/-- **What was read from a tag can be written back**, as its document is read, and only the numbers
that are not finite are not there afterwards. -/
theorem read_after_rewriting (l : m.catalog.TagRegisters) (hapart : l.Apart)
    (h : (m.readRecord.run.run bus mem).result = .ok record) :
    let rewriting := (m.writeRecord record.kept).run.run bus (m.readRecord.run.run bus mem).state
    rewriting.result = .ok () ∧
      (m.readRecord.run.run bus rewriting.state).result = .ok record.finite := by
  intro rewriting
  have hattached := attached_of_readRecord l.forReading h
  have hrecord : record.OfTag m.catalog := ofTag_of_readRecord l.forReading h
  obtain ⟨outcome, hshows⟩ := m.still_readRecord mem
  obtain ⟨recent, hstate⟩ := hshows.state
  have hattached' : (m.readRecord.run.run bus mem).state.attached.contains m.device := by
    rw [hstate]
    exact hattached
  obtain ⟨name, values, bits, hcarried, hwritten, hafter⟩ :=
    written_of_not_refused l hattached' hrecord.not_refuses_kept
  refine ⟨hwritten, ?_⟩
  change (m.readRecord.run.run bus ((m.writeRecord record.kept).run.run bus _).state).result = _
  rw [hafter, (shows_readRecord (holdsTag_after_plan hapart hcarried hattached')).result]
  exact congrArg Except.ok (hrecord.eq_finite_of_keptAs (keptAs_of_carried hcarried))

end Manager

end SpoolTag
