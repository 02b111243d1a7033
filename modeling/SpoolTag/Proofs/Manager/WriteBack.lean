import SpoolTag.Proofs.Manager.Rewriting

/-! # Writing back the record itself

A record that was read can be written to the registers it comes from, which changes only what the
record does not tell (`unchanged_by_writing_back`). What the registers show is what the record tells of
them (`ReadOff`), whatever they hold beyond that: a length that is too great or below zero, bytes that
are missing or too many, bits for which there is no register. Every value is written with the bytes that
spelled it, except that there is one byte for true (`Register.bytes_of_decode`), so registers that are
written show the same as before (`WrittenBack`), and the record is read again. -/

namespace SpoolTag

open Memory

/-! ### Records of a tag -/

namespace Record.OfTag

variable {c : Catalog} {record : Record}

theorem not_refuses (h : record.OfTag c) : ∀ r ∈ c.optional, ¬ record.optional.Refuses r := by
  rintro r hr ⟨hnamed, hvalue⟩
  obtain ⟨v, hv⟩ := Option.isSome_iff_exists.1 hnamed
  rw [Fields.valueFor_of_get? hv, ← h.kind_eq hr hv, v.coerce?_self] at hvalue
  cases hvalue

/-- A tag keeps a record that was read from one as it is. -/
theorem eq_of_keptAs (h : record.OfTag c) {back : Record} (hback : record.KeptAs c back) :
    back = record := by
  have hoptional : back.optional = record.optional := by
    refine Fields.ext_get? fun key => Option.ext fun v => (hback.optional key v).trans ?_
    constructor
    · rintro ⟨r, hr, rfl, w, hw, hv⟩
      rw [← h.kind_eq hr hw, w.coerce?_self] at hv
      rw [hw, hv]
    · intro hv
      obtain ⟨r, hr, hkey, hkind⟩ := h.optional key v hv
      exact ⟨r, hr, hkey, v, hv, hkind ▸ v.coerce?_self⟩
  rw [hback.eq_of_fits h.fits, hoptional]

end Record.OfTag

namespace Manager

variable {m : Manager} {mem : Memory} {record : Record} {bits : UInt8}

/-! ### What a record tells of the registers -/

/-- What the registers of a device show is what the record tells of them. -/
structure ReadOff (m : Manager) (l : m.catalog.ReadRegisters) (mem : Memory) (record : Record)
    (bits : UInt8) : Prop where
  id : mem.shown m.device l.id 4 = (Value.int32 record.id).bytes
  name : mem.shown m.device l.name (Text.Utf8.encode record.name.toList).length =
    Text.Utf8.encode record.name.toList
  spoolWeight : mem.shown m.device l.spoolWeight 4 = (Value.int32 record.spoolWeight).bytes
  totalWeight : mem.shown m.device l.totalWeight 4 = (Value.int32 record.totalWeight).bytes
  bitmap : mem.shown m.device m.catalog.bitmapRegister.address 1 = [bits]
  optional : ∀ key v, record.optional.get? key = some v ↔ ∃ r ∈ m.catalog.marked bits,
    r.name = key ∧ r.decode (mem.shown m.device r.address r.query.count) = .ok v

/-- **A record that was read tells what the registers show.** -/
theorem readOff_of_readRecord (l : m.catalog.ReadRegisters)
    (h : (m.readRecord.run.run bus mem).result = .ok record) : ∃ bits, m.ReadOff l mem record bits := by
  have hattached := attached_of_readRecord l h
  obtain ⟨t, later, hread⟩ := inquires_readRecord bus mem m l
  obtain ⟨hgood, rfl⟩ := hread.of_ok h
  have hgives := TagReplies.gives_record hgood
  have hreply : ∀ {q : Query} {reply : Reply}, (q, reply) ∈ t.inquiry l →
      reply = .ok (mem.shown m.device q.register.address q.count) :=
    fun hmem => hread.reply_eq hattached hgood hmem
  have hint : ∀ {name : String} {address : UInt8} {reply : Reply} {i : Int32},
      (Register.query ⟨name, address, .int32⟩, reply) ∈ t.inquiry l →
        Register.Tells ⟨name, address, .int32⟩ reply (.int32 i) →
          mem.shown m.device address 4 = (Value.int32 i).bytes := by
    rintro name address _ i hmem ⟨bytes, rfl, hdecode⟩
    cases hreply hmem
    exact (Register.bytes_of_decode hdecode).symm
  have hbitmap : t.bitmap = .ok (mem.shown m.device m.catalog.bitmapRegister.address 1) :=
    hreply (q := m.catalog.bitmapRegister.query) (by simp [TagReplies.inquiry])
  obtain ⟨b, hb⟩ := List.length_eq_one_iff.1
    (mem.length_shown m.device m.catalog.bitmapRegister.address 1)
  refine ⟨t.bitmap.byte, ?_⟩
  exact {
    id := hint (by simp [TagReplies.inquiry]) hgives.id
    name := by
      have hname := hgives.name
      split at hname
      · rw [hname]
        exact List.eq_nil_of_length_eq_zero (length_shown _ _ _ _)
      · next hlength =>
        have hshown := Except.ok.inj
          (hname.symm.trans (hreply (TagReplies.name_mem_inquiry hlength)))
        have hcount := congrArg List.length hshown
        rw [length_shown] at hcount
        rw [hcount]
        exact hshown.symm
    spoolWeight := hint (by simp [TagReplies.inquiry]) hgives.spoolWeight
    totalWeight := hint (by simp [TagReplies.inquiry]) hgives.totalWeight
    bitmap := by
      rw [hbitmap]
      change mem.shown m.device m.catalog.bitmapRegister.address 1 = [UInt8.ofNat
        (littleEndian (mem.shown m.device m.catalog.bitmapRegister.address 1))]
      rw [hb]
      simp [littleEndian]
    optional := fun key v => by
      refine (hgives.optional key v).trans (exists_congr fun r => and_congr_right fun hr =>
        and_congr_right fun _ => ?_)
      have hoptional : t.optional r = .ok (mem.shown m.device r.address r.query.count) :=
        hreply (TagReplies.optional_mem_inquiry hr)
      rw [hoptional]
      constructor
      · rintro ⟨bytes, hbytes, hdecode⟩
        cases hbytes
        exact hdecode
      · exact fun hdecode => ⟨_, rfl, hdecode⟩ }

/-- There is a value for every register whose bit is set. -/
theorem ReadOff.exists_value {l : m.catalog.ReadRegisters} (h : m.ReadOff l mem record bits)
    {r : Register} (hr : r ∈ m.catalog.marked bits) : ∃ v, record.optional.get? r.name = some v ∧
      r.decode (mem.shown m.device r.address r.query.count) = .ok v := by
  have hkind := Catalog.width_of_mem_optional (Catalog.mem_optional_of_marked hr)
  have hdecode := Register.decode_eq hkind (mem.shown m.device r.address r.query.count)
  rw [if_neg (not_not_intro (length_shown _ _ _ _))] at hdecode
  exact ⟨_, (h.optional _ _).2 ⟨r, hr, rfl, hdecode⟩, hdecode⟩

/-- The values that are written back are those that were read. -/
theorem ReadOff.mem_values_iff {l : m.catalog.ReadRegisters} (h : m.ReadOff l mem record bits)
    (hrecord : record.OfTag m.catalog) {name : List Char} {values : List (Register × Value)}
    {newBits : UInt8} (hcarried : Carried m.catalog record name values newBits)
    {p : Register × Value} : p ∈ values ↔ p.1 ∈ m.catalog.marked bits ∧
      p.1.decode (mem.shown m.device p.1.address p.1.query.count) = .ok p.2 := by
  rw [hcarried.assigned]
  constructor
  · rintro ⟨hmem, v, hv, hcoerce⟩
    rw [← hrecord.kind_eq hmem hv, v.coerce?_self] at hcoerce
    cases hcoerce
    obtain ⟨r, hr, hname, hdecode⟩ := (h.optional _ _).1 hv
    obtain rfl := Catalog.eq_of_name_eq (Catalog.mem_of_mem_optional
      (Catalog.mem_optional_of_marked hr)) (Catalog.mem_of_mem_optional hmem) hname
    exact ⟨hr, hdecode⟩
  · rintro ⟨hr, hdecode⟩
    have hmem := Catalog.mem_optional_of_marked hr
    have hv := (h.optional _ _).2 ⟨p.1, hr, rfl, hdecode⟩
    exact ⟨hmem, p.2, hv, hrecord.kind_eq hmem hv ▸ p.2.coerce?_self⟩

/-- The bits that are written back are those that were read, as far as there are registers. -/
theorem ReadOff.bits_eq {l : m.catalog.ReadRegisters} (h : m.ReadOff l mem record bits)
    (hrecord : record.OfTag m.catalog) {name : List Char} {values : List (Register × Value)}
    {newBits : UInt8} (hcarried : Carried m.catalog record name values newBits) :
    newBits.toNat = bits.toNat % 2 ^ m.catalog.optional.length := by
  refine Nat.eq_of_testBit_eq fun i => ?_
  rw [Nat.testBit_mod_two_pow, Bool.eq_iff_iff, Bool.and_eq_true, decide_eq_true_iff,
    hcarried.named i]
  constructor
  · rintro ⟨p, hp, hi⟩
    obtain ⟨hlt, hregister⟩ := List.getElem?_eq_some_iff.1 hi
    refine ⟨hlt, (Catalog.getElem_mem_marked i hlt).1 ?_⟩
    rw [hregister]
    exact ((h.mem_values_iff hrecord hcarried).1 hp).1
  · rintro ⟨hlt, hbit⟩
    have hr := (Catalog.getElem_mem_marked i hlt).2 hbit
    obtain ⟨v, -, hdecode⟩ := h.exists_value hr
    exact ⟨(m.catalog.optional[i], v), (h.mem_values_iff hrecord hcarried).2 ⟨hr, hdecode⟩,
      List.getElem?_eq_getElem hlt⟩

/-! ### What the registers show afterwards -/

/-- The registers that a record with these bits is written to, before the commit. -/
def written (m : Manager) (l : m.catalog.TagRegisters) (bits : UInt8) : List Register :=
  l.fixed ++ m.catalog.marked bits ++ [m.catalog.bitmapRegister]

/-- What writing back a record leaves. Every register of fixed width shows what it showed, with these
exceptions: the length is the number of bytes of the name, the bitmap has only bits of optional
registers, truth values that were written are zero or one, and the operation is the commit. The name is
cut to its length. Nothing else is touched, neither registers whose bit is clear nor other devices. -/
structure WrittenBack (m : Manager) (l : m.catalog.TagRegisters) (record : Record) (bits : UInt8)
    (before after : Memory) : Prop where
  same : ∀ r ∈ m.catalog.registers, ∀ width, r.kind.width? = some width →
    r.name ∉ [Register.filamentNameLen, Register.optBitmap, Register.operation] →
    ¬ (r ∈ m.catalog.marked bits ∧ r.kind = .bool) →
      after.shown m.device r.address width = before.shown m.device r.address width
  nameLength : littleEndian (after.shown m.device l.nameLength 4) =
    (Text.Utf8.encode record.name.toList).length
  name : after.get? m.device l.name = some (Text.Utf8.encode record.name.toList)
  cut : before.shown m.device l.name (Text.Utf8.encode record.name.toList).length =
    Text.Utf8.encode record.name.toList
  bitmap : before.shown m.device m.catalog.bitmapRegister.address 1 = [bits]
  cleared : after.shown m.device m.catalog.bitmapRegister.address 1 =
    [UInt8.ofNat (bits.toNat % 2 ^ m.catalog.optional.length)]
  flags : ∀ r ∈ m.catalog.marked bits, r.kind = .bool → after.shown m.device r.address 1 =
    [if before.shown m.device r.address 1 = [0] then 0 else 1]
  operation : after.shown m.device l.operation 1 = [Operation.commit.code]
  unmarked : ∀ (i : Nat) (hi : i < m.catalog.optional.length), bits.toNat.testBit i = false →
    after.get? m.device m.catalog.optional[i].address =
      before.get? m.device m.catalog.optional[i].address
  untouched : ∀ device address, (device = m.device → address ≠ l.operation ∧
    ∀ r ∈ m.written l bits, r.address ≠ address) →
      after.get? device address = before.get? device address

section AfterPlan

variable {l : m.catalog.TagRegisters} {name : List Char} {values : List (Register × Value)}
  {newBits : UInt8}

theorem shown_after_plan (hapart : l.Apart) (h : Carried m.catalog record name values newBits)
    (hattached : mem.attached.contains m.device) {p : Register × List UInt8}
    (hp : p ∈ m.contents l record name values newBits) :
    (bus.stateAfter (m.writePlan l record name values newBits) mem).shown m.device p.1.address
      p.2.length = p.2 := shown_of_get? (get?_after_plan hapart h hattached hp)

theorem shown_operation_after_plan (hapart : l.Apart)
    (h : Carried m.catalog record name values newBits) (hattached : mem.attached.contains m.device) :
    (bus.stateAfter (m.writePlan l record name values newBits) mem).shown m.device l.operation 1 =
      [Operation.commit.code] := by
  have hheld : (bus.stateAfter (m.writePlan l record name values newBits) mem).get? m.device
      l.operation = some [Operation.commit.code] := by
    rw [writePlan_eq_writes]
    refine get?_after_of_mem hattached ?_ (List.mem_append_right _ (List.mem_singleton.2 rfl))
    rw [List.map_append]
    exact nodup_addresses_plan hapart h
  exact shown_of_get? hheld

/-- A register whose bit is set shows what it showed; of a truth value, the one byte for it. -/
theorem shown_marked_after_plan (hapart : l.Apart) (hoff : m.ReadOff l.forReading mem record bits)
    (hrecord : record.OfTag m.catalog) (h : Carried m.catalog record name values newBits)
    (hattached : mem.attached.contains m.device) {r : Register} (hr : r ∈ m.catalog.marked bits) :
    (bus.stateAfter (m.writePlan l record name values newBits) mem).shown m.device r.address
        r.query.count =
      if r.kind = .bool then [if mem.shown m.device r.address r.query.count = [0] then 0 else 1]
      else mem.shown m.device r.address r.query.count := by
  obtain ⟨v, hv, hdecode⟩ := hoff.exists_value hr
  have hvalue : (r, v) ∈ values := (hoff.mem_values_iff hrecord h).2 ⟨hr, hdecode⟩
  have hwidth : r.query.count = v.bytes.length := by
    have hkind := hrecord.kind_eq (Catalog.mem_optional_of_marked hr) hv
    rw [Register.query, ← hkind, v.width_kind]
    rfl
  rw [← Register.bytes_of_decode hdecode, hwidth]
  exact shown_after_plan hapart h hattached (mem_contents_of_value hvalue)

/-- The registers of fixed width that every record has show what they showed, except for the length. -/
theorem shown_fixed_after_plan (hapart : l.Apart) (hoff : m.ReadOff l.forReading mem record bits)
    (h : Carried m.catalog record name values newBits) (hattached : mem.attached.contains m.device)
    {r : Register} (hr : r ∈ l.fixed) (hname : r.name ≠ Register.filamentNameLen) {width : Nat}
    (hwidth : r.kind.width? = some width) :
    (bus.stateAfter (m.writePlan l record name values newBits) mem).shown m.device r.address width =
      mem.shown m.device r.address width := by
  have hshown : ∀ {r : Register} {i : Int32},
      (r, (Value.int32 i).bytes) ∈ m.fixedContents l record name →
        (bus.stateAfter (m.writePlan l record name values newBits) mem).shown m.device r.address 4 =
          (Value.int32 i).bytes :=
    fun hmem => shown_after_plan hapart h hattached (mem_contents_of_fixed hmem)
  simp only [Catalog.TagRegisters.fixed, List.mem_cons, List.not_mem_nil, or_false] at hr
  rcases hr with rfl | rfl | rfl | rfl | rfl
  · cases hwidth
    exact (hshown (i := record.id) (by simp [fixedContents, Catalog.TagRegisters.fixed])).trans
      hoff.id.symm
  · exact absurd rfl hname
  · cases hwidth
  · cases hwidth
    exact (hshown (i := record.spoolWeight)
      (by simp [fixedContents, Catalog.TagRegisters.fixed])).trans hoff.spoolWeight.symm
  · cases hwidth
    exact (hshown (i := record.totalWeight)
      (by simp [fixedContents, Catalog.TagRegisters.fixed])).trans hoff.totalWeight.symm

theorem get?_after_plan_of_untouched (hoff : m.ReadOff l.forReading mem record bits)
    (hrecord : record.OfTag m.catalog)
    (h : Carried m.catalog record name values newBits) (hattached : mem.attached.contains m.device)
    (device address : UInt8) (huntouched : device = m.device → address ≠ l.operation ∧
      ∀ r ∈ m.written l bits, r.address ≠ address) :
    (bus.stateAfter (m.writePlan l record name values newBits) mem).get? device address =
      mem.get? device address := by
  rw [writePlan_eq_writes]
  refine get?_after_of_notMem hattached fun hdevice hmem => ?_
  obtain ⟨hoperation, hwritten⟩ := huntouched hdevice
  rw [List.map_append, List.mem_append, List.map_map] at hmem
  rcases hmem with hmem | hmem
  · obtain ⟨p, hp, rfl⟩ := List.mem_map.1 hmem
    have hregister := List.mem_map_of_mem (f := Prod.fst) hp
    rw [map_fst_contents, List.mem_append, List.mem_append] at hregister
    refine hwritten p.1 ?_ rfl
    rw [written, List.mem_append, List.mem_append]
    refine hregister.imp_left (Or.imp_right fun hvalue => ?_)
    obtain ⟨q, hq, hqp⟩ := List.mem_map.1 hvalue
    rw [← hqp]
    exact ((hoff.mem_values_iff hrecord h).1 hq).1
  · exact hoperation (List.mem_singleton.1 hmem)

/-- A register that is none of those that are written is at another address. -/
theorem address_ne_of_notMem_written {r : Register} (hmem : r ∈ m.catalog.registers)
    (hname : r.name ≠ Register.operation) (hr : r ∉ m.written l bits) :
    r.address ≠ l.operation ∧ ∀ s ∈ m.written l bits, s.address ≠ r.address := by
  refine ⟨l.address_ne_operation hmem hname, fun s hs haddress => hr ?_⟩
  have hregister : s ∈ m.catalog.registers := by
    have hs' := hs
    rw [written, List.mem_append, List.mem_append, List.mem_singleton] at hs'
    rcases hs' with (hfixed | hmarked) | rfl
    · exact l.mem_of_mem_fixed hfixed
    · exact Catalog.mem_of_mem_optional (Catalog.mem_optional_of_marked hmarked)
    · exact m.catalog.bitmap_mem
  rwa [← Catalog.eq_of_address_eq hregister hmem haddress]

/-- **The registers after a record was written back.** -/
theorem writtenBack_after_plan (hapart : l.Apart) (hoff : m.ReadOff l.forReading mem record bits)
    (hrecord : record.OfTag m.catalog) (h : Carried m.catalog record name values newBits)
    (hattached : mem.attached.contains m.device) :
    m.WrittenBack l record bits mem
      (bus.stateAfter (m.writePlan l record name values newBits) mem) := by
  obtain rfl : name = record.name.toList := h.longest.eq_of_fits hrecord.fits
  have hmarked := fun r => shown_marked_after_plan hapart hoff hrecord h hattached (r := r)
  have huntouched := get?_after_plan_of_untouched hoff hrecord h hattached
  exact {
    same := by
      intro r hmem width hwidth hname hflag
      simp only [List.mem_cons, List.not_mem_nil, or_false, not_or] at hname
      obtain ⟨hlength, hbitmap, hoperation⟩ := hname
      by_cases hr : r ∈ m.written l bits
      · rw [written, List.mem_append, List.mem_append, List.mem_singleton] at hr
        rcases hr with (hr | hr) | rfl
        · exact shown_fixed_after_plan hapart hoff h hattached hr hlength hwidth
        · have hshown := hmarked r hr
          rw [if_neg fun hbool => hflag ⟨hr, hbool⟩, Register.query, hwidth] at hshown
          exact hshown
        · exact absurd rfl hbitmap
      · rw [Memory.shown, Memory.shown,
          huntouched _ _ fun _ => address_ne_of_notMem_written hmem hoperation hr]
    nameLength := by
      rw [← Value.littleEndian_bytes_ofNat (Nat.lt_of_le_of_lt hrecord.fits (by decide))]
      exact congrArg littleEndian (shown_after_plan hapart h hattached
        (p := (⟨Register.filamentNameLen, l.nameLength, .int32⟩, (Value.int32 (Int32.ofNat
          (Text.Utf8.encode record.name.toList).length)).bytes))
        (mem_contents_of_fixed (by simp [fixedContents, Catalog.TagRegisters.fixed])))
    name := get?_after_plan hapart h hattached
      (p := (⟨Register.filamentName, l.name, .utf8String⟩, Text.Utf8.encode record.name.toList))
      (mem_contents_of_fixed (by simp [fixedContents, Catalog.TagRegisters.fixed]))
    cut := hoff.name
    bitmap := hoff.bitmap
    cleared := by
      rw [← hoff.bits_eq hrecord h, UInt8.ofNat_toNat]
      exact shown_after_plan hapart h hattached bitmap_mem_contents
    flags := by
      intro r hr hkind
      have hshown := hmarked r hr
      rw [if_pos hkind, Register.query, hkind] at hshown
      exact hshown
    operation := shown_operation_after_plan hapart h hattached
    unmarked := by
      intro i hi hbit
      obtain ⟨hmem, -, hname⟩ := Catalog.mem_optional.1 (List.getElem_mem hi)
      refine huntouched _ _ fun _ => address_ne_of_notMem_written hmem hname ?_
      rw [written, List.mem_append, List.mem_append, List.mem_singleton]
      rintro ((hr | hr) | hr)
      · exact hapart _ hr (List.getElem_mem hi)
      · rw [Catalog.getElem_mem_marked i hi, hbit] at hr
        cases hr
      · exact m.catalog.bitmap_notMem_optional (hr ▸ List.getElem_mem hi)
    untouched := huntouched }

end AfterPlan

/-- **A record that was read can be written back**, which changes no more than `WrittenBack` says, and
then the same record is read. -/
theorem unchanged_by_writing_back (l : m.catalog.TagRegisters) (hapart : l.Apart)
    (h : (m.readRecord.run.run bus mem).result = .ok record) :
    let rewriting := (m.writeRecord record).run.run bus (m.readRecord.run.run bus mem).state
    rewriting.result = .ok () ∧
      (m.readRecord.run.run bus rewriting.state).result = .ok record ∧
      ∃ bits, m.WrittenBack l record bits mem rewriting.state := by
  intro rewriting
  have hattached := attached_of_readRecord l.forReading h
  have hrecord : record.OfTag m.catalog := ofTag_of_readRecord l.forReading h
  obtain ⟨bits, hoff⟩ := readOff_of_readRecord l.forReading h
  obtain ⟨recent, hstate⟩ := m.still_readRecord.state_eq mem
  have hattached' : (m.readRecord.run.run bus mem).state.attached.contains m.device := by
    rw [hstate]
    exact hattached
  obtain ⟨name, values, newBits, hcarried, hwritten, hafter⟩ :=
    written_of_not_refused l hattached' hrecord.not_refuses
  refine ⟨hwritten, ?_, bits, ?_⟩
  · change (m.readRecord.run.run bus ((m.writeRecord record).run.run bus _).state).result = _
    rw [hafter, (shows_readRecord (holdsTag_after_plan hapart hcarried hattached')).result]
    exact congrArg Except.ok (hrecord.eq_of_keptAs (keptAs_of_carried hcarried))
  · change m.WrittenBack l record bits mem ((m.writeRecord record).run.run bus _).state
    rw [hafter, hstate]
    -- the transactions that are kept are not seen in the registers
    have hoff' : m.ReadOff l.forReading { mem with recent } record bits := { hoff with }
    exact { writtenBack_after_plan hapart hoff' hrecord hcarried hattached with }

/-- With a length that is too great, a number that is none, a byte other than one for true, and a bit for
which there is no register. -/
theorem unchanged_by_writing_back_unruly :
    let drying : Register := ⟨"drying", 0x0E, .bool⟩
    let m : Manager := ⟨0x42, ⟨Register.standard ++ [drying],
      ⟨0x08, Register.standard.drop 9 ++ [drying]⟩, by rfl⟩⟩
    let l : m.catalog.TagRegisters := ⟨0x02, 0x03, 0x04, 0x05, 0x06, 0x0F, by decide, by decide,
      by decide, by decide, by decide, by decide⟩
    let mem : Memory := { attached := [0x42], contents :=
      [((0x42, 0x02), [7]), ((0x42, 0x03), [0x00, 0x01, 0x00, 0x00]),
       ((0x42, 0x04), [0x50, 0x4C, 0x41]), ((0x42, 0x07), [0xC1, 0xFF]),
       ((0x42, 0x08), [0x01, 0x00, 0xC0, 0x7F]), ((0x42, 0x0E), [0x80])] }
    let record : Record := ⟨7, String.ofList (['P', 'L', 'A'] ++ List.replicate 29 (Char.ofNat 0)), 0, 0,
      (Fields.empty.insert "extr_multiplier" (.float32 ⟨0x7FC00001⟩)).insert "drying" (.bool true)⟩
    let rewriting := (m.writeRecord record).run.run bus (m.readRecord.run.run bus mem).state
    (m.readRecord.run.run bus mem).result = .ok record ∧ rewriting.result = .ok () ∧
      ∃ bits, m.WrittenBack l record bits mem rewriting.state := by
  intro drying m l mem record rewriting
  have hread : (m.readRecord.run.run bus mem).result = .ok record := by decide +kernel
  obtain ⟨hwritten, -, hback⟩ := unchanged_by_writing_back l (by decide) hread
  exact ⟨hread, hwritten, hback⟩

end Manager

end SpoolTag
