import SpoolTag.Proofs.Bus.Queries
import SpoolTag.Proofs.Catalog.Marks
import SpoolTag.Proofs.Manager.ReadBack

/-! # The protocol of a record read

What a record read asks for on a bus that answers as it likes. A string of up to 32 bytes is read by
a transaction of its own, whose count is told by the length register, and the optional registers to
read are told by the bitmap; so what is asked for depends on what was replied
(`TagReplies.inquiry`). The read goes on until a reply is bad and fails with what is wrong with it;
a record that it gives is the one that the replies spell (`TagReplies.Gives`). -/

namespace SpoolTag

/-! ### What replies tell -/

/-- What bytes spell in a register of a kind with a width, if they are as many. -/
def Kind.spelled (bytes : List UInt8) : Kind → Value
  | .byte => .byte (UInt8.ofNat (littleEndian bytes))
  | .int32 => .int32 (UInt32.ofNat (littleEndian bytes)).toInt32
  | .float32 => .float32 ⟨UInt32.ofNat (littleEndian bytes)⟩
  | .bool | .utf8String => .bool (littleEndian bytes != 0)

namespace Reply

def int32 (reply : Reply) : Int32 := (UInt32.ofNat (littleEndian reply.bytes)).toInt32

def byte (reply : Reply) : UInt8 := UInt8.ofNat (littleEndian reply.bytes)

def text (reply : Reply) : List Char := (Text.Utf8.decode reply.bytes).toOption.getD []

end Reply

namespace Register

variable {r : Register}

/-- The reply to a read of the register spells the value. -/
def Tells (r : Register) (reply : Reply) (v : Value) : Prop :=
  ∃ bytes, reply = .ok bytes ∧ r.decode bytes = .ok v

theorem Tells.eq {reply : Reply} {v w : Value} (hv : r.Tells reply v) (hw : r.Tells reply w) :
    v = w := by
  obtain ⟨bytes, rfl, hv⟩ := hv
  obtain ⟨bytes', hbytes, hw⟩ := hw
  cases hbytes
  rw [hv] at hw
  exact Except.ok.inj hw

theorem width?_eq_count (hr : r.kind ≠ .utf8String) : r.kind.width? = some r.query.count := by
  unfold query
  cases hkind : r.kind with
  | utf8String => exact absurd hkind hr
  | _ => rfl

/-- Bytes are decoded exactly if they are as many as the kind has. -/
theorem decode_eq (hr : r.kind ≠ .utf8String) (bytes : List UInt8) :
    r.decode bytes = if bytes.length ≠ r.query.count
      then .error (.malformedResponse r.name r.query.count bytes.length)
      else .ok (r.kind.spelled bytes) := by
  unfold decode
  rw [width?_eq_count hr]
  dsimp only
  split
  · rfl
  · cases hkind : r.kind with
    | utf8String => exact absurd hkind hr
    | _ => rfl

theorem fault?_query (hr : r.kind ≠ .utf8String) (device : UInt8) (bytes : List UInt8) :
    r.query.fault? device (.ok bytes) = if bytes.length ≠ r.query.count
      then some (.malformedResponse r.name r.query.count bytes.length) else none := by
  unfold Query.fault?
  dsimp only
  split
  · rfl
  · exact if_neg hr

/-- A good reply spells a value. -/
theorem tells_of_good {device : UInt8} {reply : Reply} (hr : r.kind ≠ .utf8String)
    (h : r.query.fault? device reply = none) : r.Tells reply (r.kind.spelled reply.bytes) := by
  obtain ⟨bytes, rfl, hlength⟩ := Query.length_of_good h
  refine ⟨bytes, rfl, ?_⟩
  rw [decode_eq hr, if_neg (not_not_intro hlength)]
  rfl

end Register

namespace Manager

open Attempt

variable {σ : Type} {m : Manager} {r : Register} (bus : Bus σ) (s : σ)

/-! ### Registers -/

theorem inquires_read (m : Manager) (hr : r.kind ≠ .utf8String) :
    ∃ reply later, Inquires bus m.device (m.read r) [(r.query, reply)] s
      (r.kind.spelled reply.bytes) later := by
  unfold read
  rw [Register.width?_eq_count hr]
  refine Inquires.transact (q := r.query) bus s (fun bytes => r.kind.spelled bytes) fun bytes => ?_
  have hdecode := Register.decode_eq hr bytes
  rw [Register.fault?_query hr]
  by_cases hlength : bytes.length ≠ r.query.count
  · rw [if_pos hlength] at hdecode ⊢
    rw [hdecode]
    exact goes_error_bind _ _ [] (r.kind.spelled bytes)
  · rw [if_neg hlength] at hdecode ⊢
    refine Carries.ends ((carries_ofExcept hdecode).bind ?_)
    exact (carries_report _).bind (.pure _)

theorem inquires_register (hmem : r ∈ m.catalog.registers) :
    Inquires bus m.device (m.register r.name) [] s r s :=
  Inquires.ofExcept (Catalog.lookup_of_mem hmem) s

theorem inquires_readAs {α : Type} {expected : Kind} (view : Value → Option α)
    (value : List UInt8 → α) (hmem : r ∈ m.catalog.registers) (hr : r.kind ≠ .utf8String)
    (hview : ∀ bytes, view (r.kind.spelled bytes) = some (value bytes)) :
    ∃ reply later, Inquires bus m.device (m.readAs r.name expected view) [(r.query, reply)] s
      (value (Reply.bytes reply)) later := by
  obtain ⟨reply, later, hread⟩ := inquires_read bus s m hr
  refine ⟨reply, later, (inquires_register bus s hmem).bind (hread.bind ?_)⟩
  rw [hview]
  exact Inquires.pure _ _

theorem inquires_readInt32 {name : String} {address : UInt8}
    (hmem : ⟨name, address, .int32⟩ ∈ m.catalog.registers) :
    ∃ reply later, Inquires bus m.device (m.readInt32 name)
      [(Register.query ⟨name, address, .int32⟩, reply)] s (Reply.int32 reply) later :=
  inquires_readAs (r := ⟨name, address, .int32⟩) bus s Value.int32?
    (fun bytes => Reply.int32 (.ok bytes)) hmem nofun fun _ => rfl

theorem inquires_readByte {name : String} {address : UInt8}
    (hmem : ⟨name, address, .byte⟩ ∈ m.catalog.registers) :
    ∃ reply later, Inquires bus m.device (m.readByte name)
      [(Register.query ⟨name, address, .byte⟩, reply)] s (Reply.byte reply) later :=
  inquires_readAs (r := ⟨name, address, .byte⟩) bus s Value.byte?
    (fun bytes => Reply.byte (.ok bytes)) hmem nofun fun _ => rfl

/-- The inquiry after a string of the given length, and what it is told: there is nothing to ask for
a length of zero or less. -/
def textInquiry (r : Register) (length : Int32) (reply : Reply) : Inquiry :=
  if length.toInt ≤ 0 then [] else [(⟨r, textCount length⟩, reply)]

def toldText (length : Int32) (reply : Reply) : List Char :=
  if length.toInt ≤ 0 then [] else reply.text

theorem textCount_eq_zero {length : Int32} : textCount length = 0 ↔ length.toInt ≤ 0 := by
  unfold textCount Register.maxStringBytes
  omega

/-- What a string read makes of the bytes that come. -/
def takeText (r : Register) (length : Int32) (bytes : List UInt8) : Attempt String :=
  if bytes.length ≠ textCount length then
    throw (.malformedResponse r.name (textCount length) bytes.length)
  else
    match Text.Utf8.decode bytes with
    | .error fault => throw (.badText r.name fault)
    | .ok text => do
      Attempt.report (.textRead r.name length (textCount length))
      pure (String.ofList text)

theorem ends_takeText (hr : r.kind = .utf8String) (device : UInt8) (length : Int32)
    (bytes : List UInt8) : Ends (takeText r length bytes) []
      ((Query.fault? device ⟨r, textCount length⟩ (.ok bytes)).elim
        (.ok (String.ofList (Reply.text (.ok bytes)))) .error) := by
  unfold takeText Query.fault?
  dsimp only
  by_cases hlength : bytes.length ≠ textCount length
  · rw [if_pos hlength, if_pos hlength]
    exact goes_error _ [] ""
  · rw [if_neg hlength, if_neg hlength, if_pos hr]
    change Ends _ _ (Option.elim _ (.ok (String.ofList
      ((Text.Utf8.decode bytes).toOption.getD []))) _)
    cases Text.Utf8.decode bytes with
    | error fault => exact goes_error _ [] ""
    | ok text => exact Carries.ends ((carries_report _).bind (.pure _))

theorem inquires_readText (m : Manager) (hr : r.kind = .utf8String) (length : Int32) :
    ∃ reply later, Inquires bus m.device (m.readText r length) (textInquiry r length reply) s
      (String.ofList (toldText length reply)) later := by
  have hneed : Inquires bus m.device (needText r) [] s () s := by
    unfold needText
    rw [if_pos hr]
    exact Inquires.pure _ _
  unfold readText textInquiry toldText
  dsimp only
  by_cases hlength : length.toInt ≤ 0
  · rw [if_pos (textCount_eq_zero.2 hlength)]
    refine ⟨.ok [], s, ?_⟩
    rw [if_pos hlength, if_pos hlength]
    exact hneed.bind ((Inquires.report _ s).bind (Inquires.pure "" s))
  · rw [if_neg (mt textCount_eq_zero.1 hlength)]
    obtain ⟨reply, later, hread⟩ := Inquires.transact bus s
      (fun bytes => String.ofList (Reply.text (.ok bytes)))
      (ends_takeText hr m.device length)
    refine ⟨reply, later, ?_⟩
    rw [if_neg hlength, if_neg hlength]
    exact hneed.bind hread

/-- The fields of registers that are read one after the other. -/
theorem inquires_readFields (m : Manager) {registers : List Register}
    (hdistinct : registers.Nodup) (hr : ∀ r ∈ registers, r.kind ≠ .utf8String) :
    ∀ (s : σ) (fields : Fields), ∃ (replies : Register → Reply) (later : σ),
      Inquires bus m.device (m.readFields fields registers)
        (registers.map fun r => (r.query, replies r)) s
        (fields.load (registers.map fun r => (r, r.kind.spelled (replies r).bytes))) later := by
  induction registers with
  | nil => exact fun s fields => ⟨fun _ => .ok [], s, Inquires.pure fields s⟩
  | cons r rest ih =>
    intro s fields
    obtain ⟨hnotMem, hrest⟩ := List.nodup_cons.1 hdistinct
    obtain ⟨reply, later, hread⟩ := inquires_read bus s m (hr r List.mem_cons_self)
    obtain ⟨replies, last, hfields⟩ := ih hrest (fun q hq => hr q (List.mem_cons_of_mem _ hq)) later
      (fields.insert r.name (r.kind.spelled reply.bytes))
    have hsame : ∀ q ∈ rest, Function.update replies r reply q = replies q := by
      intro q hq
      refine Function.update_of_ne ?_ _ _
      rintro rfl
      exact hnotMem hq
    refine ⟨Function.update replies r reply, last, ?_⟩
    rw [List.map_cons, List.map_cons, Function.update_self,
      List.map_congr_left fun q hq => congrArg (Prod.mk q.query) (hsame q hq),
      List.map_congr_left fun q hq => congrArg
        (fun reply => (q, q.kind.spelled (Reply.bytes reply))) (hsame q hq)]
    exact hread.bind hfields

end Manager

/-! ### Records -/

namespace Catalog

/-- The addresses of the registers that every record is read from beside the bitmap, in a catalog
that has them with the kinds they have on the device. -/
structure ReadRegisters (c : Catalog) where
  id : UInt8
  nameLength : UInt8
  name : UInt8
  spoolWeight : UInt8
  totalWeight : UInt8
  id_mem : ⟨Register.filamentId, id, .int32⟩ ∈ c.registers
  nameLength_mem : ⟨Register.filamentNameLen, nameLength, .int32⟩ ∈ c.registers
  name_mem : ⟨Register.filamentName, name, .utf8String⟩ ∈ c.registers
  spoolWeight_mem : ⟨Register.spoolWeight, spoolWeight, .int32⟩ ∈ c.registers
  totalWeight_mem : ⟨Register.totalWeight, totalWeight, .int32⟩ ∈ c.registers

/-- The operation register is not read. -/
def TagRegisters.forReading {c : Catalog} (l : TagRegisters c) : ReadRegisters c := { l with }

end Catalog

/-- The replies to a record read, as far as it comes to ask for them. -/
structure TagReplies where
  nameLength : Reply
  id : Reply
  name : Reply
  spoolWeight : Reply
  totalWeight : Reply
  bitmap : Reply
  optional : Register → Reply

namespace TagReplies

variable {c : Catalog} (t : TagReplies)

/-- The queries of a record read: the name length, the id, the name if it has any bytes, the two
weights, the bitmap, and then the registers it marks. -/
def inquiry (l : c.ReadRegisters) : Inquiry :=
  (Register.query ⟨Register.filamentNameLen, l.nameLength, .int32⟩, t.nameLength) ::
  (Register.query ⟨Register.filamentId, l.id, .int32⟩, t.id) ::
  (Manager.textInquiry ⟨Register.filamentName, l.name, .utf8String⟩ t.nameLength.int32 t.name ++
  (Register.query ⟨Register.spoolWeight, l.spoolWeight, .int32⟩, t.spoolWeight) ::
  (Register.query ⟨Register.totalWeight, l.totalWeight, .int32⟩, t.totalWeight) ::
  (c.bitmapRegister.query, t.bitmap) ::
  (c.marked t.bitmap.byte).map fun r => (r.query, t.optional r))

/-- The record that the replies spell: its name has the bytes that came, and its optional fields are
those of the marked registers, by their names. -/
structure Gives (l : c.ReadRegisters) (record : Record) : Prop where
  id : Register.Tells ⟨Register.filamentId, l.id, .int32⟩ t.id (.int32 record.id)
  name : if t.nameLength.int32.toInt ≤ 0 then record.name = ""
    else t.name = .ok (Text.Utf8.encode record.name.toList)
  spoolWeight : Register.Tells ⟨Register.spoolWeight, l.spoolWeight, .int32⟩ t.spoolWeight
    (.int32 record.spoolWeight)
  totalWeight : Register.Tells ⟨Register.totalWeight, l.totalWeight, .int32⟩ t.totalWeight
    (.int32 record.totalWeight)
  named : ∀ key, (∃ v, record.optional.get? key = some v) ↔
    ∃ r ∈ c.marked t.bitmap.byte, r.name = key
  optional : ∀ key v, record.optional.get? key = some v ↔
    ∃ r ∈ c.marked t.bitmap.byte, r.name = key ∧ r.Tells (t.optional r) v

/-- The record that good replies come to. -/
def record (c : Catalog) : Record where
  id := t.id.int32
  name := String.ofList (Manager.toldText t.nameLength.int32 t.name)
  spoolWeight := t.spoolWeight.int32
  totalWeight := t.totalWeight.int32
  optional := Fields.load .empty
    ((c.marked t.bitmap.byte).map fun r => (r, r.kind.spelled (t.optional r).bytes))

variable {t}

theorem name_mem_inquiry {l : c.ReadRegisters} (h : ¬ t.nameLength.int32.toInt ≤ 0) :
    (⟨⟨Register.filamentName, l.name, .utf8String⟩, Manager.textCount t.nameLength.int32⟩, t.name) ∈
      t.inquiry l := by
  simp [inquiry, Manager.textInquiry, if_neg h]

theorem optional_mem_inquiry {l : c.ReadRegisters} {r : Register}
    (hr : r ∈ c.marked t.bitmap.byte) : (r.query, t.optional r) ∈ t.inquiry l := by
  simp only [inquiry, List.mem_cons, List.mem_append]
  exact .inr (.inr (.inr (.inr (.inr (.inr (List.mem_map_of_mem hr))))))

theorem gives_record {l : c.ReadRegisters} {device : UInt8}
    (h : (t.inquiry l).fault? device = none) : t.Gives l (t.record c) := by
  have hgood := Inquiry.good_of_mem h
  have hint : ∀ {name : String} {address : UInt8} {reply : Reply},
      (Register.query ⟨name, address, .int32⟩, reply) ∈ t.inquiry l →
        Register.Tells ⟨name, address, .int32⟩ reply (.int32 reply.int32) :=
    fun hmem => Register.tells_of_good nofun (hgood _ hmem)
  have hmarked : ∀ r ∈ c.marked t.bitmap.byte,
      r.Tells (t.optional r) (r.kind.spelled (t.optional r).bytes) :=
    fun r hr => Register.tells_of_good
      (Catalog.width_of_mem_optional (Catalog.mem_optional_of_marked hr))
      (hgood _ (optional_mem_inquiry hr))
  have hnames : ((c.marked t.bitmap.byte).map fun r =>
      (r, r.kind.spelled (t.optional r).bytes)).Pairwise fun p q => p.1.name ≠ q.1.name :=
    List.pairwise_map.2 (Catalog.pairwise_name_ne
      (fun r hr => Catalog.mem_of_mem_optional (Catalog.mem_optional_of_marked hr))
      (Catalog.nodup_of_ascending (c.ascending_marked _)))
  have hfields : ∀ key v, (t.record c).optional.get? key = some v ↔
      ∃ r ∈ c.marked t.bitmap.byte, r.name = key ∧ r.kind.spelled (t.optional r).bytes = v := by
    intro key v
    refine (Fields.get?_load (Fields.get?_empty key) hnames).trans ?_
    constructor
    · rintro ⟨p, hp, hkey, hv⟩
      obtain ⟨r, hr, rfl⟩ := List.mem_map.1 hp
      exact ⟨r, hr, hkey, hv⟩
    · rintro ⟨r, hr, hkey, hv⟩
      exact ⟨_, List.mem_map_of_mem hr, hkey, hv⟩
  exact {
    id := hint (by simp [inquiry])
    name := by
      split
      · next hlength => simp only [record, Manager.toldText, if_pos hlength, String.ofList_nil]
      · next hlength =>
        obtain ⟨text, htext⟩ := Query.text_of_good (hgood _ (name_mem_inquiry hlength)) rfl
        simp only [record, Manager.toldText, if_neg hlength, String.toList_ofList, Reply.text]
        dsimp only at htext
        rw [htext]
        change _ = Except.ok (Text.Utf8.encode
          ((Text.Utf8.decode (Text.Utf8.encode text)).toOption.getD []))
        rw [Text.Utf8.decode_encode]
        rfl
    spoolWeight := hint (by simp [inquiry])
    totalWeight := hint (by simp [inquiry])
    named := fun key => by
      constructor
      · rintro ⟨v, hv⟩
        obtain ⟨r, hr, hkey, -⟩ := (hfields key v).1 hv
        exact ⟨r, hr, hkey⟩
      · rintro ⟨r, hr, hkey⟩
        exact ⟨_, (hfields key _).2 ⟨r, hr, hkey, rfl⟩⟩
    optional := fun key v => by
      refine (hfields key v).trans (exists_congr fun r => and_congr_right fun hr =>
        and_congr_right fun _ => ?_)
      constructor
      · rintro rfl
        exact hmarked r hr
      · exact (hmarked r hr).eq }

end TagReplies

namespace Manager

theorem inquires_readRecord {σ : Type} (bus : Bus σ) (s : σ) (m : Manager)
    (l : m.catalog.ReadRegisters) : ∃ (t : TagReplies) (later : σ),
      Inquires bus m.device m.readRecord (t.inquiry l) s (t.record m.catalog) later := by
  obtain ⟨nameLength, s₁, hlength⟩ := inquires_readInt32 bus s l.nameLength_mem
  obtain ⟨id, s₂, hid⟩ := inquires_readInt32 bus s₁ l.id_mem
  have hregister := inquires_register bus s₂ l.name_mem
  obtain ⟨name, s₃, hname⟩ := inquires_readText bus s₂ m
    (r := ⟨Register.filamentName, l.name, .utf8String⟩) rfl nameLength.int32
  obtain ⟨spoolWeight, s₄, hspool⟩ := inquires_readInt32 bus s₃ l.spoolWeight_mem
  obtain ⟨totalWeight, s₅, htotal⟩ := inquires_readInt32 bus s₄ l.totalWeight_mem
  obtain ⟨bitmap, s₆, hbitmap⟩ := inquires_readByte bus s₅ m.catalog.bitmap_mem
  have hmarked : ∀ r ∈ m.catalog.marked bitmap.byte, r.kind ≠ .utf8String := fun r hr =>
    Catalog.width_of_mem_optional (Catalog.mem_optional_of_marked hr)
  obtain ⟨optional, s₇, hfields⟩ := inquires_readFields bus m
    (Catalog.nodup_of_ascending (m.catalog.ascending_marked bitmap.byte)) hmarked s₆ .empty
  refine ⟨⟨nameLength, id, name, spoolWeight, totalWeight, bitmap, optional⟩, s₇, ?_⟩
  have hrest := hfields.bind (f := fun optional => Pure.pure (⟨id.int32,
    String.ofList (toldText nameLength.int32 name), spoolWeight.int32, totalWeight.int32,
    optional⟩ : Record)) (Inquires.pure _ s₇)
  rw [List.append_nil] at hrest
  unfold readRecord
  simp only [Catalog.presentIn_eq_marked]
  exact hlength.bind (hid.bind (hregister.bind (hname.bind (hspool.bind (htotal.bind
    (hbitmap.bind ((Inquires.report _ s₆).bind hrest)))))))

/-- **The protocol of a record read**, on every bus and from every state of it. -/
theorem readRecord_protocol {σ : Type} (bus : Bus σ) (s : σ) (m : Manager)
    (l : m.catalog.ReadRegisters) :
    let run := m.readRecord.run.run bus s
    ∃ t : TagReplies,
      run.exchanges = (t.inquiry l).exchanges m.device ∧
      (∀ e ∈ run.exchanges, ∃ address count, e.1 = .read m.device address count) ∧
      (m.catalog.marked t.bitmap.byte).Pairwise (fun r s => r.address < s.address) ∧
      (∀ bits : UInt8, (∀ i < m.catalog.optional.length,
        bits.toNat.testBit i = t.bitmap.byte.toNat.testBit i) →
          m.catalog.marked bits = m.catalog.marked t.bitmap.byte) ∧
      (∀ e, (t.inquiry l).fault? m.device = some e → run.result = .error e) ∧
      ((t.inquiry l).fault? m.device = none →
        ∃ record, run.result = .ok record ∧ t.Gives l record) := by
  intro run
  obtain ⟨t, later, hread⟩ := inquires_readRecord bus s m l
  refine ⟨t, hread.exchanges, fun e he => ?_, Catalog.ascending_marked _,
    fun bits => Catalog.marked_congr, fun e he => ?_, fun hgood => ⟨t.record m.catalog, ?_,
      TagReplies.gives_record hgood⟩⟩
  · exact Inquiry.request_mem_exchanges e (hread.exchanges ▸ he)
  · refine hread.result.trans ?_
    rw [he]
    rfl
  · refine hread.result.trans ?_
    rw [hgood]
    rfl

/-- On the device, with a length below zero and every bit of the bitmap set. -/
theorem readRecord_protocol_standard :
    let m : Manager := ⟨0x42, .standard⟩
    let l : m.catalog.ReadRegisters := Catalog.TagRegisters.standard.forReading
    let mem : Memory := { attached := [0x42], contents :=
      [((0x42, 0x03), [0xFB, 0xFF, 0xFF, 0xFF]), ((0x42, 0x07), [0xFF])] }
    let run := m.readRecord.run.run Memory.bus mem
    ∃ t : TagReplies, run.exchanges = (t.inquiry l).exchanges m.device ∧
      (t.inquiry l).fault? m.device = none ∧
      ∃ record, run.result = .ok record ∧ t.Gives l record := by
  intro m l mem run
  obtain ⟨t, hexchanges, -, -, -, hbad, hgood⟩ := readRecord_protocol Memory.bus mem m l
  have hok : run.result.isOk := by decide
  have hnone : (t.inquiry l).fault? m.device = none := by
    cases hfault : (t.inquiry l).fault? m.device with
    | none => rfl
    | some e =>
      rw [show run.result = .error e from hbad e hfault] at hok
      cases hok
  exact ⟨t, hexchanges, hnone, hgood hnone⟩

end Manager

end SpoolTag
