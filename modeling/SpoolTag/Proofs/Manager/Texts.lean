import SpoolTag.Proofs.Manager.ReadBack
import SpoolTag.Proofs.Manager.WritePlan
import SpoolTag.Proofs.Text.Cutting

/-! # Texts and their lengths

A text goes to two registers, first the number of its bytes and then the bytes. What is sent of it is
told by `SentAs`: the longest part that one transaction carries without splitting a character. The
number and the bytes are of the same part (`text_and_length_in_step`), so a read that is told this
number shows the part again; and when the part fills a transaction, so does a read that is told a
greater number, since reads are cut to the same limit (`textCount_of_enough`). -/

namespace SpoolTag

open Memory

namespace Manager

open Attempt

/-! ### Lengths -/

/-- Whole numbers and bytes hold the length of everything that one transaction carries. -/
theorem exists_length {n : Nat} {kind : Kind} (hn : n ≤ Register.maxStringBytes)
    (hkind : kind = .int32 ∨ kind = .byte) :
    ∃ v, (Value.int32 (Int32.ofNat n)).coerce? kind = some v ∧ littleEndian v.bytes = n := by
  have hle : n ≤ 32 := hn
  rcases hkind with rfl | rfl
  · exact ⟨.int32 (Int32.ofNat n), rfl,
      Value.littleEndian_bytes_ofNat (Nat.lt_of_le_of_lt hle (by decide))⟩
  · have hint : (Int32.ofNat n).toInt = n := Int32.toInt_ofNat_of_lt (by omega)
    refine ⟨.byte (UInt8.ofNat n), ?_, ?_⟩
    · change (if 0 ≤ (Int32.ofNat n).toInt ∧ (Int32.ofNat n).toInt < 256 then
        some (Value.byte (UInt8.ofNat (Int32.ofNat n).toInt.toNat)) else none) = _
      rw [hint, if_pos (by omega), Int.toNat_natCast]
    · change (UInt8.ofNat n).toNat + 256 * 0 = n
      rw [UInt8.toNat_ofNat']
      omega

/-- A read asks for all bytes of a text that is told their number, or, if these are as many as one
transaction carries, any greater number. -/
theorem textCount_of_enough {n : Nat} {length : Int32} (hn : n ≤ Register.maxStringBytes)
    (h : length.toInt = n ∨ n = Register.maxStringBytes ∧ (n : Int) ≤ length.toInt) :
    textCount length = n := by
  unfold textCount
  unfold Register.maxStringBytes at hn h ⊢
  omega

/-! ### Texts -/

/-- What is sent of a text: the longest part from its start that ends with a character and is not longer
than one transaction carries, which is what going back from that many bytes to a boundary leaves. A text
that fits is sent as it is, and one that does not is cut by at most three bytes more than needed. -/
structure SentAs (text sent : String) : Prop where
  start : sent.toList <+: text.toList
  cut : Text.Utf8.CutsTo Register.maxStringBytes (Text.Utf8.encode text.toList)
    (Text.Utf8.encode sent.toList)
  truncated : Text.Utf8.encode sent.toList =
    Text.Utf8.truncate Register.maxStringBytes (Text.Utf8.encode text.toList)
  whole : (Text.Utf8.encode text.toList).length ≤ Register.maxStringBytes → sent = text
  near : Register.maxStringBytes < (Text.Utf8.encode text.toList).length →
    Register.maxStringBytes ≤ (Text.Utf8.encode sent.toList).length + 3
  wellFormed : Text.Utf8.decode (Text.Utf8.encode sent.toList) = .ok sent.toList

theorem sentAs_carried (text : String) : SentAs text (String.ofList (carried text)) := by
  have hlongest : Text.Utf8.IsLongest Register.maxStringBytes text.toList (carried text) :=
    Text.Utf8.fitting_isLongest _ _
  constructor
  case whole =>
    intro hfits
    rw [← String.toList_inj, String.toList_ofList]
    exact hlongest.eq_of_fits hfits
  all_goals rw [String.toList_ofList]
  case start => exact hlongest.start
  case cut => exact hlongest.cutsTo
  case truncated => exact hlongest.encode_eq_truncate
  case near =>
    intro hlong
    have hnear := hlongest.near hlong
    omega
  case wellFormed => exact Text.Utf8.decode_encode _

/-! ### Writing -/

/-- Nothing is sent after a first transaction that fails. -/
theorem exchanges_of_first_failed {ε α : Type} {a : α} {p : Planned ε} {plan : List (Planned ε)}
    {exchanges : List (Request × Reply)} {outcome : Except ε α} {cause : BusError}
    (h : Follows a (p :: plan) exchanges outcome) (hother : p.request ∉ plan.map Planned.request)
    (hmem : (p.request, .error cause) ∈ exchanges) : exchanges = [(p.request, .error cause)] := by
  cases h with
  | failed cause' =>
    obtain ⟨-, heq⟩ := Prod.mk.inj (List.mem_singleton.1 hmem)
    rw [Except.error.inj heq]
  | acknowledged bytes h =>
    rcases List.mem_cons.1 hmem with heq | hlater
    · cases heq
    · exact absurd (h.request_mem _ hlater) hother

variable {m : Manager} {r lengthRegister : Register}

/-- After a length and the bytes of a text were written to different registers, reads show the text. -/
theorem shows_text_after {mem : Memory} {sent : List Char} {lengthBytes : List UInt8}
    (hattached : mem.attached.contains m.device) (hr : r.kind = .utf8String)
    (hother : lengthRegister.address ≠ r.address) {length : Int32}
    (hcount : textCount length = (Text.Utf8.encode sent).length) :
    Shows (bus.stateAfter (writes m.device
        [(lengthRegister.address, lengthBytes), (r.address, Text.Utf8.encode sent)]) mem)
      (m.readText r length) (.ok (String.ofList sent)) := by
  refine shows_readText (by rw [attached_after]; exact hattached) hr hcount ?_
  refine get?_after_of_mem hattached ?_ (List.mem_cons_of_mem _ List.mem_cons_self)
  simpa using hother

/-- Registers in memory take a text, and then show what was sent of it. -/
theorem text_shown_after_writeText (text : String) {v : Value} {mem : Memory}
    (hattached : mem.attached.contains m.device) (hr : r.kind = .utf8String)
    (hlength : (Value.int32 (Int32.ofNat (Text.Utf8.encode (carried text)).length)).coerce?
      lengthRegister.kind = some v) (hother : lengthRegister.address ≠ r.address) :
    let run := (m.writeText r text lengthRegister).run.run bus mem
    run.result = .ok (Text.Utf8.encode (carried text)).length ∧
      ∀ length, textCount length = (Text.Utf8.encode (carried text)).length →
        ((m.readText r length).run.run bus run.state).result =
          .ok (String.ofList (carried text)) := by
  intro run
  have hcarries := carries_writeText (m := m) r lengthRegister text hr hlength
  have hplan : [planned (m.put lengthRegister.address v),
      planned (.write m.device r.address (Text.Utf8.encode (carried text)))].map Planned.request =
        writes m.device
          [(lengthRegister.address, v.bytes), (r.address, Text.Utf8.encode (carried text))] := rfl
  obtain ⟨hresult, hstate⟩ := run_of_carries_writes hcarries hplan hattached
  refine ⟨hresult, fun length hcount => ?_⟩
  rw [hstate]
  exact (shows_text_after hattached hr hother hcount).result

/-- **Text and length go in step.** On every bus the length comes first and then the bytes, which are
not sent if the length was not acknowledged; both are of the part of the text that is sent, and the
result is its number of bytes. With registers in memory this part is what a read shows that is told this
number, or, when the part fills a transaction, any greater number. -/
theorem text_and_length_in_step (m : Manager) (r lengthRegister : Register) (text : String)
    (hr : r.kind = .utf8String)
    (hlength : lengthRegister.kind = .int32 ∨ lengthRegister.kind = .byte)
    (hother : lengthRegister.address ≠ r.address) :
    ∃ (sent : String) (lengthBytes : List UInt8),
      let bytes := Text.Utf8.encode sent.toList
      let first : Request := .write m.device lengthRegister.address lengthBytes
      let second : Request := .write m.device r.address bytes
      SentAs text sent ∧
      lengthRegister.kind.width? = some lengthBytes.length ∧
      littleEndian lengthBytes = bytes.length ∧
      (∀ {σ : Type} (bus : Bus σ) (s : σ),
        let run := (m.writeText r text lengthRegister).run.run bus s
        Follows bytes.length [planned first, planned second] run.exchanges run.result ∧
          ∀ cause, (first, .error cause) ∈ run.exchanges →
            run.exchanges = [(first, .error cause)]) ∧
      ∀ mem : Memory, mem.attached.contains m.device →
        let run := (m.writeText r text lengthRegister).run.run Memory.bus mem
        run.result = .ok bytes.length ∧
          ∀ length : Int32,
            length.toInt = bytes.length ∨
                bytes.length = Register.maxStringBytes ∧ (bytes.length : Int) ≤ length.toInt →
              ((m.readText r length).run.run Memory.bus run.state).result = .ok sent := by
  have hsent := sentAs_carried text
  have hfits := hsent.cut.fits
  rw [String.toList_ofList] at hfits
  obtain ⟨v, hv, hvalue⟩ := exists_length hfits hlength
  have hkind : v.kind = lengthRegister.kind := Value.kind_of_coerce? hv
  refine ⟨String.ofList (carried text), v.bytes, hsent, hkind ▸ v.width_kind, ?_⟩
  rw [String.toList_ofList]
  refine ⟨hvalue, fun {σ} bus s => ?_, fun mem hattached => ?_⟩
  · have hfollows := carries_writeText (m := m) r lengthRegister text hr hv σ bus s
    refine ⟨hfollows, fun cause hmem => exchanges_of_first_failed hfollows ?_ hmem⟩
    rw [List.map_singleton, List.mem_singleton]
    exact fun hsame => hother (Request.write.inj hsame).2.1
  · obtain ⟨hresult, hread⟩ := text_shown_after_writeText text hattached hr hv hother
    exact ⟨hresult, fun length henough => hread length (textCount_of_enough hfits henough)⟩

/-- A name with a character across the limit, and a byte for its length. -/
theorem text_and_length_in_step_across :
    let m : Manager := ⟨0x42, .standard⟩
    let name : Register := ⟨Register.filamentName, 0x04, .utf8String⟩
    let length : Register := ⟨"length", 0x05, .byte⟩
    let text := "Polymaker PolyTerra PLA dunkelgrün"
    ∃ sent, SentAs text sent ∧
      let run := (m.writeText name text length).run.run Memory.bus { attached := [0x42] }
      run.result = .ok (Text.Utf8.encode sent.toList).length ∧
        ((m.readText name (Int32.ofNat (Text.Utf8.encode sent.toList).length)).run.run Memory.bus
          run.state).result = .ok sent := by
  intro m name length text
  obtain ⟨sent, lengthBytes, hsent, -, -, -, hmemory⟩ :=
    text_and_length_in_step m name length text rfl (.inr rfl) (by decide)
  obtain ⟨hresult, hread⟩ := hmemory { attached := [0x42] } (by decide)
  have hfits : (Text.Utf8.encode sent.toList).length ≤ 32 := hsent.cut.fits
  exact ⟨sent, hsent, hresult, hread _ (.inl (Int32.toInt_ofNat_of_lt (by omega)))⟩

end Manager

end SpoolTag
