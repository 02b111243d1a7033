import SpoolTag.Proofs.Daemon.Answering
import SpoolTag.Proofs.Record.Extent

/-! # Posting what was got

What the daemon answers to a request for the record can be posted to it as it is: the body is taken
as a record, the device takes the record, and the next answer shows the record again
(`Daemon.got_after_posting`). Only numbers that are not finite are lost on this way: they are
shown as null, which is no value for a field. -/

namespace SpoolTag

open SpoolTag.Json

/-! ### The record in the body -/

/-- A record that was read from a tag of the device is read from its document. -/
theorem Record.OfTag.apart {record : Record} (h : record.OfTag .standard) : record.Apart := by
  intro field
  cases hv : record.optional.get? field.key with
  | none => rfl
  | some v =>
    obtain ⟨r, hr, hname, -⟩ := h.optional _ v hv
    have hnames : ∀ r ∈ Catalog.standard.optional, r.name ≠ field.key := by
      cases field <;> decide
    exact absurd hname (hnames r hr)

/-- The request posts a text as a record. -/
structure Http.Request.Posts (r : Http.Request) (text : String) : Prop where
  path : Route.ofPath? r.path = some .write
  method : r.method = "POST"
  hasJson : r.hasJson = true
  body : r.body = Text.Utf8.encode text.toList

/-- The request asks for the record. -/
structure Http.Request.Gets (r : Http.Request) : Prop where
  path : Route.ofPath? r.path = some .read
  method : r.method = "GET"

theorem Http.Request.Posts.record_eq {r : Http.Request} {record : Record}
    (h : r.Posts (String.ofList record.document.text)) (hrecord : record.OfTag .standard) :
    r.record = .ok record.kept := by
  have hbody : r.body = Text.Utf8.encode record.document.text := by
    rw [h.body, String.toList_ofList]
  have hlength : ¬ maxBody < r.body.length := by
    have htext := hrecord.length_text_le (by decide)
    have hbytes := Text.Utf8.length_encode_le record.document.text
    have hmax : maxBody = 2097152 := rfl
    rw [hbody]
    omega
  unfold Http.Request.record
  rw [if_neg (not_not_intro h.hasJson), if_neg hlength, hbody,
    Record.ofBytes_document hrecord.apart]
  rfl

/-! ### Requests and answers -/

theorem TagError.httpStatus_ne_ok (e : TagError) : e.httpStatus ≠ 200 := by
  unfold httpStatus
  split <;> decide

namespace Daemon

/-- A request for the record. -/
def getting : Http.Request where
  method := "GET"
  uri := Route.read.path

theorem gets_getting : getting.Gets := ⟨by decide, rfl⟩

theorem posts_posting (text : String) : (posting text.toList).Posts text where
  path := show Route.ofPath? (posting []).path = some .write by decide
  method := rfl
  hasJson := show (posting []).hasJson = true by decide
  body := rfl

/-- The answer to what came of reading the record. -/
def presented : Except TagError Record → Http.Response
  | .ok record => .document 200 record.document
  | .error e => .failure e.httpStatus e.message

theorem record_of_presented {result : Except TagError Record} (h : (presented result).status = 200) :
    ∃ record, result = .ok record := by
  cases result with
  | ok record => exact ⟨record, rfl⟩
  | error e => exact absurd h e.httpStatus_ne_ok

/-- A request for the record reads it, and the answer presents what came of that. -/
theorem handle_read {σ : Type} {d : Daemon σ} {r : Http.Request} {w : World σ} (time : String)
    (h : r.Gets) :
    let run := d.manager.readRecord.run.run d.bus w.bus
    (d.handle time r w).1 = presented run.result ∧ (d.handle time r w).2.bus = run.state := by
  intro run
  unfold handle
  rw [h.path, h.method]
  change (answer Record.document run.result _).1 = _ ∧ (answer Record.document run.result _).2.bus = _
  cases run.result <;> exact ⟨rfl, rfl⟩

theorem handle_posted {σ : Type} {d : Daemon σ} {r : Http.Request} {w : World σ} {record : Record}
    (time : String) (h : r.Posts (String.ofList record.document.text))
    (hrecord : record.OfTag .standard) :
    let run := (d.manager.writeRecord record.kept).run.run d.bus w.bus
    (d.handle time r w).1 = told run.result ∧ (d.handle time r w).2.bus = run.state := by
  rw [handle_write time h.path h.method]
  exact handleWrite_of_record (h.record_eq hrecord)

/-! ### There and back -/

/-- **What is got can be posted.** Whatever the registers of the device hold, if a request for the
record is answered with it, a post of that answer is answered as a write that was carried out, and
the next request is answered with the record without its numbers that are not finite: with the same
text exactly if it has none. -/
theorem got_after_posting (device : UInt8) (time time' time'' : String)
    {get post again : Http.Request} (w : World Memory) :
    let m : Manager := ⟨device, .standard⟩
    let d : Daemon Memory := ⟨Memory.bus, m⟩
    let shown := d.handle time get w
    let posted := d.handle time' post shown.2
    let back := d.handle time'' again posted.2
    get.Gets → shown.1.status = 200 → post.Posts shown.1.body → again.Gets →
      posted.1 = written ∧
      ∃ record, (m.readRecord.run.run Memory.bus w.bus).result = .ok record ∧
        shown.1 = .document 200 record.document ∧
        back.1 = .document 200 record.finite.document ∧
        (back.1.body = shown.1.body ↔
          ∀ key x, record.optional.get? key = some (.float32 x) → x.isFinite = true) := by
  intro m d shown posted back hget hok hpost hagain
  obtain ⟨hshown, hbus⟩ := handle_read (d := d) (w := w) time hget
  change shown.1 = _ at hshown
  change shown.2.bus = _ at hbus
  rw [hshown] at hok
  obtain ⟨record, hrecord⟩ := record_of_presented hok
  rw [hrecord] at hshown
  have hofTag : record.OfTag .standard :=
    Manager.ofTag_of_readRecord (m := m) Catalog.TagRegisters.standard.forReading hrecord
  have hapart : Catalog.TagRegisters.standard.Apart := by decide
  have hrewriting := Manager.read_after_rewriting (m := m) .standard hapart hrecord
  rw [hshown] at hpost
  obtain ⟨hposted, hbus'⟩ := handle_posted (d := d) (w := shown.2) time' hpost hofTag
  obtain ⟨hback, -⟩ := handle_read (d := d) (w := posted.2) time'' hagain
  change posted.1 = _ at hposted
  change posted.2.bus = _ at hbus'
  change back.1 = _ at hback
  rw [hbus] at hposted hbus'
  rw [hbus', hrewriting.2] at hback
  rw [hrewriting.1] at hposted
  refine ⟨hposted, record, hrecord, hshown, hback, ?_⟩
  rw [hback, hshown, ← Record.text_finite_iff]
  exact String.ofList_inj

/-- A tag with the least positive number and the greatest one, a name that has to be escaped, and a
length that asks for more bytes than the name may have. -/
def extremes : Memory where
  attached := [0x42]
  contents := [((0x42, 0x02), [0x00, 0x00, 0x00, 0x80]), ((0x42, 0x03), [0xFF, 0xFF, 0xFF, 0x7F]),
    ((0x42, 0x04), [0x22, 0xC3, 0xBC, 0x0A]), ((0x42, 0x07), [0xC7]),
    ((0x42, 0x08), [0x01, 0x00, 0x00, 0x00]), ((0x42, 0x09), [0xFF, 0xFF, 0x7F, 0xFF]),
    ((0x42, 0x0A), [0xFF, 0xFF, 0xFF, 0xFF])]

theorem got_after_posting_extremes :
    let d : Daemon Memory := ⟨Memory.bus, ⟨0x42, .standard⟩⟩
    let shown := d.handle "12:00" getting ⟨extremes, {}, []⟩
    let posted := d.handle "12:01" (posting shown.1.body.toList) shown.2
    let back := d.handle "12:02" getting posted.2
    shown.1.status = 200 ∧ posted.1 = written ∧ back.1.body = shown.1.body := by
  have hok : (handle ⟨Memory.bus, ⟨0x42, .standard⟩⟩ "12:00" getting
      ⟨extremes, {}, []⟩).1.status = 200 := by decide +kernel
  obtain ⟨hposted, record, hrecord, -, -, hsame⟩ := got_after_posting 0x42 "12:00" "12:01" "12:02"
    ⟨extremes, {}, []⟩ gets_getting hok (posts_posting _) gets_getting
  have hall : ((Manager.readRecord ⟨0x42, .standard⟩).run.run Memory.bus
      extremes).result.toOption.any (fun record =>
        record.optional.entries.all fun entry => entry.2.isFinite) = true := by decide +kernel
  rw [hrecord] at hall
  refine ⟨hok, hposted, hsame.2 fun key x hx => ?_⟩
  exact List.all_eq_true.1 hall (key, .float32 x) (Entries.mem_of_get? hx)

/-- A tag with a register that holds no number. -/
def tainted : Memory where
  attached := [0x42]
  contents := [((0x42, 0x02), [0x07, 0x00, 0x00, 0x00]), ((0x42, 0x07), [0x02]),
    ((0x42, 0x09), [0x00, 0x00, 0xC0, 0x7F])]

/-- What is no number is shown, taken back without complaint and not shown again. -/
theorem lost_after_posting :
    let d : Daemon Memory := ⟨Memory.bus, ⟨0x42, .standard⟩⟩
    let shown := d.handle "12:00" getting ⟨tainted, {}, []⟩
    let posted := d.handle "12:01" (posting shown.1.body.toList) shown.2
    let back := d.handle "12:02" getting posted.2
    shown.1.status = 200 ∧ posted.1 = written ∧ back.1.status = 200 ∧
      shown.1.body = "\x7b\"id\":7,\"name\":\"\",\"spool_weight\":0,\"total_weight\":0," ++
        "\"pressure_advance\":null\x7d" ∧
      back.1.body = "\x7b\"id\":7,\"name\":\"\",\"spool_weight\":0,\"total_weight\":0\x7d" := by
  decide +kernel

end Daemon

end SpoolTag
