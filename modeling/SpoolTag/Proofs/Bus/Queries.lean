import SpoolTag.Proofs.Bus.Memory
import SpoolTag.Proofs.Text.Utf8

/-! # Queries and their replies

An attempt that only reads is told by an inquiry: the queries it makes in turn, each with the reply
it gets. It goes through the inquiry up to and including the first bad reply (`Inquiry.exchanges`),
and what is wrong with that one is what it fails with (`Inquiry.fault?`). The replies after a bad
one are never asked for and may be anything.

`Inquires` says that an attempt does so on a bus. The inquiries of the parts of an attempt add up
(`Inquires.bind`), and a later part may depend on what an earlier one has found. With registers in
memory the replies are what these show (`Inquires.reply_eq`). -/

namespace SpoolTag

/-- The bytes of a reply; a failure has none. -/
def Reply.bytes (reply : Reply) : List UInt8 := reply.toOption.getD []

/-! ### Inquiries -/

/-- A read of so many bytes of a register. -/
structure Query where
  register : Register
  count : Nat
  deriving DecidableEq, Repr

/-- A read of a register of fixed width. -/
def Register.query (r : Register) : Query := ⟨r, r.kind.width?.getD 0⟩

namespace Query

def request (device : UInt8) (q : Query) : Request := .read device q.register.address q.count

/-- What is wrong with a reply: the read failed, or gave another number of bytes than was asked for,
or the bytes of a string register are not those of a text. -/
def fault? (device : UInt8) (q : Query) : Reply → Option TagError
  | .error cause => some (.deviceUnavailable device cause)
  | .ok bytes =>
    if bytes.length ≠ q.count then some (.malformedResponse q.register.name q.count bytes.length)
    else if q.register.kind = .utf8String then
      match Text.Utf8.decode bytes with
      | .error fault => some (.badText q.register.name fault)
      | .ok _ => none
    else none

variable {device : UInt8} {q : Query} {reply : Reply}

/-- A good reply has the bytes that were asked for. -/
theorem length_of_good (h : q.fault? device reply = none) :
    ∃ bytes, reply = .ok bytes ∧ bytes.length = q.count := by
  cases reply with
  | error cause => cases h
  | ok bytes =>
    unfold fault? at h
    dsimp only at h
    by_cases hlength : bytes.length = q.count
    · exact ⟨bytes, rfl, hlength⟩
    · rw [if_pos hlength] at h
      cases h

/-- A good reply of a string register has the bytes of a text. -/
theorem text_of_good (h : q.fault? device reply = none) (hkind : q.register.kind = .utf8String) :
    ∃ text, reply = .ok (Text.Utf8.encode text) := by
  obtain ⟨bytes, rfl, hlength⟩ := length_of_good h
  unfold fault? at h
  dsimp only at h
  rw [if_neg (not_not_intro hlength), if_pos hkind] at h
  cases hdecode : Text.Utf8.decode bytes with
  | error fault =>
    rw [hdecode] at h
    cases h
  | ok text => exact ⟨text, congrArg Except.ok (Text.Utf8.decode_eq_ok_iff.1 hdecode).symm⟩

end Query

/-- Queries, each with the reply to it. -/
abbrev Inquiry := List (Query × Reply)

namespace Inquiry

/-- The transactions up to and including the first with a bad reply. -/
def exchanges (device : UInt8) : Inquiry → List (Request × Reply)
  | [] => []
  | (q, reply) :: rest =>
    (q.request device, reply) ::
      if (q.fault? device reply).isSome then [] else exchanges device rest

/-- What is wrong with the first bad reply, if there is one. -/
def fault? (device : UInt8) : Inquiry → Option TagError
  | [] => none
  | (q, reply) :: rest => (q.fault? device reply).or (fault? device rest)

variable {device : UInt8} {inquiry : Inquiry}

/-- Only reads of the device are asked for. -/
theorem request_mem_exchanges : ∀ e ∈ inquiry.exchanges device,
    ∃ address count, e.1 = .read device address count := by
  induction inquiry with
  | nil => intro e he; cases he
  | cons x rest ih =>
    intro e he
    rcases List.mem_cons.1 he with rfl | he
    · exact ⟨_, _, rfl⟩
    · split at he
      · cases he
      · exact ih e he

theorem fault?_append (more : Inquiry) :
    Inquiry.fault? device (inquiry ++ more) = (inquiry.fault? device).or (more.fault? device) := by
  induction inquiry with
  | nil => rfl
  | cons x rest ih =>
    change (x.1.fault? device x.2).or (Inquiry.fault? device (rest ++ more)) = _
    rw [ih, ← Option.or_assoc]
    rfl

theorem exchanges_append_of_good (h : inquiry.fault? device = none) (more : Inquiry) :
    Inquiry.exchanges device (inquiry ++ more) =
      inquiry.exchanges device ++ more.exchanges device := by
  induction inquiry with
  | nil => rfl
  | cons x rest ih =>
    obtain ⟨hx, hrest⟩ := Option.or_eq_none_iff.1 h
    change _ :: (if (x.1.fault? device x.2).isSome then []
      else Inquiry.exchanges device (rest ++ more)) = _ :: (if _ then [] else _) ++ _
    rw [hx, if_neg (by simp), if_neg (by simp), ih hrest]
    rfl

/-- Nothing after a bad reply is asked for. -/
theorem exchanges_append_of_fault {e : TagError} (h : inquiry.fault? device = some e)
    (more : Inquiry) : Inquiry.exchanges device (inquiry ++ more) = inquiry.exchanges device := by
  induction inquiry with
  | nil => cases h
  | cons x rest ih =>
    change _ :: (if (x.1.fault? device x.2).isSome then []
      else Inquiry.exchanges device (rest ++ more)) = _ :: (if _ then [] else _)
    cases hx : x.1.fault? device x.2 with
    | some e' => rfl
    | none =>
      have hrest : Inquiry.fault? device rest = some e := by
        rw [← h]
        change _ = (x.1.fault? device x.2).or _
        rw [hx, Option.none_or]
      rw [if_neg (by simp), if_neg (by simp), ih hrest]

/-- If no reply is bad, all queries are made. -/
theorem exchanges_of_good (h : inquiry.fault? device = none) :
    inquiry.exchanges device = inquiry.map fun x => (x.1.request device, x.2) := by
  induction inquiry with
  | nil => rfl
  | cons x rest ih =>
    obtain ⟨hx, hrest⟩ := Option.or_eq_none_iff.1 h
    change _ :: (if (x.1.fault? device x.2).isSome then [] else Inquiry.exchanges device rest) = _
    rw [hx, if_neg (by simp), ih hrest]
    rfl

/-- If no reply is bad, each one is good. -/
theorem good_of_mem (h : inquiry.fault? device = none) :
    ∀ x ∈ inquiry, x.1.fault? device x.2 = none := by
  induction inquiry with
  | nil => intro x hx; cases hx
  | cons y rest ih =>
    obtain ⟨hy, hrest⟩ := Option.or_eq_none_iff.1 h
    intro x hx
    rcases List.mem_cons.1 hx with rfl | hx
    · exact hy
    · exact ih hrest x hx

end Inquiry

/-! ### Attempts that read -/

/-- From a state of the bus, the attempt goes through the inquiry up to and including the first bad
reply and fails with what is wrong with that one; if there is none, it comes to the value and leaves
the bus in the later state. -/
structure Inquires {σ α : Type} (bus : Bus σ) (device : UInt8) (d : Attempt α) (inquiry : Inquiry)
    (s : σ) (a : α) (later : σ) : Prop where
  exchanges : (d.run.run bus s).exchanges = inquiry.exchanges device
  result : (d.run.run bus s).result = (inquiry.fault? device).elim (.ok a) .error
  state : inquiry.fault? device = none → (d.run.run bus s).state = later

namespace Inquires

variable {σ α β : Type} {bus : Bus σ} {device : UInt8} {s : σ}

theorem pure (a : α) (s : σ) : Inquires bus device (Pure.pure a) [] s a s :=
  ⟨rfl, rfl, fun _ => rfl⟩

theorem report (notice : Notice) (s : σ) :
    Inquires bus device (Attempt.report notice) [] s () s := ⟨rfl, rfl, fun _ => rfl⟩

theorem ofExcept {found : Except TagError α} {a : α} (h : found = .ok a) (s : σ) :
    Inquires bus device (Attempt.ofExcept found) [] s a s := by
  subst h
  exact ⟨rfl, rfl, fun _ => rfl⟩

/-- **Inquiries add up.** -/
theorem bind {d : Attempt α} {f : α → Attempt β} {inquiry more : Inquiry} {a : α} {b : β}
    {later last : σ} (h : Inquires bus device d inquiry s a later)
    (hf : Inquires bus device (f a) more later b last) :
    Inquires bus device (d >>= f) (inquiry ++ more) s b last := by
  have hrun : (d >>= f).run.run bus s = (d.run.run bus s).after
      ((ExceptT.bindCont f (d.run.run bus s).result : Dialog _).run bus (d.run.run bus s).state) := by
    rw [← Dialog.run_bind]
    rfl
  cases hfault : inquiry.fault? device with
  | none =>
    have hresult := h.result
    rw [hfault] at hresult
    rw [hresult, h.state hfault] at hrun
    refine ⟨?_, ?_, fun hmore => ?_⟩
    · rw [hrun, Inquiry.exchanges_append_of_good hfault, ← h.exchanges, ← hf.exchanges]
      rfl
    · rw [hrun, Inquiry.fault?_append, hfault, Option.none_or, ← hf.result]
      rfl
    · rw [hrun]
      rw [Inquiry.fault?_append, hfault, Option.none_or] at hmore
      exact hf.state hmore
  | some e =>
    have hresult := h.result
    rw [hfault] at hresult
    rw [hresult] at hrun
    refine ⟨?_, ?_, fun hmore => ?_⟩
    · rw [hrun, Inquiry.exchanges_append_of_fault hfault, ← h.exchanges]
      exact List.append_nil _
    · rw [hrun, Inquiry.fault?_append, hfault]
      rfl
    · rw [Inquiry.fault?_append, hfault] at hmore
      cases hmore

/-- An attempt whose only transaction is a query: it fails if the reply is bad, and otherwise comes
to a value that the bytes of the reply tell. -/
theorem transact (bus : Bus σ) (s : σ) {q : Query}
    {f : List UInt8 → Attempt α} (value : List UInt8 → α)
    (hf : ∀ bytes, Ends (f bytes) []
      ((q.fault? device (.ok bytes)).elim (.ok (value bytes)) .error)) :
    ∃ reply later, Inquires bus device (Attempt.transact (q.request device) >>= f) [(q, reply)] s
      (value (Reply.bytes reply)) later := by
  generalize hanswer : bus.answer (q.request device) s = answer
  obtain ⟨reply, notices, later⟩ := answer
  refine ⟨reply, later, ?_⟩
  have hrun := Dialog.run_bind bus (Attempt.transact (q.request device)).run
    (ExceptT.bindCont f) s
  rw [Attempt.run_transact, hanswer] at hrun
  change (Attempt.transact (q.request device) >>= f).run.run bus s = _ at hrun
  cases reply with
  | error cause => exact ⟨congrArg Run.exchanges hrun, congrArg Run.result hrun, nofun⟩
  | ok bytes =>
    obtain ⟨done, hdone, hresult⟩ := hf bytes σ bus later
    obtain ⟨hexchanges, rfl⟩ := hdone.of_nil
    have hstate := Dialog.state_run bus (f bytes).run later
    rw [hexchanges] at hstate
    refine ⟨?_, ?_, fun _ => (congrArg Run.state hrun).trans hstate⟩
    · refine (congrArg Run.exchanges hrun).trans ?_
      change _ :: ((f bytes).run.run bus later).exchanges = _ :: (if _ then [] else [])
      rw [hexchanges, ite_self]
    · refine (congrArg Run.result hrun).trans (hresult.trans ?_)
      change _ = ((q.fault? device (.ok bytes)).or none).elim _ _
      rw [Option.or_none]
      rfl

/-- An attempt that comes to a value got good replies, and it is the value they tell. -/
theorem of_ok {d : Attempt α} {inquiry : Inquiry} {a b : α} {later : σ}
    (h : Inquires bus device d inquiry s a later) (hb : (d.run.run bus s).result = .ok b) :
    inquiry.fault? device = none ∧ a = b := by
  have hresult := h.result
  rw [hb] at hresult
  cases hfault : inquiry.fault? device with
  | some e =>
    rw [hfault] at hresult
    cases hresult
  | none =>
    rw [hfault] at hresult
    exact ⟨rfl, (Except.ok.inj hresult).symm⟩

/-- **The registers of an attached device reply with what they show.** -/
theorem reply_eq {d : Attempt α} {inquiry : Inquiry} {a : α} {mem later : Memory}
    (h : Inquires Memory.bus device d inquiry mem a later) (hattached : mem.attached.contains device)
    (hgood : inquiry.fault? device = none) {q : Query} {reply : Reply} (hmem : (q, reply) ∈ inquiry) :
    reply = .ok (mem.shown device q.register.address q.count) := by
  have hexchange : (q.request device, reply) ∈ (d.run.run Memory.bus mem).exchanges := by
    rw [h.exchanges, Inquiry.exchanges_of_good hgood]
    exact List.mem_map_of_mem (f := fun x : Query × Reply => (x.1.request device, x.2)) hmem
  -- what is only read stays the same up to the transactions that are kept
  obtain ⟨_, ⟨recent, rfl⟩, hreply⟩ := Dialog.reply_of_mem Memory.bus
    (p := fun t => ∃ recent, t = { mem with recent }) d.run (by
      rintro e he _ ⟨recent, rfl⟩
      obtain ⟨address, count, hrequest⟩ := Inquiry.request_mem_exchanges e (h.exchanges ▸ he)
      have hthere : ({ mem with recent } : Memory).attached.contains
          (Request.read device address count).device := hattached
      rw [hrequest, Memory.answer_of_attached hthere]
      exact ⟨_, rfl⟩) ⟨mem.recent, rfl⟩ _ hexchange
  have hthere : ({ mem with recent } : Memory).attached.contains (q.request device).device :=
    hattached
  rw [Memory.answer_of_attached hthere] at hreply
  exact hreply

end Inquires

end SpoolTag
