import Mathlib.Data.List.DropRight
import SpoolTag.Proofs.Bus.Registers

/-! # What registers in memory owe to their past

Registers in memory are altered, asked for transactions, and told to forget the transactions they
keep. The list of all that was done with them, with the replies they gave, tells their present: by
it alone (`seen`) one knows which devices acknowledge and what the registers hold, and every reply
was the one that what had been seen until then calls for (`Truthful`).

So registers in memory are what their past makes of them (`Lived.told_by_past`): the transactions
that are kept are the latest ones since they were forgotten for the last time, a transaction succeeds
if the device was last attached and not detached, and a register holds what was last put into it. -/

namespace SpoolTag.Memory

/-- Something that may be done with registers in memory. -/
inductive Deed where
  | alter (a : Alteration)
  | clear
  | ask (r : Request)

/-- Something that was done with registers in memory, with the reply if there is one. -/
inductive Event where
  | altered (a : Alteration)
  | cleared
  | answered (r : Request) (reply : Reply)

namespace Event

def deed : Event → Deed
  | .altered a => .alter a
  | .cleared => .clear
  | .answered r _ => .ask r

/-- The transaction that was attempted, whether it succeeded or not. -/
def request? : Event → Option Request
  | .answered r _ => some r
  | .altered _ | .cleared => none

/-- Whether the device was attached, if it was attached or detached. -/
def attaching (device : UInt8) : Event → Option Bool
  | .altered (.attach d) => if d = device then some true else none
  | .altered (.detach d) => if d = device then some false else none
  | _ => none

/-- What was put into the register, by hand or by a write that succeeded. -/
def storing (device register : UInt8) : Event → Option (List UInt8)
  | .altered (.set d r bytes) => if (d, r) = (device, register) then some bytes else none
  | .answered (.write d r bytes) (.ok _) => if (d, r) = (device, register) then some bytes else none
  | _ => none

def isCleared : Event → Bool
  | .cleared => true
  | _ => false

end Event

/-! ### The past -/

variable {α : Type} {past : List Event}

/-- What the latest of the events that tell something tells. -/
def latest (tells : Event → Option α) (past : List Event) : Option α :=
  past.reverse.findSome? tells

/-- The transactions that were attempted since those before were forgotten. -/
def attempted (past : List Event) : List Request :=
  (past.rtakeWhile fun e => !e.isCleared).filterMap Event.request?

/-- What can be seen of the devices, told by the past. -/
def seen (past : List Event) : Registers where
  attached device := latest (Event.attaching device) past == some true
  get? device register := latest (Event.storing device register) past

/-- Every reply was the one that what had been seen until then calls for. -/
def Truthful (past : List Event) : Prop :=
  ∀ before r reply later, past = before ++ .answered r reply :: later →
    reply = (seen before).reply r

@[simp] theorem latest_concat (tells : Event → Option α) (past : List Event) (e : Event) :
    latest tells (past ++ [e]) = (tells e).or (latest tells past) := by
  unfold latest
  rw [List.reverse_append]
  cases h : tells e <;> simp [h]

theorem attempted_concat_cleared : attempted (past ++ [.cleared]) = [] := by
  simp [attempted, Event.isCleared]

theorem attempted_concat_altered (a : Alteration) :
    attempted (past ++ [.altered a]) = attempted past := by
  simp [attempted, Event.isCleared, Event.request?]

theorem attempted_concat_answered (r : Request) (reply : Reply) :
    attempted (past ++ [.answered r reply]) = attempted past ++ [r] := by
  simp [attempted, Event.isCleared, Event.request?]

theorem seen_concat_altered (a : Alteration) :
    seen (past ++ [.altered a]) = (seen past).alter a := by
  cases a with
  | attach device | detach device =>
    simp only [seen, latest_concat, Registers.alter, Event.storing, Option.none_or,
      Registers.mk.injEq, and_true]
    funext d
    by_cases h : device = d
    · subst h
      simp [Event.attaching]
    · have hne : d ≠ device := Ne.symm h
      simp [Event.attaching, h, hne]
  | set device register bytes =>
    simp only [seen, latest_concat, Registers.alter, Registers.set, Event.attaching,
      Option.none_or, Registers.mk.injEq, true_and]
    funext d r
    by_cases h : (device, register) = (d, r) <;> simp [Event.storing, h]

theorem seen_concat_cleared : seen (past ++ [.cleared]) = seen past := by
  simp [seen, Event.attaching, Event.storing]

/-- A write that is refused is not seen afterwards. -/
theorem seen_concat_answered (r : Request) :
    seen (past ++ [.answered r ((seen past).reply r)]) = (seen past).after r := by
  cases r with
  | probe device | read device register count => simp [seen, Event.attaching, Event.storing,
      Registers.after]
  | write device register bytes =>
    by_cases h : (seen past).attached device
    · have hreply : (seen past).reply (.write device register bytes) = .ok [] := if_pos h
      have hafter : (seen past).after (.write device register bytes) =
        (seen past).set device register bytes := if_pos h
      rw [hreply, hafter]
      simp only [seen, latest_concat, Registers.set, Event.attaching, Option.none_or,
        Registers.mk.injEq, true_and]
      funext d r
      by_cases hplace : (device, register) = (d, r) <;> simp [Event.storing, hplace]
    · have hreply : (seen past).reply (.write device register bytes) =
        .error (.noAcknowledge device) := if_neg h
      have hafter : (seen past).after (.write device register bytes) = seen past := if_neg h
      rw [hreply, hafter]
      simp [seen, Event.attaching, Event.storing]

theorem Truthful.concat {e : Event} (h : Truthful past)
    (he : ∀ r reply, e = .answered r reply → reply = (seen past).reply r) :
    Truthful (past ++ [e]) := by
  intro before r reply later heq
  rcases List.eq_nil_or_concat later with rfl | ⟨init, last, rfl⟩
  · obtain ⟨rfl, hlast⟩ := List.append_inj' heq rfl
    exact he r reply (List.cons.inj hlast).1
  · have hsplit : past ++ [e] = (before ++ .answered r reply :: init) ++ [last] := by
      simpa using heq
    obtain ⟨hpast, -⟩ := List.append_inj' hsplit rfl
    exact h before r reply init hpast

/-! ### The present -/

/-- Registers in memory, and all that was done with them since they were made. -/
structure Lived where
  memory : Memory := {}
  past : List Event := []

namespace Lived

def after (s : Lived) : Deed → Lived
  | .alter a => ⟨s.memory.alter a, s.past ++ [.altered a]⟩
  | .clear => ⟨s.memory.clear, s.past ++ [.cleared]⟩
  | .ask r =>
    let answer := bus.answer r s.memory
    ⟨answer.state, s.past ++ [.answered r answer.reply]⟩

/-- New registers in memory after all that was done with them. -/
def through (deeds : List Deed) : Lived := deeds.foldl after {}

/-- The past accounts for the registers. -/
structure Accounted (s : Lived) : Prop where
  recent : s.memory.recent = (attempted s.past).reverse.take capacity
  registers : s.memory.registers = seen s.past
  truthful : Truthful s.past

variable {s : Lived}

theorem recent_alter (m : Memory) (a : Alteration) : (m.alter a).recent = m.recent := by
  cases a <;> rfl

theorem recent_answer (r : Request) (m : Memory) :
    (bus.answer r m).state.recent = (r :: m.recent).take capacity := by
  by_cases h : m.attached.contains r.device
  · rw [answer_of_attached h]
    cases r <;> rfl
  · rw [answer_of_detached h]
    rfl

/-- **Whatever is done next, the past goes on accounting for the registers.** -/
theorem Accounted.after (h : s.Accounted) (deed : Deed) : (s.after deed).Accounted := by
  cases deed with
  | alter a =>
    refine ⟨?_, ?_, h.truthful.concat nofun⟩
    · change (s.memory.alter a).recent = _
      rw [recent_alter, h.recent, Lived.after, attempted_concat_altered]
    · change (s.memory.alter a).registers = _
      rw [registers_alter, h.registers]
      exact (seen_concat_altered a).symm
  | clear =>
    refine ⟨?_, ?_, h.truthful.concat nofun⟩
    · simp [Lived.after, attempted_concat_cleared, clear]
    · exact h.registers.trans seen_concat_cleared.symm
  | ask r =>
    obtain ⟨hreply, hstate⟩ := answer_eq r s.memory
    rw [h.registers] at hreply hstate
    refine ⟨?_, ?_, h.truthful.concat fun r' reply heq => ?_⟩
    · change (bus.answer r s.memory).state.recent = _
      -- the transaction that is dropped would be dropped without this one, or by it
      have htake : ((r :: (attempted s.past).reverse.take capacity).take capacity) =
          (r :: (attempted s.past).reverse).take capacity := by
        simp [capacity, List.take_take]
      rw [recent_answer, h.recent, htake]
      simp [Lived.after, attempted_concat_answered]
    · change (bus.answer r s.memory).state.registers =
        seen (s.past ++ [.answered r (bus.answer r s.memory).reply])
      rw [hstate, hreply, seen_concat_answered]
    · obtain ⟨rfl, rfl⟩ := Event.answered.inj heq
      exact hreply

theorem accounted_foldl (deeds : List Deed) (h : s.Accounted) :
    (deeds.foldl Lived.after s).Accounted := by
  induction deeds generalizing s with
  | nil => exact h
  | cons deed rest ih => exact ih (h.after deed)

theorem accounted (deeds : List Deed) : (through deeds).Accounted :=
  accounted_foldl deeds ⟨rfl, rfl, fun before _ _ _ h => by simp at h⟩

theorem deeds_foldl (deeds : List Deed) :
    (deeds.foldl Lived.after s).past.map Event.deed = s.past.map Event.deed ++ deeds := by
  induction deeds generalizing s with
  | nil => simp
  | cons deed rest ih =>
    have hone : (s.after deed).past.map Event.deed = s.past.map Event.deed ++ [deed] := by
      cases deed <;> simp [Lived.after, Event.deed]
    rw [List.foldl_cons, ih, hone, List.append_assoc, List.singleton_append]

end Lived

/-- **Registers in memory are what their past makes of them.** They keep the latest transactions of
those that were attempted since the others were forgotten, up to `1024`. A register holds what was
put into it last. A transaction succeeded if its device was last attached and not detached, and a
read that succeeded gave what the register held, cut or filled up with zeros. -/
theorem Lived.told_by_past (deeds : List Deed) :
    let s := Lived.through deeds
    s.past.map Event.deed = deeds ∧
      (s.memory.transactions <:+ attempted s.past ∧
        s.memory.transactions.length = min 1024 (attempted s.past).length) ∧
      (∀ device register, s.memory.get? device register =
        latest (Event.storing device register) s.past) ∧
      ∀ before r reply later, s.past = before ++ .answered r reply :: later →
        (reply.isOk ↔ latest (Event.attaching r.device) before = some true) ∧
          ∀ device register count bytes,
            r = .read device register count → reply = .ok bytes →
              bytes.length = count ∧ ∀ i < count, bytes[i]? =
                some (((latest (Event.storing device register) before).getD []).getD i 0) := by
  intro s
  have h : s.Accounted := Lived.accounted deeds
  refine ⟨?_, ⟨?_, ?_⟩, fun device register => ?_, fun before r reply later hpast => ⟨?_, ?_⟩⟩
  · exact (Lived.deeds_foldl deeds).trans (List.nil_append deeds)
  · rw [transactions, h.recent, ← List.reverse_prefix, List.reverse_reverse]
    exact List.take_prefix _ _
  · rw [transactions, h.recent]
    simp [capacity]
  · exact congrFun (congrFun (congrArg Registers.get? h.registers) device) register
  · rw [h.truthful before r reply later hpast, Registers.isOk_reply]
    simp [seen]
  · rintro device register count bytes rfl hok
    rw [h.truthful before _ reply later hpast] at hok
    have hattached : (seen before).attached device = true := by
      have hisOk := Registers.isOk_reply (seen before) (.read device register count)
      rw [hok] at hisOk
      exact hisOk.symm
    have hread : (seen before).reply (.read device register count) =
        .ok (padTo count (((seen before).get? device register).getD [])) := if_pos hattached
    obtain rfl := Except.ok.inj (hread.symm.trans hok)
    exact ⟨length_padTo _ _, fun i hi => getElem?_padTo _ hi⟩

end SpoolTag.Memory
