import Mathlib.Data.List.Induction
import SpoolTag.Bus.Memory
import SpoolTag.Proofs.Daemon.Tasks

/-! # Readings and events

A call that looks at the device makes its reading while it has the lock and sends its event later,
when it goes on. `Prompt` says that a task sends what it owes before anything else and owes nothing
but its latest reading; every call of the daemon is like that (`prompt_task`). So each event is the
reading of its own call (`Accounts`), and as long as no two readings are unsent at a time the events
have the order of the readings. When two calls have read and not sent, either may send first
(`published_in_order`), and the latest event need not be the latest reading
(`later_reading_sent_first`). -/

namespace SpoolTag

/-- The sighting that a job came to, if it was a look. -/
def Job.reading : (j : Job) → Except TagError j.Result → Option Sighting
  | .look, .ok seen => some seen
  | _, _ => none

/-- The task owes this reading and sends it before anything else, and so on with later ones. -/
def Task.Prompt (owed : Option Sighting) : Task → Prop
  | .done _ => owed = none
  | .note _ next => owed = none ∧ next.Prompt none
  | .hold j next => owed = none ∧ ∀ result, (next result).Prompt (j.reading result)
  | .publish _ seen next => owed = some seen ∧ ∀ change, (next change).Prompt none

theorem Task.prompt_looking (time : String) (next : Except TagError Change → Task)
    (h : ∀ result, (next result).Prompt none) : (looking time next).Prompt none := by
  refine ⟨rfl, fun result => ?_⟩
  cases result with
  | error e => exact h _
  | ok seen => exact ⟨rfl, fun change => h _⟩

/-- **Every call of the daemon sends a reading before anything else.** -/
theorem Call.prompt_task (c : Call) : c.task.Prompt none := by
  have hother : ∀ {j : Job} (result : Except TagError j.Result) (outcome : Outcome), j ≠ .look →
      (Task.done outcome).Prompt (j.reading result) := by
    intro j result outcome hj
    cases j with
    | look => exact absurd rfl hj
    | _ => rfl
  cases c with
  | status => exact ⟨rfl, fun result => hother result _ (by simp)⟩
  | record => exact ⟨rfl, fun result => hother result _ (by simp)⟩
  | write r => exact ⟨rfl, fun result => hother result _ (by simp)⟩
  | refresh time => exact Task.prompt_looking time (fun result => .done (.refresh result)) fun result => rfl
  | poll time watcher =>
    refine ⟨rfl, fun result => ?_⟩
    cases result with
    | error e => rfl
    | ok found =>
      dsimp only
      split
      · rfl
      · exact ⟨rfl, Task.prompt_looking time (fun result => .done (polled watcher result))
          fun result => rfl⟩

/-- The same of a call; what was dropped may owe something for ever. -/
def Phase.Prompt (owed : Option Sighting) : Phase → Prop
  | .active task => task.Prompt owed
  | .holding j _ next =>
    owed = none ∧ ∀ task, next = some task → ∀ result, (task result).Prompt (j.reading result)
  | .dropped => True

/-! ### Traces -/

section Traces

variable {ι : Type}

def Mark.reading : Mark ι → Option (ι × Sighting)
  | .ended i j result => (j.reading result).map (i, ·)
  | _ => none

def Mark.change : Mark ι → Option (ι × Change)
  | .sent i change => some (i, change)
  | _ => none

/-- The readings, in the order in which the lock was given back. -/
def readings (trace : List (Mark ι)) : List (ι × Sighting) := trace.filterMap Mark.reading

/-- The changes that were sent, in this order. -/
def changes (trace : List (Mark ι)) : List (ι × Change) := trace.filterMap Mark.change

/-- The sightings of these changes. -/
def events (trace : List (Mark ι)) : List (ι × Sighting) :=
  (changes trace).map fun e => (e.1, e.2.sighting)

theorem events_congr {trace later : List (Mark ι)} (h : changes later = changes trace) :
    events later = events trace := by rw [events, events, h]

theorem events_of_changes {trace later : List (Mark ι)} {i : ι} {change : Change}
    (h : changes later = changes trace ++ [(i, change)]) :
    events later = events trace ++ [(i, change.sighting)] := by
  rw [events, h, List.map_append]
  rfl

/-- What of a list is of some of the calls. -/
def among (p : ι → Bool) (l : List (ι × Sighting)) : List (ι × Sighting) :=
  l.filter fun e => p e.1

theorem among_append (p : ι → Bool) (a b : List (ι × Sighting)) :
    among p (a ++ b) = among p a ++ among p b := List.filter_append ..

theorem among_of_mem {p : ι → Bool} {i : ι} (h : p i = true) (seen : Sighting) :
    among p [(i, seen)] = [(i, seen)] := List.filter_cons_of_pos h

theorem among_of_notMem {p : ι → Bool} {i : ι} (h : p i = false) (seen : Sighting) :
    among p [(i, seen)] = [] := by
  refine List.filter_cons_of_neg ?_
  rw [h]
  exact Bool.false_ne_true

variable [DecidableEq ι]

/-- One of the calls. -/
def only (i : ι) : ι → Bool := fun k => decide (k = i)

theorem only_self (i : ι) : only i i = true := decide_eq_true rfl

theorem only_of_ne {i k : ι} (h : i ≠ k) : only k i = false := decide_eq_false h

/-- Nothing of a call is lost among calls of which it is one. -/
theorem among_only_among {p : ι → Bool} {i : ι} (h : p i = true) (l : List (ι × Sighting)) :
    among (only i) (among p l) = among (only i) l := by
  rw [among, among, List.filter_filter]
  refine List.filter_congr fun e he => ?_
  by_cases hi : e.1 = i
  · rw [hi, h, Bool.and_true]
  · rw [only, decide_eq_false hi, Bool.false_and]

end Traces

namespace Scene

variable {ι σ : Type} {s : Scene ι σ} {d : Daemon σ}

/-! ### One step -/

/-- What a step of a call does that owes a reading or owes none: it makes no reading and sends
nothing, or it makes a reading when it owes none, or it sends what it owes. -/
inductive Effect (s after : Scene ι σ) (i : ι) (owed : Option Sighting) : Prop
  | quiet (hphase : (after.phase i).Prompt owed) (hreadings : readings after.trace = readings s.trace)
      (hchanges : changes after.trace = changes s.trace)
      (hchannel : after.world.channel = s.world.channel)
  | read (seen : Sighting) (howed : owed = none) (hphase : (after.phase i).Prompt (some seen))
      (hreadings : readings after.trace = readings s.trace ++ [(i, seen)])
      (hchanges : changes after.trace = changes s.trace)
      (hchannel : after.world.channel = s.world.channel)
  | sent (change : Change) (howed : owed = some change.sighting)
      (hphase : (after.phase i).Prompt none) (hreadings : readings after.trace = readings s.trace)
      (hchanges : changes after.trace = changes s.trace ++ [(i, change)])
      (hchannel : after.world.channel = s.world.channel.send change)

theorem readings_mark (s : Scene ι σ) (m : Mark ι) :
    readings (s.mark m).trace = readings s.trace ++ m.reading.toList := by
  rw [mark, readings, List.filterMap_append]
  cases hm : m.reading <;> simp [hm, readings]

theorem changes_mark (s : Scene ι σ) (m : Mark ι) :
    changes (s.mark m).trace = changes s.trace ++ m.change.toList := by
  rw [mark, changes, List.filterMap_append]
  cases hm : m.change <;> simp [hm, changes]

variable [DecidableEq ι]

@[simp] theorem phase_put (s : Scene ι σ) (i : ι) (phase : Phase) :
    (s.put i phase).phase i = phase := Function.update_self ..

theorem effect_work (i : ι) (j : Job) (rest : Dialog (Except TagError j.Result))
    (next : Option (Except TagError j.Result → Task)) {owed : Option Sighting}
    (h : (Phase.holding j rest next).Prompt owed) : Effect s (s.work d i j next rest) i owed := by
  obtain ⟨rfl, hnext⟩ := h
  cases rest with
  | note notice rest => exact .quiet (by rw [work, phase_put]; exact ⟨rfl, hnext⟩) rfl rfl rfl
  | ask request rest =>
    refine .quiet ?_ ?_ ?_ rfl
    · rw [work]
      change Phase.Prompt none ((put _ i _).phase i)
      rw [phase_put]
      exact ⟨rfl, hnext⟩
    · rw [work, readings_mark]
      exact List.append_nil _
    · rw [work, changes_mark]
      exact List.append_nil _
  | done result =>
    have hphase : ((s.work d i j next (.done result)).phase i).Prompt (j.reading result) := by
      rw [work]
      change Phase.Prompt _ ((put _ i _).phase i)
      rw [phase_put]
      cases next with
      | none => trivial
      | some next => exact hnext next rfl result
    have hreadings : readings (s.work d i j next (.done result)).trace =
        readings s.trace ++ ((j.reading result).map (i, ·)).toList := by
      rw [work, readings_mark]
      rfl
    have hchanges : changes (s.work d i j next (.done result)).trace = changes s.trace := by
      rw [work, changes_mark]
      exact List.append_nil _
    cases hreading : j.reading result with
    | none =>
      rw [hreading] at hphase hreadings
      exact .quiet hphase (hreadings.trans (List.append_nil _)) hchanges rfl
    | some seen =>
      rw [hreading] at hphase hreadings
      exact .read seen rfl hphase hreadings hchanges rfl

theorem effect_advance (i : ι) {owed : Option Sighting} (h : (s.phase i).Prompt owed) :
    Effect s (s.advance d i) i owed := by
  unfold advance
  split
  · exact .quiet h rfl rfl rfl
  · next j rest next hphase =>
    rw [hphase] at h
    exact effect_work i j rest next h
  · exact .quiet h rfl rfl rfl
  · next report next hphase =>
    rw [hphase] at h
    obtain ⟨rfl, hnext⟩ := h
    exact .quiet (by rw [phase_put]; exact hnext) rfl rfl rfl
  · next j next hphase =>
    split
    · exact .quiet h rfl rfl rfl
    · rw [hphase] at h
      obtain ⟨rfl, hnext⟩ := h
      refine .quiet ?_ ?_ ?_ rfl
      · change Phase.Prompt none ((put _ i _).phase i)
        rw [phase_put]
        exact ⟨rfl, fun task htask => Option.some.inj htask ▸ hnext⟩
      · rw [readings_mark]
        exact List.append_nil _
      · rw [changes_mark]
        exact List.append_nil _
  · next time seen next hphase =>
    rw [hphase] at h
    obtain ⟨rfl, hnext⟩ := h
    refine .sent ⟨seen, time⟩ rfl ?_ ?_ ?_ rfl
    · change Phase.Prompt none ((put _ i _).phase i)
      rw [phase_put]
      exact hnext _
    · rw [readings_mark]
      exact List.append_nil _
    · rw [changes_mark]
      rfl

theorem phase_work_of_ne {i k : ι} (hk : k ≠ i) (j : Job)
    (next : Option (Except TagError j.Result → Task)) (rest : Dialog (Except TagError j.Result)) :
    (s.work d i j next rest).phase k = s.phase k := by
  cases rest with
  | done result => exact Function.update_of_ne hk _ _
  | note notice rest => exact Function.update_of_ne hk _ _
  | ask request rest => exact Function.update_of_ne hk _ _

theorem phase_advance_of_ne {i k : ι} (hk : k ≠ i) : (s.advance d i).phase k = s.phase k := by
  unfold advance
  split
  · rfl
  · exact phase_work_of_ne hk _ _ _
  · rfl
  · exact Function.update_of_ne hk _ _
  · split
    · rfl
    · exact Function.update_of_ne hk _ _
  · exact Function.update_of_ne hk _ _

theorem prompt_drop {phase : Phase} {owed : Option Sighting} (h : phase.Prompt owed) :
    phase.drop.Prompt owed := by
  cases phase with
  | active task => cases task <;> first | exact h | trivial
  | holding j rest next => exact ⟨h.1, fun task htask => by cases htask⟩
  | dropped => trivial

/-- **What a choice does**: it is about one call, or it leaves calls and channel as they are. -/
theorem effect_turn (d : Daemon σ) (s : Scene ι σ) (c : Choice ι σ) :
    (∃ i, (∀ k, k ≠ i → (s.turn d c).phase k = s.phase k) ∧
      ∀ owed, (s.phase i).Prompt owed → Effect s (s.turn d c) i owed) ∨
    ((s.turn d c).phase = s.phase ∧ (s.turn d c).trace = s.trace ∧
      (s.turn d c).world.channel = s.world.channel) := by
  cases c with
  | go i =>
    exact .inl ⟨i, fun k hk => phase_advance_of_ne hk, fun owed h => effect_advance i h⟩
  | change f =>
    refine .inr ?_
    unfold turn
    dsimp only
    split <;> exact ⟨rfl, rfl, rfl⟩
  | drop i =>
    refine .inl ⟨i, fun k hk => Function.update_of_ne hk _ _, fun owed h => ?_⟩
    refine .quiet ?_ rfl rfl rfl
    rw [turn, phase_put]
    exact prompt_drop h

/-! ### Every event is a reading of its call -/

/-- The readings of each call are its events and what it owes. -/
def Accounts (s : Scene ι σ) : Prop :=
  ∀ i, ∃ owed, (s.phase i).Prompt owed ∧
    among (only i) (readings s.trace) =
      among (only i) (events s.trace) ++ (owed.map (i, ·)).toList

theorem Accounts.turn (h : s.Accounts) (c : Choice ι σ) : (s.turn d c).Accounts := by
  intro k
  obtain ⟨owed, hprompt, hbooks⟩ := h k
  rcases effect_turn d s c with ⟨i, hothers, heffect⟩ | ⟨hphase, htrace, -⟩
  · by_cases hk : k = i
    · subst hk
      cases heffect owed hprompt with
      | quiet hphase hreadings hchanges hchannel =>
        refine ⟨owed, hphase, ?_⟩
        rw [hreadings, events_congr hchanges]
        exact hbooks
      | read seen howed hphase hreadings hchanges hchannel =>
        subst howed
        refine ⟨some seen, hphase, ?_⟩
        rw [hreadings, among_append, hbooks, among_of_mem (only_self k), events_congr hchanges]
        exact congrArg (· ++ [(k, seen)]) (List.append_nil _)
      | sent change howed hphase hreadings hchanges hchannel =>
        subst howed
        refine ⟨none, hphase, ?_⟩
        rw [hreadings, hbooks, events_of_changes hchanges, among_append,
          among_of_mem (only_self k)]
        exact (List.append_nil _).symm
    · refine ⟨owed, by rw [hothers k hk]; exact hprompt, ?_⟩
      obtain ⟨owed', hprompt', -⟩ := h i
      cases heffect owed' hprompt' with
      | quiet hphase hreadings hchanges hchannel =>
        rw [hreadings, events_congr hchanges]
        exact hbooks
      | read seen howed hphase hreadings hchanges hchannel =>
        rw [hreadings, among_append, among_of_notMem (only_of_ne (Ne.symm hk)), List.append_nil,
          events_congr hchanges]
        exact hbooks
      | sent change howed hphase hreadings hchanges hchannel =>
        rw [hreadings, events_of_changes hchanges, among_append,
          among_of_notMem (only_of_ne (Ne.symm hk)), List.append_nil]
        exact hbooks
  · refine ⟨owed, by rw [hphase]; exact hprompt, ?_⟩
    rw [htrace]
    exact hbooks

theorem Accounts.play (h : s.Accounts) (choices : List (Choice ι σ)) :
    (s.play d choices).Accounts := by
  induction choices generalizing s with
  | nil => exact h
  | cons c rest ih => exact ih (h.turn c)

theorem accounts_start (world : World σ) (calls : ι → Call) : (start world calls).Accounts :=
  fun i => ⟨none, (calls i).prompt_task, rfl⟩

/-! ### The channel -/

theorem channel_play (h : s.Accounts) (choices : List (Choice ι σ)) {first : Channel Change}
    (hchannel : s.world.channel =
      (changes s.trace).foldl (fun channel e => channel.send e.2) first) :
    (s.play d choices).world.channel =
      (changes (s.play d choices).trace).foldl (fun channel e => channel.send e.2) first := by
  induction choices generalizing s with
  | nil => exact hchannel
  | cons c rest ih =>
    refine ih (h.turn c) ?_
    rcases effect_turn d s c with ⟨i, -, heffect⟩ | ⟨-, htrace, hsame⟩
    · obtain ⟨owed, hprompt, -⟩ := h i
      cases heffect owed hprompt with
      | quiet hphase hreadings hchanges hsame => rw [hsame, hchannel, hchanges]
      | read seen howed hphase hreadings hchanges hsame => rw [hsame, hchannel, hchanges]
      | sent change howed hphase hreadings hchanges hsent =>
        rw [hsent, hchannel, hchanges, List.foldl_append]
        rfl
    · rw [hsame, hchannel, htrace]

/-! ### Order -/

/-- Of these calls never more than one has a reading that is unsent. -/
def OneUnsent (d : Daemon σ) (s : Scene ι σ) (choices : List (Choice ι σ)) (p : ι → Bool) : Prop :=
  ∀ earlier, earlier <+: choices →
    (among p (readings (s.play d earlier).trace)).length ≤
      (among p (events (s.play d earlier).trace)).length + 1

/-- The events of these calls are their readings in the order in which these were made, but for at
most one that is unsent. -/
def Ordered (p : ι → Bool) (trace : List (Mark ι)) : Prop :=
  ∃ unsent, unsent.length ≤ 1 ∧
    among p (readings trace) = among p (events trace) ++ unsent

theorem Ordered.turn {p : ι → Bool} (h : Ordered p s.trace) (hs : s.Accounts) (c : Choice ι σ)
    (hunsent : (among p (readings (s.turn d c).trace)).length ≤
      (among p (events (s.turn d c).trace)).length + 1) :
    Ordered p (s.turn d c).trace := by
  obtain ⟨unsent, hlength, hordered⟩ := h
  rcases effect_turn d s c with ⟨i, -, heffect⟩ | ⟨-, htrace, -⟩
  · obtain ⟨owed, hprompt, hbooks⟩ := hs i
    cases heffect owed hprompt with
    | quiet hphase hreadings hchanges hchannel =>
      exact ⟨unsent, hlength, by rw [hreadings, events_congr hchanges, hordered]⟩
    | read seen howed hphase hreadings hchanges hchannel =>
      rw [hreadings, events_congr hchanges, among_append, hordered] at hunsent
      cases hp : p i with
      | false =>
        refine ⟨unsent, hlength, ?_⟩
        rw [hreadings, events_congr hchanges, among_append, hordered, among_of_notMem hp,
          List.append_nil]
      | true =>
        -- the new reading is the only one that is unsent, so none was before
        rw [among_of_mem hp, List.length_append, List.length_append,
          List.length_singleton] at hunsent
        obtain rfl : unsent = [] := List.eq_nil_of_length_eq_zero (by omega)
        refine ⟨[(i, seen)], Nat.le_refl 1, ?_⟩
        rw [hreadings, events_congr hchanges, among_append, hordered, List.append_nil,
          among_of_mem hp]
    | sent change howed hphase hreadings hchanges hchannel =>
      cases hp : p i with
      | false =>
        refine ⟨unsent, hlength, ?_⟩
        rw [hreadings, events_of_changes hchanges, among_append, hordered, among_of_notMem hp,
          List.append_nil]
      | true =>
        -- what is sent is the reading of its call that is unsent, so it is the one
        subst howed
        have hown : among (only i) unsent = [(i, change.sighting)] := by
          have hsplit := congrArg (among (only i)) hordered
          rw [among_append, among_only_among hp, among_only_among hp, hbooks] at hsplit
          exact (List.append_cancel_left hsplit).symm
        obtain rfl : unsent = [(i, change.sighting)] := by
          have hle : (among (only i) unsent).length ≤ unsent.length := List.length_filter_le ..
          have hall : (among (only i) unsent).length = unsent.length := by
            rw [hown, List.length_singleton] at hle ⊢
            omega
          rw [← hown]
          exact (List.filter_eq_self.2 (List.length_filter_eq_length_iff.1 hall)).symm
        refine ⟨[], Nat.zero_le 1, ?_⟩
        rw [hreadings, events_of_changes hchanges, among_append, hordered, among_of_mem hp,
          List.append_nil]
  · exact ⟨unsent, hlength, by rw [htrace, hordered]⟩

theorem Ordered.play {p : ι → Bool} (h : Ordered p s.trace) (hs : s.Accounts)
    (choices : List (Choice ι σ)) (hunsent : OneUnsent d s choices p) :
    Ordered p (s.play d choices).trace := by
  induction choices using List.reverseRecOn with
  | nil => exact h
  | append_singleton rest c ih =>
    have hprefix : rest <+: rest ++ [c] := List.prefix_append ..
    have hlast : s.play d (rest ++ [c]) = (s.play d rest).turn d c := by
      rw [Scene.play, List.foldl_append]
      rfl
    have hrest : Ordered p (s.play d rest).trace :=
      ih fun earlier hearlier => hunsent earlier (hearlier.trans hprefix)
    have hone := hunsent (rest ++ [c]) (List.prefix_refl _)
    rw [hlast] at hone ⊢
    exact hrest.turn (hs.play rest) c hone

theorem events_advance {i : ι} {time : String} {seen : Sighting} {next : Change → Task}
    (h : s.phase i = .active (.publish time seen next)) :
    events (s.advance d i).trace = events s.trace ++ [(i, seen)] := by
  have hchanges : changes (s.advance d i).trace = changes s.trace ++ [(i, ⟨seen, time⟩)] := by
    unfold advance
    rw [h]
    exact changes_mark ..
  exact events_of_changes hchanges

/-- When two calls have read and not sent, the order of sending is the order of the choices. -/
theorem events_of_both {i k : ι} (hik : i ≠ k) {time time' : String} {seen seen' : Sighting}
    {next next' : Change → Task} (hi : s.phase i = .active (.publish time seen next))
    (hk : s.phase k = .active (.publish time' seen' next')) :
    events (s.play d [.go i, .go k]).trace = events s.trace ++ [(i, seen), (k, seen')] := by
  have hk' : (s.advance d i).phase k = .active (.publish time' seen' next') := by
    rw [phase_advance_of_ne (Ne.symm hik), hk]
  change events ((s.advance d i).advance d k).trace = _
  rw [events_advance hk', events_advance hi, List.append_assoc]
  rfl

/-- **Events and readings**, in every schedule of any number of calls. The channel carries the
changes in the order of sending; the events of a call are its readings, but for at most one that is
unsent; the events of any of the calls have the order of their readings as long as never more than
one of these is unsent; and when two calls have read and not sent, their events come in either
order. -/
theorem published_in_order (d : Daemon σ) (world : World σ) (calls : ι → Call)
    (choices : List (Choice ι σ)) :
    let s := (start world calls).play d choices
    s.world.channel =
      (changes s.trace).foldl (fun channel e => channel.send e.2) world.channel ∧
    (∀ i, Ordered (only i) s.trace) ∧
    (∀ p, OneUnsent d (start world calls) choices p → Ordered p s.trace) ∧
    ∀ i k time time' seen seen' next next', i ≠ k →
      s.phase i = .active (.publish time seen next) →
      s.phase k = .active (.publish time' seen' next') →
        events (s.play d [.go i, .go k]).trace = events s.trace ++ [(i, seen), (k, seen')] ∧
        events (s.play d [.go k, .go i]).trace = events s.trace ++ [(k, seen'), (i, seen)] := by
  intro s
  have hstart : (start world calls : Scene ι σ).Accounts := accounts_start world calls
  refine ⟨channel_play hstart choices rfl, fun i => ?_, ?_, ?_⟩
  · obtain ⟨owed, -, hbooks⟩ := hstart.play (d := d) choices i
    refine ⟨_, ?_, hbooks⟩
    cases owed <;> simp
  · intro p hunsent
    exact Ordered.play ⟨[], Nat.zero_le 1, rfl⟩ hstart choices hunsent
  · intro i k time time' seen seen' next next' hik hi hk
    exact ⟨events_of_both hik hi hk, events_of_both (Ne.symm hik) hk hi⟩

/-! ### Two refreshes -/

def attached : Daemon Memory := ⟨Memory.bus, ⟨0x42, .standard⟩⟩

/-- The world of an attached device with nothing in its registers. -/
def blank : World Memory := { bus := { attached := [0x42] } }

/-- Two refreshes, an earlier and a later one. -/
def refreshes (later : Bool) : Call := .refresh (if later then "2" else "1")

/-- The earlier refresh has sent before the later one looks. -/
def oneByOne : List (Choice Bool Memory) :=
  List.replicate 7 (.go false) ++ List.replicate 7 (.go true)

/-- Both refreshes have looked at the device, which a spool was put on in between, and have sent
nothing. -/
def bothRead : List (Choice Bool Memory) :=
  List.replicate 6 (.go false) ++ [.change (·.set 0x42 0x00 [1])] ++ List.replicate 6 (.go true)

/-- Two refreshes of which one has sent before the other looks are in order, and two that have both
looked come in either order. -/
theorem published_in_order_refreshes :
    Ordered (fun _ => true) ((start blank refreshes).play attached oneByOne).trace ∧
    let s : Scene Bool Memory := (start blank refreshes).play attached bothRead
    let empty : Sighting := ⟨⟨false, false⟩, none⟩
    let spool : Sighting := ⟨⟨true, false⟩, none⟩
    events (s.play attached [.go false, .go true]).trace =
        events s.trace ++ [(false, empty), (true, spool)] ∧
      events (s.play attached [.go true, .go false]).trace =
        events s.trace ++ [(true, spool), (false, empty)] := by
  constructor
  · refine (published_in_order attached blank refreshes oneByOne).2.2.1 _ fun earlier hearlier => ?_
    have htake : earlier = oneByOne.take earlier.length := List.prefix_iff_eq_take.1 hearlier
    have hlength : earlier.length ≤ 14 := hearlier.length_le
    have hall : ∀ n < 15,
        (among (fun _ => true)
          (readings ((start blank refreshes).play attached (oneByOne.take n)).trace)).length ≤
        (among (fun _ => true)
          (events ((start blank refreshes).play attached (oneByOne.take n)).trace)).length + 1 := by
      decide
    rw [htake]
    exact hall _ (by omega)
  · exact (published_in_order attached blank refreshes bothRead).2.2.2 false true "1" "2" _ _ _ _
      (by decide) rfl rfl

/-- The refresh that looked first may send last, and then the latest event is not the latest
reading. -/
theorem later_reading_sent_first :
    let s : Scene Bool Memory :=
      (start blank refreshes).play attached (bothRead ++ [.go true, .go false])
    readings s.trace = [(false, ⟨⟨false, false⟩, none⟩), (true, ⟨⟨true, false⟩, none⟩)] ∧
      events s.trace = [(true, ⟨⟨true, false⟩, none⟩), (false, ⟨⟨false, false⟩, none⟩)] ∧
      s.world.channel.kept.head? = some ⟨⟨⟨false, false⟩, none⟩, "1"⟩ :=
  ⟨rfl, rfl, rfl⟩

end Scene

end SpoolTag
