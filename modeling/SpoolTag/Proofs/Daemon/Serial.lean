import SpoolTag.Proofs.Daemon.Publishing

/-! # One hold after the other

What calls do on the device when they run at the same time is what they do when the lock is given to
one of them after the other and each hold of it is carried out at once. `Serial` is this sequential
execution, in the order in which the lock was granted and with the changes of the device in between
(`Scene.log`).

A scene in which somebody has the lock is compared after what is left of the hold (`Scene.finish`):
a step of the holder does not change what comes out of it (`finish_work`), and the others do not
touch the device. So each choice keeps the scene in agreement with the sequential execution
(`Agrees.turn`), also when it drops a call, since the job of what is dropped goes on. -/

namespace SpoolTag

/-- What is left of a task when it has reported and sent what it can without the lock. -/
def Task.ready : Task → Task
  | .note _ next => next.ready
  | .publish time seen next => (next ⟨seen, time⟩).ready
  | .hold j next => .hold j next
  | .done outcome => .done outcome

/-! ### Holds -/

/-- A hold of the lock: whose it is, what is done, and the state of the bus when it was granted. -/
structure Hold (ι σ : Type) where
  caller : ι
  job : Job
  before : σ

/-- What a job does from here on, with its end. -/
def Job.marks {ι σ : Type} (i : ι) (j : Job) (run : Run σ (Except TagError j.Result)) :
    List (Mark ι) :=
  run.exchanges.map (fun e => .exchanged i e.1 e.2) ++ [.ended i j run.result]

namespace Hold

variable {ι σ : Type}

/-- The job alone. -/
def run (d : Daemon σ) (h : Hold ι σ) : Run σ (Except TagError h.job.Result) :=
  (h.job.attempt d.manager).run.run d.bus h.before

/-- The grant of the lock, the transactions of the job alone, and its end. -/
def marks (d : Daemon σ) (h : Hold ι σ) : List (Mark ι) :=
  .granted h.caller h.job :: h.job.marks h.caller (h.run d)

end Hold

/-- Something that decides what the device does next: the lock is granted, or the device changes. -/
inductive Entry (ι σ : Type) where
  | grant (i : ι)
  | change (f : σ → σ)

/-- A sequential execution: the state of the bus, what is left of each call, and the holds
so far. -/
structure Serial (ι σ : Type) where
  bus : σ
  left : ι → Task
  holds : List (Hold ι σ) := []

namespace Serial

variable {ι σ : Type} [DecidableEq ι]

def start (bus : σ) (calls : ι → Call) : Serial ι σ := { bus, left := fun i => (calls i).task }

/-- A call that is granted the lock does its job from the first to the last transaction. -/
def apply (d : Daemon σ) (x : Serial ι σ) : Entry ι σ → Serial ι σ
  | .change f => { x with bus := f x.bus }
  | .grant i =>
    match (x.left i).ready with
    | .hold j next =>
      let run := (j.attempt d.manager).run.run d.bus x.bus
      { bus := run.state
        left := Function.update x.left i (next run.result)
        holds := x.holds ++ [⟨i, j, x.bus⟩] }
    | _ => x

def run (d : Daemon σ) (x : Serial ι σ) (log : List (Entry ι σ)) : Serial ι σ :=
  log.foldl (apply d) x

theorem apply_grant (d : Daemon σ) {x : Serial ι σ} {i : ι} {j : Job}
    {next : Except TagError j.Result → Task} (h : (x.left i).ready = .hold j next) :
    let run := (j.attempt d.manager).run.run d.bus x.bus
    x.apply d (.grant i) =
      { bus := run.state
        left := Function.update x.left i (next run.result)
        holds := x.holds ++ [⟨i, j, x.bus⟩] } := by
  unfold apply
  dsimp only
  rw [h]

end Serial

/-! ### Scenes -/

/-- Only the end of a look is a reading. -/
theorem Mark.eq_of_reading {ι : Type} {m : Mark ι} {i : ι} {seen : Sighting}
    (h : m.reading = some (i, seen)) :
    m = .ended i .look (.ok seen) := by
  cases m with
  | ended k j result =>
    obtain ⟨found, hfound, hpair⟩ := Option.map_eq_some_iff.1 h
    cases hpair
    cases j with
    | look =>
      cases result with
      | ok found' =>
        cases hfound
        rfl
      | error e => cases hfound
    | _ => cases hfound
  | _ => cases h

/-- Whether something happened with the lock or on the device. -/
def Mark.onDevice {ι : Type} : Mark ι → Bool
  | .sent _ _ => false
  | _ => true

/-- What happened with the lock and on the device. -/
def deviceMarks {ι : Type} (trace : List (Mark ι)) : List (Mark ι) := trace.filter Mark.onDevice

theorem deviceMarks_append {ι : Type} (trace more : List (Mark ι)) :
    deviceMarks (trace ++ more) = deviceMarks trace ++ deviceMarks more := List.filter_append ..

theorem deviceMarks_marks {ι σ : Type} (i : ι) (j : Job) (run : Run σ (Except TagError j.Result)) :
    deviceMarks (j.marks i run) = j.marks i run := by
  refine List.filter_eq_self.2 fun m hm => ?_
  rcases List.mem_append.1 hm with hm | hm
  · obtain ⟨e, -, rfl⟩ := List.mem_map.1 hm
    rfl
  · rw [List.mem_singleton.1 hm]
    rfl

namespace Scene

variable {ι σ : Type} [DecidableEq ι] {d : Daemon σ} {s : Scene ι σ}

/-- What a choice decides about the device. -/
def entries (s : Scene ι σ) : Choice ι σ → List (Entry ι σ)
  | .go i =>
    match s.phase i with
    | .active (.hold _ _) => if s.holder.isSome then [] else [.grant i]
    | _ => []
  | .change f => if s.holder.isSome then [] else [.change f]
  | .drop _ => []

/-- The grants of the lock and the changes of the device, in order. -/
def log (d : Daemon σ) (s : Scene ι σ) : List (Choice ι σ) → List (Entry ι σ)
  | [] => []
  | c :: rest => s.entries c ++ log d (s.turn d c) rest

/-- The scene after what is left of a job. -/
def complete (d : Daemon σ) (s : Scene ι σ) (i : ι) (j : Job)
    (next : Option (Except TagError j.Result → Task)) (rest : Dialog (Except TagError j.Result)) :
    Scene ι σ :=
  let run := rest.run d.bus s.world.bus
  { world := { s.world with bus := run.state }
    holder := none
    phase := Function.update s.phase i (.resume next run.result)
    trace := s.trace ++ j.marks i run }

/-- The scene when who has the lock has given it back. -/
def finish (d : Daemon σ) (s : Scene ι σ) : Scene ι σ :=
  match s.holder with
  | none => s
  | some i =>
    match s.phase i with
    | .holding j rest next => s.complete d i j next rest
    | _ => s

theorem finish_of_none (h : s.holder = none) : s.finish d = s := by
  unfold finish
  rw [h]

theorem finish_of_holding {i : ι} {j : Job} {rest : Dialog (Except TagError j.Result)}
    {next : Option (Except TagError j.Result → Task)} (h : s.holder = some i)
    (hphase : s.phase i = .holding j rest next) : s.finish d = s.complete d i j next rest := by
  unfold finish
  rw [h]
  dsimp only
  rw [hphase]

/-- Two scenes with the same device and the same calls. -/
structure Alike (s t : Scene ι σ) : Prop where
  bus : s.world.bus = t.world.bus
  phase : s.phase = t.phase
  trace : s.trace = t.trace

/-- **A step of the holder does not change what comes out of the hold.** -/
theorem finish_work {i : ι} {j : Job} {rest : Dialog (Except TagError j.Result)}
    {next : Option (Except TagError j.Result → Task)} (h : s.holder = some i) :
    Alike ((s.work d i j next rest).finish d) (s.complete d i j next rest) := by
  cases rest with
  | done result =>
    rw [finish_of_none (show (s.work d i j next (.done result)).holder = none from rfl)]
    exact ⟨rfl, rfl, rfl⟩
  | note notice rest =>
    have hholder : (s.work d i j next (.note notice rest)).holder = some i := h
    rw [finish_of_holding hholder (phase_put ..)]
    exact ⟨rfl, Function.update_idem .., rfl⟩
  | ask request rest =>
    have hholder : (s.work d i j next (.ask request rest)).holder = some i := h
    rw [finish_of_holding hholder (phase_put ..)]
    refine ⟨rfl, Function.update_idem .., ?_⟩
    exact List.append_assoc ..

/-- A job that has come to its result is over. -/
theorem resume_ne_holding {j : Job} (next : Option (Except TagError j.Result → Task))
    (result : Except TagError j.Result) (k : Job) (rest : Dialog (Except TagError k.Result))
    (after : Option (Except TagError k.Result → Task)) :
    Phase.resume next result ≠ .holding k rest after := by
  cases next <;> simp [Phase.resume]

/-- After a step of the holder, it has the lock and is at its job, or neither. -/
theorem holder_work {i : ι} {j : Job} (next : Option (Except TagError j.Result → Task))
    (h : s.holder = some i) (rest : Dialog (Except TagError j.Result)) :
    ((s.work d i j next rest).holder = some i ∧
      ∃ rest', (s.work d i j next rest).phase i = .holding j rest' next) ∨
    ((s.work d i j next rest).holder = none ∧
      ∃ result, (s.work d i j next rest).phase i = .resume next result) := by
  cases rest with
  | done result => exact .inr ⟨rfl, result, phase_put ..⟩
  | note notice rest => exact .inl ⟨h, rest, phase_put ..⟩
  | ask request rest => exact .inl ⟨h, _, phase_put ..⟩

theorem phase_finish_of_ne {i : ι} (h : s.holder ≠ some i) : (s.finish d).phase i = s.phase i := by
  unfold finish
  split
  · rfl
  · next k hk =>
    split
    · refine Function.update_of_ne ?_ _ _
      rintro rfl
      exact h hk
    · rfl

/-! ### Agreement -/

/-- A scene agrees with a sequential execution: only the holder is at its job, and when it has given
the lock back, the state of the bus, what happened on the device, and what is left of each call that
was not dropped are those of the sequential execution. -/
structure Agrees (d : Daemon σ) (s : Scene ι σ) (x : Serial ι σ) : Prop where
  holding : ∀ i j rest next, s.phase i = .holding j rest next → s.holder = some i
  holder : ∀ i, s.holder = some i → ∃ j rest next, s.phase i = .holding j rest next
  bus : (s.finish d).world.bus = x.bus
  marks : deviceMarks (s.finish d).trace = x.holds.flatMap (Hold.marks d)
  left : ∀ i task, (s.finish d).phase i = .active task → task.ready = (x.left i).ready

namespace Agrees

variable {x : Serial ι σ} {i : ι}

theorem ne_holder (h : Agrees d s x) {task : Task} (hphase : s.phase i = .active task) :
    s.holder ≠ some i := by
  intro hi
  obtain ⟨j, rest, next, hholding⟩ := h.holder i hi
  rw [hphase] at hholding
  cases hholding

theorem ready_of_active (h : Agrees d s x) {task : Task} (hphase : s.phase i = .active task) :
    task.ready = (x.left i).ready := by
  refine h.left i task ?_
  rw [phase_finish_of_ne (h.ne_holder hphase)]
  exact hphase

/-- A call without the lock goes elsewhere, and nothing happens on the device. -/
theorem move (h : Agrees d s x) {s' : Scene ι σ} {phase : Phase} (hi : s.holder ≠ some i)
    (hphase : s'.phase = Function.update s.phase i phase)
    (hfree : ∀ j rest next, phase ≠ .holding j rest next) (hholder : s'.holder = s.holder)
    (hbus : s'.world.bus = s.world.bus) (more : List (Mark ι)) (htrace : s'.trace = s.trace ++ more)
    (hmore : deviceMarks more = [])
    (hleft : ∀ task, phase = .active task → task.ready = (x.left i).ready) : Agrees d s' x := by
  have hsame : ∀ k, k ≠ i → s'.phase k = s.phase k := fun k hk => by
    rw [hphase, Function.update_of_ne hk]
  have hself : s'.phase i = phase := by rw [hphase, Function.update_self]
  have hfinish : (s'.finish d).world.bus = (s.finish d).world.bus ∧
      deviceMarks (s'.finish d).trace = deviceMarks (s.finish d).trace ∧
      ∀ k, k ≠ i → (s'.finish d).phase k = (s.finish d).phase k := by
    cases hs : s.holder with
    | none =>
      rw [finish_of_none hs, finish_of_none (hholder.trans hs), htrace, deviceMarks_append, hmore,
        List.append_nil]
      exact ⟨hbus, rfl, hsame⟩
    | some k =>
      have hki : k ≠ i := by
        rintro rfl
        exact hi hs
      obtain ⟨j, rest, next, hk⟩ := h.holder k hs
      rw [finish_of_holding hs hk, finish_of_holding (hholder.trans hs) ((hsame k hki).trans hk)]
      unfold complete
      rw [hbus, htrace, hphase]
      refine ⟨rfl, ?_, fun n hn => ?_⟩
      · simp only [deviceMarks_append, hmore, List.append_nil]
      · change Function.update (Function.update s.phase i phase) k _ n =
          Function.update s.phase k _ n
        rw [Function.update_comm (Ne.symm hki), Function.update_of_ne hn]
  obtain ⟨hfinishBus, hfinishTrace, hfinishPhase⟩ := hfinish
  constructor
  · intro k j rest next hk
    by_cases hki : k = i
    · subst hki
      exact absurd (hself.symm.trans hk) (hfree j rest next)
    · rw [hholder]
      exact h.holding k j rest next ((hsame k hki).symm.trans hk)
  · intro k hk
    rw [hholder] at hk
    have hki : k ≠ i := by
      rintro rfl
      exact hi hk
    rw [hsame k hki]
    exact h.holder k hk
  · exact hfinishBus.trans h.bus
  · exact hfinishTrace.trans h.marks
  · intro k task hk
    by_cases hki : k = i
    · subst hki
      rw [phase_finish_of_ne (by rw [hholder]; exact hi), hself] at hk
      exact hleft task hk
    · exact h.left k task ((hfinishPhase k hki).symm.trans hk)

/-- A call that has the lock goes on with its job. -/
theorem work (h : Agrees d s x) {j : Job} {rest : Dialog (Except TagError j.Result)}
    {next : Option (Except TagError j.Result → Task)} (hi : s.holder = some i)
    (hphase : s.phase i = .holding j rest next) : Agrees d (s.work d i j next rest) x := by
  have halike : Alike ((s.work d i j next rest).finish d) (s.complete d i j next rest) :=
    finish_work hi
  rw [← finish_of_holding hi hphase] at halike
  have hothers : ∀ k, k ≠ i → ∀ j' rest' next',
      (s.work d i j next rest).phase k ≠ .holding j' rest' next' := by
    intro k hk j' rest' next' hholding
    rw [phase_work_of_ne hk] at hholding
    have hboth := (h.holding k j' rest' next' hholding).symm.trans hi
    exact hk (Option.some.inj hboth)
  constructor
  · intro k j' rest' next' hk
    by_cases hki : k = i
    · subst hki
      rcases holder_work (d := d) next hi rest with ⟨hholder, -⟩ | ⟨-, result, hresume⟩
      · exact hholder
      · exact absurd (hresume.symm.trans hk) (resume_ne_holding next result j' rest' next')
    · exact absurd hk (hothers k hki j' rest' next')
  · intro k hk
    rcases holder_work (d := d) next hi rest with ⟨hholder, rest', hrest⟩ | ⟨hholder, -⟩
    · obtain rfl := Option.some.inj (hholder.symm.trans hk)
      exact ⟨j, rest', next, hrest⟩
    · rw [hholder] at hk
      cases hk
  · exact halike.bus.trans h.bus
  · rw [halike.trace]
    exact h.marks
  · intro k task hk
    rw [halike.phase] at hk
    exact h.left k task hk

/-- A call gets the lock and will do its job as the sequential execution does it at once. -/
theorem grant (h : Agrees d s x) {j : Job} {next : Except TagError j.Result → Task}
    (hfree : s.holder = none) (hphase : s.phase i = .active (.hold j next)) :
    Agrees d ((({ s with holder := some i }).put i
      (.holding j (j.attempt d.manager).run (some next))).mark (.granted i j))
        (x.apply d (.grant i)) := by
  have hready : (x.left i).ready = .hold j next := (h.ready_of_active hphase).symm
  have hbus := h.bus
  have hmarks := h.marks
  rw [finish_of_none hfree] at hbus hmarks
  rw [Serial.apply_grant d hready, ← hbus]
  generalize hs' : mark (put _ i _) _ = s'
  have hself : s'.phase i = .holding j (j.attempt d.manager).run (some next) := by
    rw [← hs']
    exact phase_put ..
  have hothers : ∀ k, k ≠ i → s'.phase k = s.phase k := fun k hk => by
    rw [← hs']
    exact Function.update_of_ne hk _ _
  have hholder : s'.holder = some i := by rw [← hs']; rfl
  have hfinish := finish_of_holding (d := d) hholder hself
  constructor
  · intro k j' rest' next' hk
    by_cases hki : k = i
    · exact hki ▸ hholder
    · have hk' := h.holding k j' rest' next' ((hothers k hki).symm.trans hk)
      rw [hfree] at hk'
      cases hk'
  · intro k hk
    obtain rfl := Option.some.inj (hholder.symm.trans hk)
    exact ⟨j, _, _, hself⟩
  · rw [hfinish, ← hs']
    rfl
  · rw [hfinish, ← hs', List.flatMap_append, ← hmarks]
    change deviceMarks ((s.trace ++ [.granted i j]) ++ j.marks i _) = _ ++ (_ ++ [])
    rw [deviceMarks_append, deviceMarks_append, deviceMarks_marks, List.append_nil,
      List.append_assoc]
    rfl
  · intro k task hk
    rw [hfinish] at hk
    by_cases hki : k = i
    · subst hki
      dsimp only [complete] at hk ⊢
      rw [Function.update_self] at hk ⊢
      rw [← hs'] at hk
      cases hk
      rfl
    · dsimp only [complete] at hk ⊢
      rw [Function.update_of_ne hki, hothers k hki] at hk
      rw [Function.update_of_ne hki]
      exact h.ready_of_active hk

/-- The device changes while nobody has the lock. -/
theorem change (h : Agrees d s x) (hfree : s.holder = none) (f : σ → σ) :
    Agrees d { s with world := { s.world with bus := f s.world.bus } } (x.apply d (.change f)) := by
  have hfinish := finish_of_none (d := d) hfree
  have hfinish' : finish d { s with world := { s.world with bus := f s.world.bus } } = _ :=
    finish_of_none hfree
  have hbus := h.bus
  have hmarks := h.marks
  have hleft := h.left
  rw [hfinish] at hbus hmarks hleft
  constructor
  · exact h.holding
  · exact h.holder
  · rw [hfinish']
    exact congrArg f hbus
  · rw [hfinish']
    exact hmarks
  · rw [hfinish']
    exact hleft

/-- What is dropped while it has the lock does its job to the end. -/
theorem drop_holding (h : Agrees d s x) {j : Job} {rest : Dialog (Except TagError j.Result)}
    {next : Option (Except TagError j.Result → Task)} (hphase : s.phase i = .holding j rest next) :
    Agrees d (s.put i (.holding j rest none)) x := by
  have hi := h.holding i j rest next hphase
  have hself : (s.put i (.holding j rest none)).phase i = .holding j rest none := phase_put ..
  have hothers : ∀ k, k ≠ i → (s.put i (.holding j rest none)).phase k = s.phase k :=
    fun k hk => Function.update_of_ne hk _ _
  have hfinish := finish_of_holding (d := d) hi hphase
  have hfinish' := finish_of_holding (d := d) (s := s.put i (.holding j rest none)) hi hself
  constructor
  · intro k j' rest' next' hk
    by_cases hki : k = i
    · exact hki ▸ hi
    · exact h.holding k j' rest' next' ((hothers k hki).symm.trans hk)
  · intro k hk
    obtain rfl := Option.some.inj (hi.symm.trans hk)
    exact ⟨j, rest, none, hself⟩
  · have hbus := h.bus
    rw [hfinish] at hbus
    rw [hfinish']
    exact hbus
  · have hmarks := h.marks
    rw [hfinish] at hmarks
    rw [hfinish']
    exact hmarks
  · intro k task hk
    rw [hfinish'] at hk
    by_cases hki : k = i
    · subst hki
      dsimp only [complete] at hk
      rw [Function.update_self] at hk
      cases hk
    · refine h.left k task ?_
      rw [hfinish]
      dsimp only [complete] at hk ⊢
      rw [Function.update_of_ne hki, hothers k hki] at hk
      rw [Function.update_of_ne hki]
      exact hk

/-- **Each choice keeps the scene in agreement with the sequential execution.** -/
theorem turn (h : Agrees d s x) (c : Choice ι σ) :
    Agrees d (s.turn d c) (x.run d (s.entries c)) := by
  cases c with
  | go i =>
    unfold Scene.turn advance entries
    dsimp only
    cases hphase : s.phase i with
    | dropped => exact h
    | holding j rest next => exact h.work (h.holding i j rest next hphase) hphase
    | active task =>
      cases task with
      | done outcome => exact h
      | note report next =>
        exact h.move (h.ne_holder hphase) rfl nofun rfl rfl [] (List.append_nil _).symm rfl
          fun task htask => by
            cases htask
            exact (h.ready_of_active hphase :)
      | hold j next =>
        dsimp only
        split
        · exact h
        · next hfree => exact h.grant (by simpa using hfree) hphase
      | publish time seen next =>
        exact h.move (h.ne_holder hphase) rfl nofun rfl rfl [.sent i ⟨seen, time⟩] rfl rfl
          fun task htask => by
            cases htask
            exact (h.ready_of_active hphase :)
  | change f =>
    unfold Scene.turn entries
    dsimp only
    split
    · exact h
    · next hfree => exact h.change (by simpa using hfree) f
  | drop i =>
    unfold Scene.turn entries
    dsimp only
    cases hphase : s.phase i with
    | dropped =>
      have hi : s.holder ≠ some i := fun hi => by
        obtain ⟨j, rest, next, hholding⟩ := h.holder i hi
        rw [hphase] at hholding
        cases hholding
      exact h.move hi rfl nofun rfl rfl [] (List.append_nil _).symm rfl nofun
    | holding j rest next => exact h.drop_holding hphase
    | active task =>
      refine h.move (h.ne_holder hphase) rfl ?_ rfl rfl [] (List.append_nil _).symm rfl ?_
      · cases task <;> exact nofun
      · intro left hleft
        -- only what has ended is kept
        cases task with
        | done outcome =>
          cases hleft
          exact h.ready_of_active hphase
        | _ => cases hleft

theorem play (h : Agrees d s x) (choices : List (Choice ι σ)) :
    Agrees d (s.play d choices) (x.run d (s.log d choices)) := by
  induction choices generalizing s x with
  | nil => exact h
  | cons c rest ih =>
    rw [log, Serial.run, List.foldl_append]
    exact ih (h.turn c)

/-- What happened on the device is what the sequential execution does, but for what is left of the
hold of who has the lock. -/
theorem exists_rest (h : Agrees d s x) :
    ∃ rest, deviceMarks s.trace ++ rest = x.holds.flatMap (Hold.marks d) ∧
      (s.holder = none → rest = []) := by
  rw [← h.marks]
  cases hs : s.holder with
  | none =>
    rw [finish_of_none hs]
    exact ⟨[], List.append_nil _, fun _ => rfl⟩
  | some i =>
    obtain ⟨j, rest, next, hphase⟩ := h.holder i hs
    rw [finish_of_holding hs hphase]
    exact ⟨_, (deviceMarks_append ..).symm, nofun⟩

end Agrees

theorem agrees_start (d : Daemon σ) (world : World σ) (calls : ι → Call) :
    Agrees d (start world calls) (Serial.start world.bus calls) where
  holding _ _ _ _ h := by cases h
  holder _ h := by cases h
  bus := rfl
  marks := rfl
  left _ _ h := by
    cases h
    rfl

/-! ### Events -/

/-- What was sent was seen by the call itself. -/
theorem Accounts.ended_of_sent (h : s.Accounts) {i : ι} {change : Change}
    (hsent : .sent i change ∈ s.trace) : .ended i .look (.ok change.sighting) ∈ s.trace := by
  obtain ⟨owed, -, hbooks⟩ := h i
  have hchange : (i, change) ∈ changes s.trace := List.mem_filterMap.2 ⟨.sent i change, hsent, rfl⟩
  have hevent : (i, change.sighting) ∈ among (only i) (events s.trace) :=
    List.mem_filter.2 ⟨List.mem_map_of_mem (f := fun e => (e.1, e.2.sighting)) hchange, only_self i⟩
  have hreading : (i, change.sighting) ∈ among (only i) (readings s.trace) := by
    rw [hbooks]
    exact List.mem_append_left _ hevent
  obtain ⟨m, hm, hreading⟩ := List.mem_filterMap.1 (List.mem_filter.1 hreading).1
  rw [← Mark.eq_of_reading hreading]
  exact hm

/-- What a job ended with is what it comes to in a hold of its own. -/
theorem Agrees.hold_of_ended {x : Serial ι σ} (h : Agrees d s x) {i : ι} {j : Job}
    {result : Except TagError j.Result} (hended : .ended i j result ∈ s.trace) :
    ∃ before, ⟨i, j, before⟩ ∈ x.holds ∧
      ((j.attempt d.manager).run.run d.bus before).result = result := by
  obtain ⟨rest, hmarks, -⟩ := h.exists_rest
  have hmem : .ended i j result ∈ x.holds.flatMap (Hold.marks d) := by
    rw [← hmarks]
    exact List.mem_append_left _ (List.mem_filter.2 ⟨hended, rfl⟩)
  obtain ⟨⟨caller, job, before⟩, hhold, hmark⟩ := List.mem_flatMap.1 hmem
  rcases List.mem_cons.1 hmark with hgranted | hmark
  · cases hgranted
  rcases List.mem_append.1 hmark with hexchanged | hmark
  · obtain ⟨e, -, he⟩ := List.mem_map.1 hexchanged
    cases he
  · cases List.mem_singleton.1 hmark
    exact ⟨before, hhold, rfl⟩

/-! ### The end of a hold -/

/-- Who has the lock gives it back after some steps of its own. -/
theorem exists_release {i : ι} {j : Job} {next : Option (Except TagError j.Result → Task)}
    (rest : Dialog (Except TagError j.Result)) :
    ∀ s : Scene ι σ, s.holder = some i → s.phase i = .holding j rest next →
      ∃ n, (s.play d (List.replicate n (.go i))).holder = none := by
  have hadvance : ∀ (s : Scene ι σ) rest, s.phase i = .holding j rest next →
      s.turn d (.go i) = s.work d i j next rest := by
    intro s rest hphase
    unfold turn advance
    dsimp only
    rw [hphase]
  induction rest with
  | done result =>
    intro s _ hphase
    refine ⟨1, ?_⟩
    change (s.turn d (.go i)).holder = none
    rw [hadvance s _ hphase]
    rfl
  | note notice rest ih =>
    intro s hs hphase
    obtain ⟨n, hn⟩ := ih (s.work d i j next (.note notice rest)) hs (phase_put ..)
    refine ⟨n + 1, ?_⟩
    rw [List.replicate_succ, Scene.play, List.foldl_cons, hadvance s _ hphase]
    exact hn
  | ask request rest ih =>
    intro s hs hphase
    obtain ⟨n, hn⟩ := ih _ (s.work d i j next (.ask request rest)) hs (phase_put ..)
    refine ⟨n + 1, ?_⟩
    rw [List.replicate_succ, Scene.play, List.foldl_cons, hadvance s _ hphase]
    exact hn

/-- **The device is used by one hold after the other**, in every schedule of any calls, of which any
may be dropped. What happened with the lock and on the device is, hold after hold in the order in
which the lock was granted, what each job does alone, but for what is left of a hold that lasts,
which always comes to its end. The state of the bus and what the calls came to are those of the
sequential execution, and what is sent was seen in one hold. -/
theorem serialisable (d : Daemon σ) (world : World σ) (calls : ι → Call)
    (choices : List (Choice ι σ)) :
    let s := (start world calls).play d choices
    let x := (Serial.start world.bus calls).run d ((start world calls).log d choices)
    (∃ rest, deviceMarks s.trace ++ rest = x.holds.flatMap (Hold.marks d) ∧
      (s.holder = none → rest = [])) ∧
    (∀ i, s.holder = some i → ∃ n, (s.play d (List.replicate n (.go i))).holder = none) ∧
    (s.holder = none → s.world.bus = x.bus) ∧
    (∀ i outcome, s.phase i = .active (.done outcome) → (x.left i).ready = .done outcome) ∧
    ∀ i change, .sent i change ∈ s.trace → ∃ before, ⟨i, .look, before⟩ ∈ x.holds ∧
      ((Job.look.attempt d.manager).run.run d.bus before).result = .ok change.sighting := by
  intro s x
  have hagrees : Agrees d s x := (agrees_start d world calls).play choices
  have haccounts : s.Accounts := (accounts_start world calls).play choices
  refine ⟨hagrees.exists_rest, fun i hi => ?_, fun hfree => ?_, fun i outcome hdone => ?_,
    fun i change hsent => hagrees.hold_of_ended (haccounts.ended_of_sent hsent)⟩
  · obtain ⟨j, rest, next, hphase⟩ := hagrees.holder i hi
    exact exists_release rest s hi hphase
  · have hbus := hagrees.bus
    rwa [finish_of_none hfree] at hbus
  · exact (hagrees.ready_of_active hdone).symm

/-- A refresh that is dropped when it has the lock, and one that waits for it meanwhile. -/
def dropped : List (Choice Bool Memory) :=
  [.go false, .go true, .drop false] ++ List.replicate 5 (.go false) ++ List.replicate 7 (.go true)

/-- The refresh that was dropped has looked at the device to the end before the other one has, which
has come to what it comes to after it. -/
theorem serialisable_dropped :
    let s := (start blank refreshes).play attached dropped
    let x := (Serial.start blank.bus refreshes).run attached
      ((start blank refreshes).log attached dropped)
    x.holds.map Hold.caller = [false, true] ∧
      deviceMarks s.trace = x.holds.flatMap (Hold.marks attached) ∧
      ∃ outcome, s.phase true = .active (.done outcome) ∧ (x.left true).ready = .done outcome := by
  intro s x
  obtain ⟨⟨rest, hmarks, hrest⟩, -, -, hdone, -⟩ := serialisable attached blank refreshes dropped
  have hfree : s.holder = none := rfl
  rw [hrest hfree, List.append_nil] at hmarks
  exact ⟨rfl, hmarks, _, rfl, hdone true _ rfl⟩

end Scene

end SpoolTag
