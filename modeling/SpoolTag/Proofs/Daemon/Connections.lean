import SpoolTag.Daemon.Connection
import SpoolTag.Proofs.Daemon.Forwarding
import SpoolTag.Proofs.Daemon.Polling

/-! # A connection at work

A session at work on a connection takes changes before frames. That is one of the orders in which it may
turn to its sources, so that whatever is known of courses is known of connections: `Mirrors` says that what
was published and what the client has got are those of a course. The session at work keeps to it, whether
it is left to itself or goes on while the client reads (`Mirrors.work`, `Mirrors.drain`), and so does
whatever else may happen to the connection (`Life.follows_course`). -/

namespace SpoolTag

namespace Connection

variable {σ : Type} {published : List Change} {got : List Letter} {s : Course} {c : Connection}
  {w : World σ}

/-- A course has sent what the client has got and what is on the way to it, on a channel with the same
changes; and a session at work is where the course is. -/
structure Mirrors (published : List Change) (got : List Letter) (s : Course) (c : Connection)
    (w : World σ) : Prop where
  published : s.published = published ∧ s.closed = false
  letters : s.sent = got ++ c.unread.reverse
  running : c.isOpen = true → s.ended = false ∧ c.receiver = s.receiver
  channel : c.isOpen = true → w.channel = { s.channel with listening := w.channel.listening }

theorem mirrors_accept (capacity : Nat) (w : World σ) :
    Mirrors [] [] (Course.since w.channel) (accept capacity w).1 (accept capacity w).2 :=
  ⟨⟨rfl, rfl⟩, rfl, fun _ => ⟨rfl, rfl⟩, fun _ => rfl⟩

/-! ### The session at work -/

theorem next?_apply (c : Connection) (w : World σ) :
    c.next? w = (match w.channel.receive c.receiver with
      | (.item change, receiver) => some (.change change, { c with receiver })
      | (.lagged missed, receiver) => some (.lagged missed, { c with receiver })
      | (.nothing, _) =>
        match c.inbox with
        | f :: inbox => some (meet f, { c with inbox })
        | [] => if c.cut then some (.fault .cut, c) else none, w) := by
  have hreceive : Daemon.receive c.receiver w = (w.channel.receive c.receiver, w) := rfl
  unfold next?
  rw [Act.bind_apply, hreceive]
  rcases w.channel.receive c.receiver with ⟨_ | _ | _, receiver⟩
  · rfl
  · rfl
  · cases c.inbox <;> rfl

/-- A frame is met as it is, or as a fault. -/
theorem meet_eq (f : Frame) : ∃ item, meet f = .ofClient item := by
  have hcontrol (payload : List UInt8) :
      ∃ item, (if 125 < payload.length then .fault .controlTooBig else .frame f) =
        Encounter.ofClient item := by
    split
    · exact ⟨some (.error .controlTooBig), rfl⟩
    · exact ⟨some (.ok f), rfl⟩
  cases f with
  | ping payload | pong payload => exact hcontrol payload
  | text s => exact ⟨some (.ok (.text s)), rfl⟩
  | binary bytes => exact ⟨some (.ok (.binary bytes)), rfl⟩
  | close => exact ⟨some (.ok .close), rfl⟩

/-- **What the session meets next** is what a turn of the course meets. -/
theorem Mirrors.next (h : Mirrors published got s c w) (hopen : c.isOpen = true) :
    c.next? w = (none, w) ∨ ∃ e next turn, c.next? w = (some (e, next), w) ∧
      next.unread = c.unread ∧ s.turn turn = { s with receiver := next.receiver }.react e true := by
  obtain ⟨hended, hreceiver⟩ := h.running hopen
  have hrunning := Bool.eq_false_iff.1 hended
  have htake (item : Option (Except SocketFault Frame)) :
      s.turn (.take item true) = { s with receiver := c.receiver }.react (.ofClient item) true := by
    rw [hreceiver]
    exact if_neg hrunning
  have hhear : s.turn (.hear true) = s.hear true := if_neg hrunning
  have hsame : w.channel.receive c.receiver = s.channel.receive s.receiver := by
    rw [h.channel hopen, hreceiver]
    rfl
  rw [next?_apply, hsame]
  unfold Course.hear at hhear
  rcases hreceive : s.channel.receive s.receiver with ⟨change | missed | _, receiver⟩
  · rw [hreceive] at hhear
    exact .inr ⟨.change change, { c with receiver }, .hear true, rfl, rfl, hhear⟩
  · rw [hreceive] at hhear
    exact .inr ⟨.lagged missed, { c with receiver }, .hear true, rfl, rfl, hhear⟩
  · -- nothing is on the channel, so it is the client's turn
    cases hinbox : c.inbox with
    | cons f inbox =>
      obtain ⟨item, hitem⟩ := meet_eq f
      exact .inr ⟨meet f, { c with inbox }, .take item true, rfl, rfl, hitem ▸ htake item⟩
    | nil =>
      cases hcut : c.cut with
      | true => exact .inr ⟨.fault .cut, c, .take (some (.error .cut)) true, rfl, rfl, htake _⟩
      | false => exact .inl rfl

/-- What the connection does about something it met is what the course does when sending works. -/
theorem Mirrors.react (h : Mirrors published got s c w) (hopen : c.isOpen = true) {next : Connection}
    (hunread : next.unread = c.unread) (e : Encounter) :
    Mirrors published got ({ s with receiver := next.receiver }.react e true)
      (next.react (Session.respond e) w).1 (next.react (Session.respond e) w).2 := by
  obtain ⟨hended, -⟩ := h.running hopen
  obtain ⟨hletter, hends⟩ := Session.respond_eq e
  have hletters := h.letters
  unfold Connection.react
  rw [Act.bind_apply, Watcher.forM_report, hletter, hends, Course.react_eq]
  unfold Encounter.stops
  cases e.ends with
  | true =>
    refine ⟨h.published, ?_, (fun hopen => by cases hopen), fun hopen => by cases hopen⟩
    change s.sent ++ [] = got ++ next.unread.reverse
    rw [hunread, List.append_nil, hletters]
  | false =>
    have hstill : (s.ended || (false || e.answer?.isSome && !true)) = false := by simp [hended]
    cases hanswer : e.answer? with
    | none =>
      rw [hanswer] at hstill
      refine ⟨h.published, ?_, fun _ => ⟨hstill, rfl⟩, fun _ => h.channel hopen⟩
      change s.sent ++ [] = got ++ next.unread.reverse
      rw [hunread, List.append_nil, hletters]
    | some letter =>
      rw [hanswer] at hstill
      refine ⟨h.published, ?_, fun _ => ⟨hstill, rfl⟩, fun _ => h.channel hopen⟩
      change s.sent ++ [letter] = got ++ (letter :: next.unread).reverse
      rw [hunread, hletters, List.reverse_cons, List.append_assoc]

/-- **A session at work follows a course.** -/
theorem Mirrors.work (fuel : Nat) (h : Mirrors published got s c w) :
    ∃ turns, Mirrors published got (s.play turns) (c.work fuel w).1 (c.work fuel w).2 := by
  induction fuel generalizing s c w with
  | zero => exact ⟨[], h⟩
  | succ fuel ih =>
    have hfinish : Mirrors published got (s.play []) (c.finish w).1 (c.finish w).2 :=
      ⟨h.published, h.letters, (fun hopen => by cases hopen), fun hopen => by cases hopen⟩
    unfold Connection.work
    by_cases hopen : c.isOpen = true
    · rw [if_neg (not_not_intro hopen)]
      by_cases hstuck : c.isStuck = true
      · rw [if_pos hstuck]
        split
        · exact ⟨[], hfinish⟩
        · exact ⟨[], h⟩
      · rw [if_neg hstuck, Act.bind_apply]
        rcases h.next hopen with hnone | ⟨e, next, turn, hmeets, hunread, hturn⟩
        · rw [hnone]
          exact ⟨[], h⟩
        · rw [hmeets]
          have hreact := h.react hopen hunread e
          rw [← hturn] at hreact
          obtain ⟨turns, hturns⟩ := ih hreact
          exact ⟨turn :: turns, hturns⟩
    · rw [if_pos hopen]
      exact ⟨[], h⟩

theorem Mirrors.settle (h : Mirrors published got s c w) :
    ∃ turns, Mirrors published got (s.play turns) (c.settle w).1 (c.settle w).2 := h.work _

/-- **It goes on following it while the client reads.** -/
theorem Mirrors.drain (fuel : Nat) (h : Mirrors published got s c w) :
    ∃ turns, Mirrors published (got ++ (read.drain fuel c w).1.1) (s.play turns)
      (read.drain fuel c w).1.2 (read.drain fuel c w).2 := by
  induction fuel generalizing got s c w with
  | zero => exact ⟨[], (List.append_nil got).symm ▸ h⟩
  | succ fuel ih =>
    unfold read.drain
    by_cases hnone : c.unread.reverse = []
    · rw [if_pos hnone]
      exact ⟨[], (List.append_nil got).symm ▸ h⟩
    · rw [if_neg hnone]
      have hread : Mirrors published (got ++ c.unread.reverse) s { c with unread := [], pending := 0 } w :=
        ⟨h.published, by rw [h.letters]; simp, h.running, h.channel⟩
      obtain ⟨turns, hsettle⟩ := hread.settle
      obtain ⟨later, hlater⟩ := ih hsettle
      refine ⟨turns ++ later, ?_⟩
      rw [List.append_assoc] at hlater
      rw [Course.play_append]
      exact hlater

end Connection

/-! ### All that happens -/

/-- A connection, the world around it, and what its client has read. -/
structure Life (σ : Type) where
  connection : Connection
  world : World σ
  got : List Letter := []
  published : List Change := []

/-- Something that happens to a connection. -/
inductive Life.Step (σ : Type) where
  | publish (c : Change)
  /-- Something else happens in the world, and other clients may come and go. -/
  | world (bus : σ) (reports : List Report) (listening : Nat)
  | frame (f : Frame)
  /-- The client cuts the connection. -/
  | cut
  | settle
  | read

namespace Life

variable {σ : Type}

def accepted (capacity : Nat) (w : World σ) : Life σ where
  connection := (Connection.accept capacity w).1
  world := (Connection.accept capacity w).2

def turn (l : Life σ) : Step σ → Life σ
  | .publish c =>
    { l with
      world := { l.world with channel := l.world.channel.send c }
      published := l.published ++ [c] }
  | .world bus reports listening =>
    { l with world := ⟨bus, { l.world.channel with listening }, reports⟩ }
  | .frame f => { l with connection := l.connection.send f }
  | .cut => { l with connection := { l.connection with cut := true } }
  | .settle =>
    let after := l.connection.settle l.world
    { l with connection := after.1, world := after.2 }
  | .read =>
    let after := l.connection.read l.world
    { l with connection := after.1.2, world := after.2, got := l.got ++ after.1.1 }

/-- A course has sent what the client has got and what is on the way to it. -/
def Follows (l : Life σ) (s : Course) : Prop :=
  l.connection.Mirrors l.published l.got s l.world

theorem Follows.turn {l : Life σ} {s : Course} (h : l.Follows s) (step : Step σ) :
    ∃ turns, (l.turn step).Follows (s.play turns) := by
  cases step with
  | publish c =>
    have hpublish : s.turn (.publish c) =
        { s with channel := s.channel.send c, published := s.published ++ [c] } :=
      if_neg (Bool.eq_false_iff.1 h.published.2)
    refine ⟨[.publish c], ?_⟩
    change Connection.Mirrors _ _ (s.turn (.publish c)) _ _
    rw [hpublish]
    refine ⟨⟨congrArg (· ++ [c]) h.published.1, h.published.2⟩, h.letters, h.running, fun hopen => ?_⟩
    change l.world.channel.send c = _
    rw [h.channel hopen]
    rfl
  | world bus reports listening =>
    refine ⟨[], h.published, h.letters, h.running, fun hopen => ?_⟩
    change { l.world.channel with listening } = _
    rw [h.channel hopen]
    rfl
  | frame f =>
    refine ⟨[], ?_⟩
    change Connection.Mirrors _ _ s (l.connection.send f) _
    unfold Connection.send
    split
    · exact ⟨h.published, h.letters, h.running, h.channel⟩
    · exact h
  | cut => exact ⟨[], h.published, h.letters, h.running, h.channel⟩
  | settle => exact h.settle
  | read => exact h.drain _

theorem Follows.run {l : Life σ} {s : Course} (h : l.Follows s) (steps : List (Step σ)) :
    ∃ turns, (steps.foldl Life.turn l).Follows (s.play turns) := by
  induction steps generalizing l s with
  | nil => exact ⟨[], h⟩
  | cons step rest ih =>
    obtain ⟨turns, hturn⟩ := h.turn step
    obtain ⟨later, hlater⟩ := ih hturn
    refine ⟨turns ++ later, ?_⟩
    rw [Course.play_append]
    exact hlater

/-- **Whatever happens to a connection**, its client gets what a course sends, in which the same changes
are published: all that holds of the letters of courses holds of those that it gets. -/
theorem follows_course (capacity : Nat) (w : World σ) (steps : List (Step σ)) :
    ∃ turns, let l := steps.foldl turn (accepted capacity w)
      let s := (Course.since w.channel).play turns
      s.published = l.published ∧ s.sent = l.got ++ l.connection.unread.reverse := by
  have haccepted : (accepted capacity w).Follows (Course.since w.channel) :=
    Connection.mirrors_accept capacity w
  obtain ⟨turns, h⟩ := haccepted.run steps
  exact ⟨turns, h.published.1, h.letters⟩

end Life

/-! ### Sessions -/

namespace Course

/-- **A session forwards everything in order**, and nothing else. Its messages are the answers to what it
meets, one after the other, up to the first thing that ends it. So it is whatever is published since it
subscribed, however it turns to the channel and to its client and whenever sending fails: there is one
letter for each change that was received, one for each ping, and none for anything else, and nothing is
met or sent after the end. The changes are received as they were published: each one is the next, but for
those that a lag notice stands for, and a lag does not end the session. And whatever happens to a
connection, its client gets what such a session sends. -/
theorem forwards_in_order (channel : Channel Change) (turns : List Turn) :
    let s := (since channel).play turns
    (∀ l, Session.messages l =
      (l.takeWhile fun x => !x.1.stops x.2).filterMap fun x => x.1.answer?) ∧
    s.sent = Session.messages s.met ∧
    (∃ handled ending, s.met = handled ++ ending ∧ (∀ x ∈ handled, x.1.stops x.2 = false) ∧
      (if s.ended then ∃ e works, ending = [(e, works)] ∧ e.stops works = true else ending = []) ∧
      s.sent = handled.filterMap (fun x => x.1.answer?) ∧
      s.sent.filter Letter.isChange = (changes handled).map Letter.ofChange) ∧
    (∃ seen pending, s.published = seen ++ pending ∧ TellsOf s.met seen ∧
      (changes s.met).Sublist seen ∧
      ((∀ n works, (.lagged n, works) ∉ s.met) → changes s.met = seen) ∧
      (s.ended = false → ∀ works, (s.turn (.hear works)).met = s.met ++
        pending.head?.elim (if s.closed then [(.channelClosed, works)] else []) fun c =>
          if pending.length ≤ Channel.capacity then [(.change c, works)]
          else [(.lagged (pending.length - Channel.capacity), works)])) ∧
    (s.ended = false → ∀ item works,
      (s.turn (.take item works)).met = s.met ++ [(.ofClient item, works)]) ∧
    (s.ended = true → ∀ more, (s.play more).met = s.met ∧ (s.play more).sent = s.sent) ∧
    ∀ (σ : Type) (capacity : Nat) (w : World σ) (steps : List (Life.Step σ)), w.channel = channel →
      ∃ turns, let l := steps.foldl Life.turn (Life.accepted capacity w)
        let s := (since channel).play turns
        s.published = l.published ∧ s.sent = l.got ++ l.connection.unread.reverse := by
  intro s
  have h : s.Orderly channel.sent := (orderly_since channel).play turns
  refine ⟨Session.messages_eq, h.sent, ?_, ?_, met_take, play_of_ended, ?_⟩
  · obtain ⟨handled, ending, hmet, hgoes, hending, hsent⟩ := h.met_eq
    refine ⟨handled, ending, hmet, hgoes, hending, hsent, ?_⟩
    rw [hsent, List.filter_filterMap, changes, List.map_filterMap]
    exact List.filterMap_congr fun x _ => x.1.answer?_filter
  · obtain ⟨seen, pending, hpublished, htells, hreceiver⟩ := h.passed
    exact ⟨seen, pending, hpublished, htells, htells.sublist, htells.eq_of_not_lagged,
      met_hear (hpublished ▸ h.channel) hreceiver⟩
  · rintro σ capacity w steps rfl
    exact Life.follows_course capacity w steps

/-- A session that lags by one change, with pings before and after, and a frame after the end. -/
theorem forwards_around_lag :
    let first : Change := ⟨⟨⟨true, true⟩, some ⟨4, "ASA", 200, 1000, .empty⟩⟩, "1"⟩
    let last : Change := ⟨⟨⟨false, false⟩, none⟩, "2"⟩
    let turns : List Turn := [.publish first, .take (some (.ok (.ping [7]))) true, .hear true] ++
      List.replicate 129 (.publish last) ++
        [.hear true, .take (some (.ok (.text "ping"))) true, .take (some (.ok (.binary [1]))) true,
          .hear true, .take (some (.ok .close)) true]
    let s := (since {}).play turns
    s.sent = [.pong [7], .ofChange first, .text "\x7b\"type\":\"pong\"\x7d", .ofChange last] ∧
      ∀ more, (s.play more).sent = s.sent := by
  intro first last turns s
  have hmet : s.met = [(.frame (.ping [7]), true), (.change first, true), (.lagged 1, true),
      (.frame (.text "ping"), true), (.frame (.binary [1]), true), (.change last, true),
      (.frame .close, true)] := by decide +kernel
  have hended : s.ended = true := by decide +kernel
  obtain ⟨hmessages, hsent, -, -, -, hend, -⟩ := forwards_in_order {} turns
  refine ⟨?_, fun more => (hend hended more).2⟩
  rw [hsent, hmet, hmessages]
  rfl

end Course

end SpoolTag
