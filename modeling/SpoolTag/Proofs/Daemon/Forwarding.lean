import SpoolTag.Daemon.Session
import SpoolTag.Proofs.Daemon.Feed

/-! # What a session forwards

A session takes from two sources, the channel and its client, and when both have something it may turn to
either. A `Course` is what happens in some such order, with what is published on the channel meanwhile;
whether sending works is different each time. Kept beside the session are the changes that were published
since it subscribed, and what it met.

What the session met tells what it has passed on the channel (`TellsOf`): a change is the next one that was
published, and a lag notice stands for just as many as it says. Nothing else moves it on there, so however
frames come in between, the changes are met in the order in which they were published. What is sent is said
by a table (`Encounter.answer?`), one thing met after the other, up to the first that ends the session. -/

namespace SpoolTag

open SpoolTag.Json

/-! ### The channel -/

namespace Channel

variable {α : Type} {first : Nat} {items seen pending : List α} {c : Channel α}

/-- The channel carries these items, and no more are kept than there is room for. -/
structure Retains (first : Nat) (items : List α) (c : Channel α) : Prop extends
    c.Carries first items where
  room : items ≠ [] → c.kept.length ≤ capacity

theorem Retains.send (h : c.Retains first items) (a : α) :
    (c.send a).Retains first (items ++ [a]) where
  toCarries := h.toCarries.send a
  room _ := List.length_take_le _ _

/-- **What a receiver gets**, however far it is behind: the next item if that is kept, and otherwise the
number of those that are not. -/
theorem Retains.receive (h : c.Retains first (seen ++ pending)) :
    c.receive ⟨first + seen.length⟩ =
      pending.head?.elim (.nothing, ⟨first + seen.length⟩) fun a =>
        if pending.length ≤ capacity then (.item a, ⟨first + seen.length + 1⟩)
        else (.lagged (pending.length - capacity),
          ⟨first + seen.length + (pending.length - capacity)⟩) := by
  have hlength : (seen ++ pending).length = seen.length + pending.length := List.length_append
  have hnear : pending.length ≤ capacity → c.receive ⟨first + seen.length⟩ = _ := fun hle =>
    h.toCarries.receive (by omega) (by omega)
  rw [List.getElem?_append_right (Nat.le_refl _), Nat.sub_self] at hnear
  cases pending with
  | nil => exact hnear (Nat.zero_le _)
  | cons a rest =>
    rw [List.head?_cons, Option.elim_some]
    split
    · next hle => exact hnear hle
    · next hgt =>
      have hsent := h.sent
      have hroom := h.room (List.append_ne_nil_of_right_ne_nil seen (List.cons_ne_nil a rest))
      have hkept := h.kept.length_le
      rw [List.length_take, List.length_reverse] at hkept
      have holdest : c.oldest = first + seen.length + ((a :: rest).length - capacity) := by
        unfold oldest
        omega
      unfold Channel.receive
      rw [if_neg (show ¬ c.sent ≤ first + seen.length by omega),
        if_pos (show first + seen.length < c.oldest by omega), holdest, Nat.add_sub_cancel_left]

end Channel

/-! ### What a client is sent -/

/-- How the text that tells of a change begins. -/
def Letter.changeHead : String := "\x7b\"type\":\"filaman:filament_changed\",\"data\":"

/-- The letter that tells of a change: its type, and its data. -/
def Letter.ofChange (c : Change) : Letter := .text (changeHead ++ c.text ++ "\x7d")

/-- Whether the letter begins like one that tells of a change. -/
def Letter.isChange : Letter → Bool
  | .text s => changeHead.toList.isPrefixOf s.toList
  | .pong _ => false

theorem Letter.isChange_ofChange (c : Change) : (Letter.ofChange c).isChange = true := by
  unfold ofChange isChange
  rw [List.isPrefixOf_iff_prefix, String.toList_append, String.toList_append, List.append_assoc]
  exact List.prefix_append _ _

namespace Encounter

/-- What a client is sent for something that its session meets. -/
def answer? : Encounter → Option Letter
  | .change c => some (.ofChange c)
  | .frame (.text s) => if s = "ping" then some (.text "\x7b\"type\":\"pong\"\x7d") else none
  | .frame (.ping payload) => some (.pong payload)
  | _ => none

/-- Whether a session ends with it, whatever can be sent. -/
def ends : Encounter → Bool
  | .frame .close | .ended | .fault _ | .channelClosed => true
  | _ => false

/-- Whether a session ends with it when sending works or does not work. -/
def stops (e : Encounter) (works : Bool) : Bool := e.ends || (e.answer?.isSome && !works)

def change? : Encounter → Option Change
  | .change c => some c
  | _ => none

theorem answer?_filter (e : Encounter) :
    e.answer?.filter Letter.isChange = e.change?.map Letter.ofChange := by
  cases e with
  | change c => exact Option.filter_some_pos (Letter.isChange_ofChange c)
  | lagged missed | channelClosed | fault f | ended => rfl
  | frame f =>
    cases f with
    | text s =>
      have hpong : Letter.isChange (.text "\x7b\"type\":\"pong\"\x7d") = false := by decide
      by_cases hping : s = "ping"
      · subst hping
        exact Option.filter_some_neg hpong
      · rw [show (Encounter.frame (.text s)).answer? = none from if_neg hping]
        rfl
    | binary bytes | ping payload | pong payload | close => rfl

end Encounter

namespace Session

theorem changeText_eq (c : Change) : Letter.text (changeText c) = .ofChange c := by
  have hhead : Letter.changeHead.toList = '{' :: (quote "type" ++ ':' ::
      (quote Change.notification ++ ',' :: (quote "data" ++ [':']))) := by
    decide
  refine congrArg Letter.text (String.toList_inj.1 ?_)
  rw [changeText, String.toList_append, String.toList_append, hhead, Change.text, String.toList_ofList,
    String.toList_ofList]
  simp [Document.text, Document.membersText]

theorem pongText_eq : pongText = "\x7b\"type\":\"pong\"\x7d" := by
  decide

theorem respond_eq (e : Encounter) :
    (respond e).letter = e.answer? ∧ (respond e).ends = e.ends := by
  cases e with
  | change c => exact ⟨congrArg some (changeText_eq c), rfl⟩
  | lagged missed => exact ⟨rfl, rfl⟩
  | channelClosed => exact ⟨rfl, rfl⟩
  | fault f => exact ⟨rfl, rfl⟩
  | ended => exact ⟨rfl, rfl⟩
  | frame f =>
    cases f with
    | text s =>
      refine ⟨?_, rfl⟩
      change (if s = "ping" then some (Letter.text pongText) else none) = _
      rw [pongText_eq]
      rfl
    | binary bytes => exact ⟨rfl, rfl⟩
    | ping payload => exact ⟨rfl, rfl⟩
    | pong payload => exact ⟨rfl, rfl⟩
    | close => exact ⟨rfl, rfl⟩

/-- **The messages of a session** are the answers to what it meets up to the first that ends it. -/
theorem messages_eq (l : List (Encounter × Bool)) :
    messages l = (l.takeWhile fun x => !x.1.stops x.2).filterMap fun x => x.1.answer? := by
  induction l with
  | nil => rfl
  | cons x rest ih =>
    obtain ⟨e, works⟩ := x
    obtain ⟨hletter, hends⟩ := respond_eq e
    rw [messages, hletter, hends, ih, List.takeWhile_cons]
    unfold Encounter.stops
    cases hanswer : e.answer? <;> cases e.ends <;> cases works <;> simp [hanswer]

theorem messages_append {l : List (Encounter × Bool)} (hl : ∀ x ∈ l, x.1.stops x.2 = false)
    (more : List (Encounter × Bool)) :
    messages (l ++ more) = (l.filterMap fun x => x.1.answer?) ++ messages more := by
  have hall : ∀ x ∈ l, (!x.1.stops x.2) = true := fun x hx => by rw [hl x hx]; rfl
  rw [messages_eq, messages_eq, List.takeWhile_append_of_pos hall, List.filterMap_append]

theorem messages_of_goes {l : List (Encounter × Bool)} (hl : ∀ x ∈ l, x.1.stops x.2 = false) :
    messages l = l.filterMap fun x => x.1.answer? := by
  simpa [messages] using messages_append hl []

theorem messages_snoc {l : List (Encounter × Bool)} (hl : ∀ x ∈ l, x.1.stops x.2 = false)
    (e : Encounter) (works : Bool) :
    messages (l ++ [(e, works)]) =
      messages l ++ if e.stops works then [] else e.answer?.toList := by
  rw [messages_append hl, messages_of_goes hl, messages_eq [(e, works)], List.takeWhile_cons]
  cases e.stops works <;> cases h : e.answer? <;> simp [h]

end Session

/-! ### Courses -/

/-- What happens next. -/
inductive Course.Turn where
  | publish (c : Change)
  /-- Nothing will be published any more. -/
  | close
  /-- The session turns to the channel. -/
  | hear (works : Bool)
  /-- The session turns to the client, where there is a frame, a fault or the end. -/
  | take (item : Option (Except SocketFault Frame)) (works : Bool)

/-- A session since it subscribed, with what was published on the channel, what the session met, each with
whether sending worked, and what it sent. -/
structure Course where
  channel : Channel Change
  receiver : Receiver
  closed : Bool := false
  published : List Change := []
  met : List (Encounter × Bool) := []
  sent : List Letter := []
  ended : Bool := false

/-- What a session meets when it turns to the client. -/
def Encounter.ofClient : Option (Except SocketFault Frame) → Encounter
  | some (.ok f) => .frame f
  | some (.error f) => .fault f
  | none => .ended

namespace Course

/-- A session subscribes. -/
def since (channel : Channel Change) : Course where
  channel := channel.subscribe.2
  receiver := channel.subscribe.1

/-- The session does what it does about something it met. -/
def react (s : Course) (e : Encounter) (works : Bool) : Course :=
  let reaction := Session.respond e
  let s := { s with met := s.met ++ [(e, works)] }
  if reaction.ends then { s with ended := true }
  else
    match reaction.letter with
    | none => s
    | some letter =>
      if works then { s with sent := s.sent ++ [letter] } else { s with ended := true }

/-- The session takes what there is on the channel. -/
def hear (s : Course) (works : Bool) : Course :=
  match s.channel.receive s.receiver with
  | (.item c, receiver) => { s with receiver }.react (.change c) works
  | (.lagged missed, receiver) => { s with receiver }.react (.lagged missed) works
  | (.nothing, _) => if s.closed then s.react .channelClosed works else s

def turn (s : Course) : Turn → Course
  | .publish c =>
    if s.closed then s
    else { s with channel := s.channel.send c, published := s.published ++ [c] }
  | .close => { s with closed := true }
  | .hear works => if s.ended then s else s.hear works
  | .take item works => if s.ended then s else s.react (.ofClient item) works

def play (s : Course) (turns : List Turn) : Course := turns.foldl turn s

theorem play_append (s : Course) (turns more : List Turn) :
    s.play (turns ++ more) = (s.play turns).play more := List.foldl_append

/-- The changes among what was met, in order. -/
def changes (met : List (Encounter × Bool)) : List Change := met.filterMap fun x => x.1.change?

variable {s : Course} {first : Nat}

theorem react_eq (s : Course) (e : Encounter) (works : Bool) :
    s.react e works =
      { s with
        met := s.met ++ [(e, works)]
        sent := s.sent ++ if e.stops works then [] else e.answer?.toList
        ended := s.ended || e.stops works } := by
  obtain ⟨hletter, hends⟩ := Session.respond_eq e
  unfold react Encounter.stops
  dsimp only
  rw [hletter, hends]
  cases e.answer? <;> cases e.ends <;> cases works <;> simp

/-! ### What was passed on the channel -/

/-- What was met tells of these changes: each that was met of itself, and a lag notice of as many as it
says. -/
inductive TellsOf : List (Encounter × Bool) → List Change → Prop
  | nil : TellsOf [] []
  | change {met : List (Encounter × Bool)} {seen : List Change} (h : TellsOf met seen) (c : Change)
      (works : Bool) : TellsOf (met ++ [(.change c, works)]) (seen ++ [c])
  | lagged {met : List (Encounter × Bool)} {seen : List Change} (h : TellsOf met seen)
      (missed : List Change) (works : Bool) :
      TellsOf (met ++ [(.lagged missed.length, works)]) (seen ++ missed)
  | frame {met : List (Encounter × Bool)} {seen : List Change} (h : TellsOf met seen)
      (item : Option (Except SocketFault Frame)) (works : Bool) :
      TellsOf (met ++ [(.ofClient item, works)]) seen
  | closed {met : List (Encounter × Bool)} {seen : List Change} (h : TellsOf met seen) (works : Bool) :
      TellsOf (met ++ [(.channelClosed, works)]) seen

namespace TellsOf

variable {met : List (Encounter × Bool)} {seen : List Change}

theorem change?_ofClient (item : Option (Except SocketFault Frame)) :
    (Encounter.ofClient item).change? = none := by
  rcases item with _ | _ | _ <;> rfl

theorem changes_snoc (met : List (Encounter × Bool)) (x : Encounter × Bool) :
    changes (met ++ [x]) = changes met ++ x.1.change?.toList := by
  unfold changes
  rw [List.filterMap_append]
  cases h : x.1.change? <;> simp [h]

/-- The changes that were met are some of those that were passed, in the same order. -/
theorem sublist (h : TellsOf met seen) : (changes met).Sublist seen := by
  induction h with
  | nil => exact List.Sublist.refl []
  | change _ c works ih =>
    rw [changes_snoc]
    exact ih.append (List.Sublist.refl [c])
  | lagged _ missed works ih =>
    rw [changes_snoc]
    exact ih.append (List.nil_sublist missed)
  | frame _ item works ih =>
    rw [changes_snoc, change?_ofClient]
    exact (List.append_nil _).symm ▸ ih
  | closed _ works ih =>
    rw [changes_snoc]
    exact (List.append_nil _).symm ▸ ih

/-- Without a lag they are all of them. -/
theorem eq_of_not_lagged (h : TellsOf met seen) (hlag : ∀ n works, (.lagged n, works) ∉ met) :
    changes met = seen := by
  induction h with
  | nil => rfl
  | change _ c works ih =>
    rw [changes_snoc, ih fun n works hmem => hlag n works (List.mem_append_left _ hmem)]
    rfl
  | lagged _ missed works ih =>
    exact absurd (List.mem_append_right _ List.mem_cons_self) (hlag missed.length works)
  | frame _ item works ih =>
    rw [changes_snoc, change?_ofClient, ih fun n works hmem => hlag n works (List.mem_append_left _ hmem)]
    exact List.append_nil _
  | closed _ works ih =>
    rw [changes_snoc, ih fun n works hmem => hlag n works (List.mem_append_left _ hmem)]
    exact List.append_nil _

end TellsOf

/-! ### What happens keeps the order -/

/-- The channel retains what was published, the session has passed the beginning of it, and it has met
nothing after what ended it. -/
structure Orderly (first : Nat) (s : Course) : Prop where
  channel : s.channel.Retains first s.published
  passed : ∃ seen pending, s.published = seen ++ pending ∧ TellsOf s.met seen ∧
    s.receiver = ⟨first + seen.length⟩
  goes : ∀ x ∈ s.met.dropLast, x.1.stops x.2 = false
  ended : s.ended = s.met.any fun x => x.1.stops x.2
  sent : s.sent = Session.messages s.met

theorem orderly_since (channel : Channel Change) : (since channel).Orderly channel.sent where
  channel := ⟨⟨rfl, List.nil_prefix⟩, fun h => absurd rfl h⟩
  passed := ⟨[], [], rfl, .nil, rfl⟩
  goes x hx := by cases hx
  ended := rfl
  sent := rfl

/-- A session that goes on has not met anything that ends it. -/
theorem Orderly.goes_of_not_ended (h : s.Orderly first) (hended : s.ended = false) :
    ∀ x ∈ s.met, x.1.stops x.2 = false := by
  have hany := h.ended.symm.trans hended
  rw [List.any_eq_false] at hany
  exact fun x hx => Bool.eq_false_iff.2 (hany x hx)

/-- **What a session does about one thing** keeps the order, if that tells where the session is then. -/
theorem Orderly.react (h : s.Orderly first) (hended : s.ended = false) {receiver : Receiver}
    {e : Encounter} {works : Bool} {seen pending : List Change}
    (hpublished : s.published = seen ++ pending) (htells : TellsOf (s.met ++ [(e, works)]) seen)
    (hreceiver : receiver = ⟨first + seen.length⟩) :
    ({ s with receiver }.react e works).Orderly first := by
  have hgoes := h.goes_of_not_ended hended
  rw [react_eq]
  refine ⟨h.channel, ⟨seen, pending, hpublished, htells, hreceiver⟩, ?_, ?_, ?_⟩
  · change ∀ x ∈ (s.met ++ [(e, works)]).dropLast, _
    rw [List.dropLast_concat]
    exact hgoes
  · change (s.ended || _) = (s.met ++ [(e, works)]).any _
    rw [List.any_append, ← h.ended]
    simp
  · change s.sent ++ _ = _
    rw [h.sent]
    exact (Session.messages_snoc hgoes e works).symm

/-- **What a session meets on the channel**: the next change if that is kept, and otherwise how many are
not; and the end when nothing is to come. -/
theorem hear_eq {seen pending : List Change} (hchannel : s.channel.Retains first (seen ++ pending))
    (hreceiver : s.receiver = ⟨first + seen.length⟩) (works : Bool) :
    s.hear works =
      pending.head?.elim (if s.closed then s.react .channelClosed works else s) fun c =>
        if pending.length ≤ Channel.capacity then
          { s with receiver := ⟨first + seen.length + 1⟩ }.react (.change c) works
        else
          { s with receiver := ⟨first + seen.length + (pending.length - Channel.capacity)⟩ }.react
            (.lagged (pending.length - Channel.capacity)) works := by
  unfold hear
  rw [hreceiver, hchannel.receive]
  cases pending with
  | nil => rfl
  | cons c rest =>
    rw [List.head?_cons, Option.elim_some, Option.elim_some]
    by_cases hle : (c :: rest).length ≤ Channel.capacity
    · rw [if_pos hle, if_pos hle]
    · rw [if_neg hle, if_neg hle]

/-- A session that goes on meets what there is on the channel. -/
theorem met_hear {seen pending : List Change} (hchannel : s.channel.Retains first (seen ++ pending))
    (hreceiver : s.receiver = ⟨first + seen.length⟩) (hended : s.ended = false) (works : Bool) :
    (s.turn (.hear works)).met = s.met ++
      pending.head?.elim (if s.closed then [(.channelClosed, works)] else []) fun c =>
        if pending.length ≤ Channel.capacity then [(.change c, works)]
        else [(.lagged (pending.length - Channel.capacity), works)] := by
  have hturn : s.turn (.hear works) = s.hear works := if_neg (Bool.eq_false_iff.1 hended)
  rw [hturn, hear_eq hchannel hreceiver works]
  cases pending with
  | nil =>
    rw [List.head?_nil, Option.elim_none, Option.elim_none]
    split
    · rw [react_eq]
    · exact (List.append_nil _).symm
  | cons c rest =>
    rw [List.head?_cons, Option.elim_some, Option.elim_some]
    split <;> rw [react_eq]

theorem met_take (hended : s.ended = false) (item : Option (Except SocketFault Frame)) (works : Bool) :
    (s.turn (.take item works)).met = s.met ++ [(.ofClient item, works)] := by
  have hturn : s.turn (.take item works) = s.react (.ofClient item) works :=
    if_neg (Bool.eq_false_iff.1 hended)
  rw [hturn, react_eq]

theorem Orderly.hear (h : s.Orderly first) (hended : s.ended = false) (works : Bool) :
    (s.hear works).Orderly first := by
  obtain ⟨seen, pending, hpublished, htells, hreceiver⟩ := h.passed
  rw [hear_eq (hpublished ▸ h.channel) hreceiver works]
  cases pending with
  | nil =>
    rw [List.head?_nil, Option.elim_none]
    split
    · exact h.react hended hpublished (htells.closed works) hreceiver
    · exact h
  | cons c rest =>
    rw [List.head?_cons, Option.elim_some]
    split
    · have hnext : s.published = (seen ++ [c]) ++ rest := by
        rw [hpublished, List.append_assoc]
        rfl
      refine h.react hended hnext (htells.change c works) ?_
      rw [List.length_append]
      rfl
    · -- the notice stands for the changes before those that are kept
      generalize hn : (c :: rest).length - Channel.capacity = n
      have hlength : ((c :: rest).take n).length = n := List.length_take_of_le (by omega)
      have htold := htells.lagged ((c :: rest).take n) works
      rw [hlength] at htold
      have hnext : s.published = (seen ++ (c :: rest).take n) ++ (c :: rest).drop n := by
        rw [hpublished, List.append_assoc, List.take_append_drop]
      refine h.react hended hnext htold ?_
      rw [List.length_append, hlength, Nat.add_assoc]

/-- **Whatever happens next keeps the order.** -/
theorem Orderly.turn (h : s.Orderly first) (t : Turn) : (s.turn t).Orderly first := by
  obtain ⟨seen, pending, hpublished, htells, hreceiver⟩ := h.passed
  cases t with
  | publish c =>
    dsimp only [Course.turn]
    split
    · exact h
    · refine ⟨h.channel.send c, ⟨seen, pending ++ [c], ?_, htells, hreceiver⟩, h.goes, h.ended, h.sent⟩
      change s.published ++ [c] = _
      rw [hpublished, List.append_assoc]
  | close => exact ⟨h.channel, h.passed, h.goes, h.ended, h.sent⟩
  | hear works =>
    dsimp only [Course.turn]
    split
    · exact h
    · next hended => exact h.hear (Bool.eq_false_iff.2 hended) works
  | take item works =>
    dsimp only [Course.turn]
    split
    · exact h
    · next hended =>
      exact h.react (Bool.eq_false_iff.2 hended) hpublished (htells.frame item works) hreceiver

theorem Orderly.play (h : s.Orderly first) (turns : List Turn) : (s.play turns).Orderly first := by
  induction turns generalizing s with
  | nil => exact h
  | cons t rest ih => exact ih (h.turn t)

/-- Nothing is met and nothing is sent after the end. -/
theorem turn_of_ended (hended : s.ended = true) (t : Turn) :
    (s.turn t).ended = true ∧ (s.turn t).met = s.met ∧ (s.turn t).sent = s.sent := by
  cases t with
  | publish c =>
    dsimp only [turn]
    split <;> exact ⟨hended, rfl, rfl⟩
  | close => exact ⟨hended, rfl, rfl⟩
  | hear works | take item works =>
    dsimp only [turn]
    rw [if_pos hended]
    exact ⟨hended, rfl, rfl⟩

theorem play_of_ended (hended : s.ended = true) (turns : List Turn) :
    (s.play turns).met = s.met ∧ (s.play turns).sent = s.sent := by
  induction turns generalizing s with
  | nil => exact ⟨rfl, rfl⟩
  | cons t rest ih =>
    obtain ⟨hstill, hmet, hsent⟩ := turn_of_ended hended t
    obtain ⟨hmetLater, hsentLater⟩ := ih hstill
    exact ⟨hmetLater.trans hmet, hsentLater.trans hsent⟩

/-- What was met are things that do not end the session, which were answered, and perhaps one that
does. -/
theorem Orderly.met_eq (h : s.Orderly first) :
    ∃ handled ending, s.met = handled ++ ending ∧ (∀ x ∈ handled, x.1.stops x.2 = false) ∧
      (if s.ended then ∃ e works, ending = [(e, works)] ∧ e.stops works = true else ending = []) ∧
      s.sent = handled.filterMap fun x => x.1.answer? := by
  cases hended : s.ended with
  | false =>
    have hgoes := h.goes_of_not_ended hended
    exact ⟨s.met, [], (List.append_nil _).symm, hgoes, rfl, h.sent.trans (Session.messages_of_goes hgoes)⟩
  | true =>
    obtain ⟨x, hx, hstops⟩ := List.any_eq_true.1 (h.ended.symm.trans hended)
    obtain ⟨handled, ⟨e, works⟩, hmet⟩ := (List.eq_nil_or_concat s.met).resolve_left
      (List.ne_nil_of_mem hx)
    rw [List.concat_eq_append] at hmet
    have hgoes := h.goes
    rw [hmet, List.dropLast_concat] at hgoes
    -- what ends the session is none of those before the last
    obtain rfl : x = (e, works) := by
      rw [hmet] at hx
      rcases List.mem_append.1 hx with hx | hx
      · exact absurd hstops (Bool.eq_false_iff.1 (hgoes x hx))
      · exact List.mem_singleton.1 hx
    refine ⟨handled, [(e, works)], hmet, hgoes, ⟨e, works, rfl, hstops⟩, ?_⟩
    rw [h.sent, hmet, Session.messages_snoc hgoes, if_pos hstops, List.append_nil,
      Session.messages_of_goes hgoes]

end Course

end SpoolTag
