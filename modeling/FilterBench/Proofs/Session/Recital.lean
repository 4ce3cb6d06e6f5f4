import FilterBench.Proofs.Connection.Delivery
import FilterBench.Proofs.Session.Reading

/-!
# Dialogues that recite

A dialogue recites a list of utterances when it says them one after another, waiting for a reply
exactly after those that get one, and then departs: it only closes the channel and makes
remarks. On a connection whose peer answers the utterances, each by a turn of its own, it runs to
its end and sends exactly the utterances (`run_recites`).
-/
namespace FilterBench
open Utf8

/-- The dialogue says nothing more, and ends with a value. -/
inductive Departs {α : Type} : Dialogue α → α → Prop
  | done (a : α) : Departs (.done a) a
  | close {next : Unit → Dialogue α} {a : α} : Departs (next ()) a → Departs (.ask .close next) a
  | note {text : String} {next : Unit → Dialogue α} {a : α} :
      Departs (next ()) a → Departs (.ask (.note text) next) a

/-- The dialogue says these utterances and ends with a value, if every request of it succeeds and
the replies are those of the utterances. -/
inductive Recites {α : Type} : Dialogue α → List Utterance → α → Prop
  | departs {d : Dialogue α} {a : α} : Departs d a → Recites d [] a
  | tells {octets : Bytes} {next : Except Setback Unit → Dialogue α} {said : List Utterance}
      {a : α} : Recites (next (.ok ())) said a →
      Recites (.ask (.write octets) next) (⟨octets, none⟩ :: said) a
  | asks {octets : Bytes} {next : Except Setback Unit → Dialogue α}
      {next' : Except Setback Reply → Dialogue α} {r : Reply} {said : List Utterance} {a : α} :
      next (.ok ()) = .ask .await next' → Recites (next' (.ok r)) said a →
      Recites (.ask (.write octets) next) (⟨octets, some r⟩ :: said) a
  | secures {next : Except Setback Unit → Dialogue α} {said : List Utterance} {a : α} :
      Recites (next (.ok ())) said a → Recites (.ask .secure next) said a

section

variable {α β : Type} {d : Dialogue α} {f : α → Dialogue β} {a : α} {b : β}

theorem Departs.bind (h : Departs d a) (h' : Departs (f a) b) : Departs (d.bind f) b := by
  induction h with
  | done a => exact h'
  | close _ ih => exact .close (ih h')
  | note _ ih => exact .note (ih h')

theorem Recites.bind {said : List Utterance} (h : Recites d said a) (h' : Departs (f a) b) :
    Recites (d.bind f) said b := by
  induction h with
  | departs departs => exact .departs (departs.bind h')
  | tells _ ih => exact .tells (ih h')
  | asks waits _ ih => exact .asks (by rw [waits]; rfl) (ih h')
  | secures _ ih => exact .secures (ih h')

end

/-- The turn that answers an utterance: it delivers the reply, or nothing if none was asked for. -/
def Utterance.Answered (timeout : Timeout) (u : Utterance) (turn : Turn) : Prop :=
  match u.reply with
  | some r => turn.Delivers r timeout
  | none => turn.Silent

/-- Each utterance is answered by a turn; where there is no turn nothing is said. -/
def Answered (timeout : Timeout) : List Utterance → List Turn → Prop
  | [], _ => True
  | u :: said, turns => u.Answered timeout (turns.headD []) ∧ Answered timeout said turns.tail

/-- Every handshake that is still to come succeeds. -/
def Secures (handshakes : List Attempt) : Prop := ∀ h ∈ handshakes, ∃ after, h = .settles after none

namespace Connection

variable {c : Connection}

theorem secure_ready (h : c.Ready) (secures : Secures c.handshakes) : ∃ c',
    c.secure = (c', some (.ok ())) ∧ c'.Ready ∧ c'.timeout = c.timeout ∧ c'.turns = c.turns ∧
      c'.handshakes = c.handshakes.tail ∧ c'.sent = c.sent := by
  have settles : ∃ after, c.handshakes.headD (.settles 0 none) = .settles after none := by
    cases eq : c.handshakes with
    | nil => exact ⟨0, rfl⟩
    | cons a rest => exact secures a (by simp [eq])
  obtain ⟨after, attempt⟩ := settles
  have kept : c.dropped = false ∧ c.ended = false := by
    have going := h.going
    rwa [isOver, Bool.or_eq_false_iff] at going
  have quiet : Schedule.Silent c.forsaken := by
    intro q hq
    obtain ⟨p, hp, rfl⟩ := List.mem_map.1 hq
    simp only [kept.1, Bool.false_eq_true, if_false]
    exact h.quiet.settled p hp
  obtain ⟨now, s', played, quiet'⟩ := playWhile_silent (fun _ p => p.isBefore (c.now + after)) quiet
    (c := { c with listening := false, handshakes := c.handshakes.tail, upcoming := c.forsaken })
    h.decodes
  have secured : c.secure = (({ c with
      now := c.now + after, inbox := c.inbox.renewed, listening := true, dropped := false
      spoiled := false, handshakes := c.handshakes.tail, upcoming := s' } : Connection).record
        .secured, some (.ok ())) := by
    simp only [secure, attempt, played]
  refine ⟨_, secured, ⟨rfl, ?_, ?_, quiet'⟩, rfl, rfl, rfl, ?_⟩
  · rw [isOver, Bool.or_eq_false_iff]
    exact ⟨rfl, kept.2⟩
  · simp only [record, Inbox.renewed, h.inbox]
  · exact (keeps_record _ rfl).sent

theorem run_departs {α : Type} {d : Dialogue α} {a : α} (h : Departs d a) (c : Connection) :
    ∃ c', c.run d = (c', some a) ∧ c'.sent = c.sent := by
  induction h generalizing c with
  | done a => exact ⟨c, rfl, rfl⟩
  | close _ ih =>
    obtain ⟨c', ran, sent⟩ := ih c.close
    refine ⟨c', ran, sent.trans ?_⟩
    rw [close]
    exact (keeps_finish { c with dropped := true } c.listening .closed).sent
  | @note text next a _ ih =>
    obtain ⟨c', ran, sent⟩ := ih (c.note text)
    refine ⟨c', ran, sent.trans ?_⟩
    exact (keeps_record c rfl).sent

/-- A dialogue that recites, on a connection whose peer answers. -/
theorem run_recites {α : Type} {d : Dialogue α} {said : List Utterance} {a : α}
    (h : Recites d said a) (ready : c.Ready) (answered : Answered c.timeout said c.turns)
    (secures : Secures c.handshakes) :
    ∃ c', c.run d = (c', some a) ∧ c'.sent = c.sent ++ said.map Utterance.octets := by
  induction h generalizing c with
  | departs departs =>
    obtain ⟨c', ran, sent⟩ := run_departs departs c
    exact ⟨c', ran, by rw [sent, List.map_nil, List.append_nil]⟩
  | @tells octets next said a _ ih =>
    obtain ⟨c₁, wrote, ready₁, writes⟩ := write_silent ready answered.1 octets
    obtain ⟨c₂, ran, sent⟩ := ih ready₁ (by rw [writes.timeout, writes.turns]; exact answered.2)
      (by rw [writes.handshakes]; exact secures)
    refine ⟨c₂, ?_, ?_⟩
    · simp only [run, perform, wrote, ran]
    · rw [sent, writes.sent, List.append_assoc]
      rfl
  | @asks octets next next' r said a waits _ ih =>
    obtain ⟨c₁, wrote, pledged, writes⟩ := write_pledged ready answered.1 octets
    obtain ⟨c₂, awaited, ready₂, keeps⟩ := await_pledged pledged
    obtain ⟨c₃, ran, sent⟩ := ih ready₂
      (by rw [keeps.timeout, keeps.turns, writes.timeout, writes.turns]; exact answered.2)
      (by rw [keeps.handshakes, writes.handshakes]; exact secures)
    refine ⟨c₃, ?_, ?_⟩
    · simp only [run, perform, wrote, waits, awaited, ran]
    · rw [sent, keeps.sent, writes.sent, List.append_assoc]
      rfl
  | @secures next said a _ ih =>
    obtain ⟨c₁, secured, ready₁, timeout, turns, handshakes, sent₁⟩ := secure_ready ready secures
    obtain ⟨c₂, ran, sent⟩ := ih ready₁ (by rw [timeout, turns]; exact answered)
      (by rw [handshakes]; exact fun h hh => secures h (List.mem_of_mem_tail hh))
    refine ⟨c₂, ?_, by rw [sent, sent₁]⟩
    simp only [run, perform, secured, ran]

end Connection

end FilterBench
