import FilterBench.Proofs.Connection.Answers
import FilterBench.Proofs.Session.SecureChannel
import Mathlib.Logic.Relation

/-!
# The states of a connection

A connection moves by one thing at a time: the peer acts, time passes, or the client begins or ends a
request (`Connection.Move`). Whatever a client asks for is done by such moves (`reaches_run`), so that
what holds in every state that they reach holds also in the middle of a wait and between two acts of
the peer. The moves leave more open than a scripted peer and a dialogue do: the peer may do anything
at any time, and the client may ask for anything while it does not wait.
-/
namespace FilterBench
open Utf8 Reply

namespace Connection

/-- What can happen to a connection at once. -/
inductive Move : Connection → Connection → Prop
  | act {c : Connection} (heard : Bool) (a : PeerAct) : Move c (c.act heard a)
  | pass {c : Connection} (now : ℕ) (s : Schedule) : Move c { c with now := now, upcoming := s }
  | turn {c : Connection} (turns : List Turn) : Move c { c with turns := turns }
  | say {c : Connection} (data : Bytes) : c.Idle → c.inbox.failure = none → c.isOver = false →
      Move c (c.record (.wrote data))
  | lose {c : Connection} (data : Bytes) : c.Idle → c.inbox.failure = none → c.isOver = true →
      Move c (c.record (.lost data))
  | take {c : Connection} {r : Reply} {rest : List Reply} : c.Idle → c.inbox.queued = r :: rest →
      Move c (({ c with inbox := { c.inbox with queued := rest } } : Connection).record (.took r))
  | wait {c : Connection} (deadline : Option ℕ) : c.Idle → c.inbox.queued = [] →
      c.inbox.failure = none →
      Move c { c with inbox := { c.inbox with waiter := .waiting deadline } }
  | get {c : Connection} {r : Reply} : c.inbox.waiter = .answered (.ok r) →
      Move c (c.stopWaiting.record (.took r))
  | give {c : Connection} {s : Setback} : c.inbox.waiter = .answered (.error s) →
      Move c c.stopWaiting
  | expire {c : Connection} {deadline : ℕ} : c.inbox.waiter = .waiting (some deadline) →
      Move c (c.expire deadline).1
  /-- A handshake begins: the channel is not heard any more. -/
  | leave {c : Connection} (handshakes : List Attempt) : c.Idle →
      Move c { c with listening := false, handshakes := handshakes }
  /-- While a handshake goes on, and when it fails, there is no telling of the channel. -/
  | change {c : Connection} (dropped spoiled : Bool) : c.Idle → c.listening = false →
      Move c { c with dropped := dropped, spoiled := spoiled }
  | secure {c : Connection} : c.Idle → c.listening = false →
      Move c (({ c with
        listening := true, dropped := false, spoiled := false
        inbox := c.inbox.renewed } : Connection).record .secured)
  | close {c : Connection} : c.Idle → Move c c.close
  | note {c : Connection} (text : String) : c.Idle → Move c (c.note text)

/-- One state comes from another by moves. -/
def Reaches : Connection → Connection → Prop := Relation.ReflTransGen Move

variable {c c' d : Connection}

theorem Reaches.refl (c : Connection) : c.Reaches c := Relation.ReflTransGen.refl

theorem Reaches.trans (h : c.Reaches c') (h' : c'.Reaches d) : c.Reaches d :=
  Relation.ReflTransGen.trans h h'

theorem Reaches.move (h : c.Reaches c') (move : Move c' d) : c.Reaches d :=
  Relation.ReflTransGen.tail h move

/-- What each move keeps holds in every state. -/
theorem Reaches.keeps {P : Connection → Prop} (moves : ∀ {c c'}, Move c c' → P c → P c')
    (h : c.Reaches c') (holds : P c) : P c' := by
  induction h with
  | refl => exact holds
  | tail _ move ih => exact moves move ih

/-! ## Requests are done by moves -/

theorem steady_reaches (c : Connection) : Steady c.Reaches where
  act heard a h := h.move (.act heard a)
  move now s h := h.move (.pass now s)

theorem reaches_write (idle : c.Idle) (data : Bytes) : c.Reaches (c.write data).1 := by
  obtain ⟨s, -, same⟩ | ⟨failure, gone, same⟩ | ⟨failure, going, same⟩ := c.write_cases data
  all_goals rw [same]
  · exact .refl c
  · exact (Reaches.refl c).move (.lose data idle failure gone)
  · have said : c.Reaches (c.record (.wrote data)) :=
      (Reaches.refl c).move (.say data idle failure going)
    exact (steady_reaches c).respond (fun turns h => h.move (.turn turns)) said

/-- What is recorded of an answer. -/
def received (c : Connection) : Option (Except Setback Reply) → Connection
  | some (.ok r) => c.record (.took r)
  | _ => c

theorem await_eq : c.await = (c.answered.1.received c.answered.2, c.answered.2) := by
  rw [await]
  rcases c.answered with ⟨c', _ | s | r⟩ <;> rfl

@[simp] theorem received_now (c : Connection) (answer : Option (Except Setback Reply)) :
    (c.received answer).now = c.now := by
  rcases answer with _ | s | r <;> rfl

@[simp] theorem received_handshakes (c : Connection) (answer : Option (Except Setback Reply)) :
    (c.received answer).handshakes = c.handshakes := by
  rcases answer with _ | s | r <;> rfl

theorem reaches_settle (h : c.Reaches d) : c.Reaches (d.settle.1.received d.settle.2) := by
  have played := (steady_reaches c).playWhile awaits d.upcoming h
  rw [settle]
  split
  · rename_i a waiter
    cases a with
    | ok r => exact played.move (.get waiter)
    | error s => exact played.move (.give waiter)
  · rename_i deadline waiter
    exact played.move (.expire waiter)
  · exact played

theorem reaches_await (idle : c.Idle) : c.Reaches c.await.1 := by
  rw [await_eq]
  obtain ⟨r, rest, queue, same⟩ | ⟨s, -, -, same⟩ | ⟨queue, failure, same⟩ := c.answered_cases
  all_goals rw [same]
  · exact (Reaches.refl c).move (.take idle queue)
  · exact .refl c
  · have waits := (Reaches.refl c).move
      (.wait (c.timeout.deadline c.now) idle queue failure)
    exact reaches_settle (waits.move (.pass c.now c.upcoming.settled))

theorem reaches_secure (idle : c.Idle) : c.Reaches c.secure.1 := by
  have left : c.Reaches c.handshaking :=
    ((Reaches.refl c).move (.leave c.handshakes.tail idle)).move (.pass c.now c.forsaken)
  -- The client goes on not to wait, and not to hear the channel.
  have waits : ∀ finish, let d := playWhile (fun _ p => p.isBefore finish) c.forsaken c.handshaking
      c.Reaches { d with now := finish } ∧ d.Idle ∧ d.listening = false := by
    intro finish d
    have played : c.Reaches d := (steady_reaches c).playWhile _ _ left
    exact ⟨played.move (.pass finish d.upcoming),
      steady_idle.playWhile _ _ (c := c.handshaking) idle, (keeps_playWhile _ _ _).listening⟩
  rcases attempt : c.handshakes.headD (.settles 0 none) with _ | ⟨after, _ | cause⟩
  · rw [secure_of_never attempt]
    exact (steady_reaches c).playWhile _ _ (left.move (.change false false idle rfl))
  · rw [secure_of_succeeds attempt]
    obtain ⟨timed, quiet, deaf⟩ := waits (c.now + after)
    exact timed.move (.secure quiet deaf)
  · rw [secure_of_fails attempt]
    obtain ⟨timed, quiet, deaf⟩ := waits (c.now + after)
    exact timed.move (.change _ true quiet deaf)

theorem reaches_perform (idle : c.Idle) (q : Request) : c.Reaches (c.perform q).1 := by
  cases q with
  | write data => exact reaches_write idle data
  | await => exact reaches_await idle
  | secure => exact reaches_secure idle
  | close => exact (Reaches.refl c).move (.close idle)
  | note text => exact (Reaches.refl c).move (.note text idle)

theorem reaches_run {α : Type} (d : Dialogue α) (h : c.Accounted) (idle : c.Idle) :
    c.Reaches (c.run d).1 := by
  induction d generalizing c with
  | done a => exact .refl c
  | ask q next ih =>
    have performs := reaches_perform idle q
    obtain ⟨accounted, quiet⟩ := h.perform idle q
    rw [Connection.run]
    rcases performed : c.perform q with ⟨c', _ | answer⟩
    · rwa [performed] at performs
    · rw [performed] at performs accounted quiet
      exact performs.trans (ih answer accounted (quiet rfl))

theorem reaches_advance (c : Connection) (ms : ℕ) : c.Reaches (c.advance ms) := by
  have played := (steady_reaches c).playWhile (fun _ p => (some (c.now + ms)).all (p.due ≤ ·))
    c.upcoming (.refl c)
  exact played.move (.pass (c.now + ms) _)

/-- All uses of a client are moves. -/
theorem reaches_serve (h : c.Accounted) (idle : c.Idle) (caller : Caller) (uses : List Use) :
    c.Reaches (c.serve caller uses) := by
  induction uses generalizing c caller with
  | nil => exact .refl c
  | cons use uses ih =>
    cases use with
    | pauses ms =>
      obtain ⟨accounted, quiet⟩ := h.advance idle ms
      exact (reaches_advance c ms).trans (ih accounted quiet caller)
    | performs op =>
      have runs := reaches_run (op.dialogue caller) h idle
      obtain ⟨accounted, quiet⟩ := h.run (op.dialogue caller) idle
      rw [Connection.serve]
      rcases ran : c.run (op.dialogue caller) with ⟨c', _ | ⟨outcome, caller'⟩⟩
      · rwa [ran] at runs
      · rw [ran] at runs accounted quiet
        exact runs.trans (ih accounted (quiet rfl) caller')

theorem reaches_visit (h : c.Accounted) (idle : c.Idle) (uses : List Use) :
    c.Reaches (c.visit uses) := by
  have runs := reaches_run (Client.greeting.run.run none) h idle
  obtain ⟨accounted, quiet⟩ := h.run (Client.greeting.run.run none) idle
  rw [Connection.visit]
  rcases ran : c.run (Client.greeting.run.run none) with ⟨c', _ | ⟨_ | _, introduction⟩⟩
  all_goals rw [ran] at runs accounted quiet
  · exact runs
  · exact runs
  · exact runs.trans (reaches_serve accounted (quiet rfl) _ uses)

/-! ## What holds in every state -/

theorem Move.accounted (move : Move c c') (h : c.Accounted) : c'.Accounted := by
  cases move with
  | act heard a => exact steady_accounted.act heard a h
  | pass now s => exact h.elsewhere rfl rfl
  | turn turns => exact h.elsewhere rfl rfl
  | say data => exact h.record (fun _ => rfl) rfl
  | lose data => exact h.record (fun _ => rfl) rfl
  | take idle queue =>
    refine h.takes rfl rfl idle ?_
    rw [idle.handed, queue]
    rfl
  | wait deadline idle queue =>
    refine h.inbox rfl rfl (fun _ _ => queue) ?_
    rw [idle.handed]
    rfl
  | @get r waiter =>
    refine h.takes (r := r) rfl rfl rfl ?_
    rw [Inbox.handed, waiter]
    rfl
  | give waiter =>
    apply h.stopWaiting
    rw [Inbox.handed, waiter]
  | expire waiter =>
    have nothing : c.inbox.handed = [] := by rw [Inbox.handed, waiter]
    exact ((h.stopWaiting nothing).fail (.timedOut c.timeout.ms)).elsewhere rfl rfl
  | leave => exact h.elsewhere rfl rfl
  | change => exact h.elsewhere rfl rfl
  | secure idle => exact h.renewed idle rfl rfl
  | close idle => exact (h.close idle).1
  | note text => exact h.record (fun _ => rfl) rfl

theorem Reaches.accounted (h : c.Reaches c') (accounted : c.Accounted) : c'.Accounted :=
  h.keeps Move.accounted accounted

end Connection

/-- What is kept besides when a reply is taken, and when a reader begins to wait and stops. -/
structure Receives.Reads {P : Inbox → Prop} (receives : Receives P) : Prop where
  queue : ∀ {b : Inbox} (replies : List Reply), P b → P { b with queued := replies }
  idle : ∀ {b : Inbox}, P b → P { b with waiter := .idle }
  waits : ∀ {b : Inbox} (deadline : Option ℕ), b.failure = none → P b →
    P { b with waiter := .waiting deadline }

namespace Connection

variable {c c' : Connection}

theorem Move.inbox {P : Inbox → Prop} {receives : Receives P} (reads : receives.Reads)
    (move : Move c c') (h : P c.inbox) : P c'.inbox := by
  cases move with
  | act heard a => exact receives.steady.act heard a h
  | take => exact reads.queue _ h
  | wait deadline _ _ failure => exact reads.waits deadline failure h
  | get => exact reads.idle h
  | give => exact reads.idle h
  | expire => exact receives.fail trivial (reads.idle h)
  | secure => exact receives.read _ _ h
  | close =>
    show P (Connection.finish { c with dropped := true } c.listening .closed).inbox
    cases c.listening
    · exact h
    · exact receives.fail trivial h
  | _ => exact h

end Connection

namespace Inbox

theorem reads_sound : receives_sound.Reads where
  queue _ h := ⟨h.failure, h.answered⟩
  idle h := h.idle
  waits _ _ h := by
    refine ⟨h.failure, ?_⟩
    intro s answered
    cases answered

/-- A reply ends a wait. -/
theorem not_waiting_deliver {b : Inbox} {r : Reply} {d : Option ℕ} :
    (b.deliver r).waiter ≠ .waiting d := by
  intro waiting
  rw [deliver] at waiting
  split at waiting
  · cases waiting
  · rename_i other
    exact other d waiting

/-- So does a failure, unless there was one before. -/
theorem fail_of_waiting {b : Inbox} {s : Setback} {d : Option ℕ}
    (waiting : (b.fail s).waiter = .waiting d) : b.fail s = b := by
  cases failure : b.failure with
  | some t => rw [fail, failure]
  | none =>
    simp only [fail, failure] at waiting
    split at waiting
    · cases waiting
    · rename_i other
      exact (other d waiting).elim

/-- A failure is never replaced. -/
theorem receives_failure (s : Setback) : Receives fun b => b.failure = some s where
  deliver {b} r h := by
    unfold deliver
    split <;> exact h
  fail {b t} _ h := by
    rw [Inbox.fail, h]
    exact h
  read _ _ h := h

theorem reads_failure (s : Setback) : (receives_failure s).Reads where
  queue _ h := h
  idle h := h
  waits _ _ h := h

end Inbox

namespace Connection

variable {c c' : Connection} {s : Setback}

theorem Reaches.sound (h : c.Reaches c') (sound : c.inbox.Sound) : c'.inbox.Sound :=
  h.keeps (P := fun c => c.inbox.Sound) (Move.inbox Inbox.reads_sound) sound

theorem Reaches.failure (h : c.Reaches c') (failed : c.inbox.failure = some s) :
    c'.inbox.failure = some s :=
  h.keeps (P := fun c => c.inbox.failure = some s) (Move.inbox (Inbox.reads_failure s)) failed

/-- Once a failure is recorded nothing more is written. -/
theorem Move.sent (move : Move c c') (failed : c.inbox.failure = some s) : c'.sent = c.sent := by
  have unheard : ∀ e : Event, e.sent? = none → (c.record e).sent = c.sent := by
    intro e nothing
    exact (keeps_record c nothing).sent
  cases move with
  | act heard a => exact (keeps_act heard c a).sent
  | say data _ none =>
    rw [failed] at none
    cases none
  | lose data => exact unheard _ rfl
  | take => exact unheard _ rfl
  | get => exact unheard _ rfl
  | secure => exact unheard _ rfl
  | note text => exact unheard _ rfl
  | close =>
    show (Connection.finish { c with dropped := true } c.listening .closed).sent = c.sent
    exact (keeps_finish { c with dropped := true } _ _).sent
  | _ => rfl

theorem Reaches.sent (h : c.Reaches c') (failed : c.inbox.failure = some s) : c'.sent = c.sent := by
  induction h with
  | refl => rfl
  | tail before move ih => exact (move.sent (Reaches.failure before failed)).trans ih

end Connection

/-! ## How a wait fails -/

namespace Inbox

end Inbox

namespace Connection

variable {c c' : Connection} {s : Setback}

end Connection

end FilterBench
