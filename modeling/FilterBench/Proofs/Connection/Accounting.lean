import FilterBench.Dialogue
import FilterBench.Proofs.Connection.Frame
import Mathlib.Data.List.Basic

/-!
# Accounting for replies

The history of a connection tells which replies a client made of the text it heard (`made`), each
channel being read from its beginning, and which replies it took (`taken`). At any time the made
replies are those that were taken, one that a waiting reader has got, and those that are queued, in
this order (`Accounted`): no reply is lost, made twice or given out of turn, whatever the peer does
and whatever the client asks for.
-/
namespace FilterBench
open Utf8 Reply

/-- The replies that were handed to the readers that asked for them. -/
def taken (history : List Event) : List Reply := history.filterMap fun
  | .took r => some r
  | _ => none

/-- What an event does to the reader of replies, and the replies that are made of it. A malformed
line costs the replies before it. -/
def Event.readBy (reader : Reader) : Event → Reader × List Reply
  | .heard text =>
    match reader.push text with
    | (reader, .ok replies) => (reader, replies)
    | (reader, .error _) => (reader, [])
  | .secured => ({}, [])
  | _ => (reader, [])

def readerAfter (reader : Reader) (history : List Event) : Reader :=
  history.foldl (fun reader e => (e.readBy reader).1) reader

/-- The replies that are made of what was heard, beginning with some reader. -/
def madeFrom (reader : Reader) : List Event → List Reply
  | [] => []
  | e :: rest => (e.readBy reader).2 ++ madeFrom (e.readBy reader).1 rest

/-- The replies that are made of what was heard. -/
def made (history : List Event) : List Reply := madeFrom {} history

theorem taken_append (h h' : List Event) : taken (h ++ h') = taken h ++ taken h' :=
  List.filterMap_append

theorem madeFrom_append (reader : Reader) (h h' : List Event) :
    madeFrom reader (h ++ h') = madeFrom reader h ++ madeFrom (readerAfter reader h) h' := by
  induction h generalizing reader with
  | nil => rfl
  | cons e h ih =>
    rw [List.cons_append, madeFrom, ih, madeFrom, List.append_assoc]
    rfl

theorem readerAfter_concat (reader : Reader) (h : List Event) (e : Event) :
    readerAfter reader (h ++ [e]) = (e.readBy (readerAfter reader h)).1 := by
  rw [readerAfter, List.foldl_append]
  rfl

theorem made_concat (h : List Event) (e : Event) :
    made (h ++ [e]) = made h ++ (e.readBy (readerAfter {} h)).2 := by
  rw [made, madeFrom_append, madeFrom, madeFrom, List.append_nil]
  rfl

/-- From a secure channel on, text is read from its beginning. -/
theorem made_secured (h h' : List Event) : made (h ++ .secured :: h') = made h ++ made h' := by
  rw [made, madeFrom_append]
  rfl

namespace Inbox

/-- The reply that a reader has got and not yet taken. -/
def handed (b : Inbox) : List Reply :=
  match b.waiter with
  | .answered (.ok r) => [r]
  | _ => []

/-- Who waits has found the queue empty. -/
def Orderly (b : Inbox) : Prop := ∀ d, b.waiter = .waiting d → b.queued = []

theorem deliver_handed {b : Inbox} (h : b.Orderly) (r : Reply) :
    (b.deliver r).reader = b.reader ∧ (b.deliver r).Orderly ∧
      (b.deliver r).handed ++ (b.deliver r).queued = b.handed ++ b.queued ++ [r] := by
  obtain ⟨decoder, reader, queued, waiter, failure⟩ := b
  cases waiter with
  | waiting d =>
    obtain rfl : queued = [] := h d rfl
    refine ⟨rfl, ?_, rfl⟩
    intro d' eq
    simp [deliver] at eq
  | idle =>
    refine ⟨rfl, ?_, rfl⟩
    intro d' eq
    simp [deliver] at eq
  | answered a =>
    refine ⟨rfl, ?_, ?_⟩
    · intro d' eq
      simp [deliver] at eq
    · simp [deliver, handed]

theorem foldl_deliver_handed (replies : List Reply) {b : Inbox} (h : b.Orderly) :
    (replies.foldl deliver b).reader = b.reader ∧ (replies.foldl deliver b).Orderly ∧
      (replies.foldl deliver b).handed ++ (replies.foldl deliver b).queued =
        b.handed ++ b.queued ++ replies := by
  induction replies generalizing b with
  | nil => exact ⟨rfl, h, (List.append_nil _).symm⟩
  | cons r replies ih =>
    obtain ⟨reader, orderly, eq⟩ := deliver_handed h r
    obtain ⟨reader', orderly', eq'⟩ := ih orderly
    refine ⟨reader'.trans reader, orderly', eq'.trans ?_⟩
    rw [eq, List.append_assoc, List.singleton_append]

theorem fail_handed {b : Inbox} (h : b.Orderly) (s : Setback) :
    (b.fail s).reader = b.reader ∧ (b.fail s).Orderly ∧
      (b.fail s).handed = b.handed ∧ (b.fail s).queued = b.queued := by
  obtain ⟨decoder, reader, queued, waiter, failure⟩ := b
  cases failure with
  | some t => exact ⟨rfl, h, rfl, rfl⟩
  | none =>
    cases waiter with
    | waiting d =>
      refine ⟨rfl, ?_, rfl, rfl⟩
      intro d' eq
      simp [fail] at eq
    | idle => exact ⟨rfl, h, rfl, rfl⟩
    | answered a => exact ⟨rfl, h, rfl, rfl⟩

end Inbox

namespace Connection

/-- The made replies are those taken, one handed out, and those queued. -/
structure Balanced (c : Connection) : Prop where
  reader : c.inbox.reader = readerAfter {} c.history
  orderly : c.inbox.Orderly
  replies : made c.history = taken c.history ++ (c.inbox.handed ++ c.inbox.queued)

/-- The accounts are in balance now, and at no time before was a reply taken out of turn. -/
structure Accounted (c : Connection) : Prop extends c.Balanced where
  earlier : ∀ pre, pre <+: c.history → taken pre <+: made pre

variable {c : Connection}

theorem Balanced.taken_prefix (h : c.Balanced) : taken c.history <+: made c.history := by
  rw [h.replies]
  exact List.prefix_append _ _

/-- One event that leaves the accounts in balance. -/
theorem Accounted.event (h : c.Accounted) {c' : Connection} {e : Event}
    (history : c'.history = c.history ++ [e]) (balanced : c'.Balanced) : c'.Accounted := by
  refine ⟨balanced, ?_⟩
  intro pre within
  rw [history, List.prefix_concat_iff] at within
  rcases within with rfl | within
  · rw [← history]
    exact balanced.taken_prefix
  · exact h.earlier pre within

/-- Changes of the inbox that concern no reply. -/
theorem Accounted.inbox (h : c.Accounted) {d : Connection} (history : d.history = c.history)
    (reader : d.inbox.reader = c.inbox.reader) (orderly : d.inbox.Orderly)
    (replies : d.inbox.handed ++ d.inbox.queued = c.inbox.handed ++ c.inbox.queued) :
    d.Accounted := by
  refine ⟨⟨?_, orderly, ?_⟩, ?_⟩
  · rw [reader, history, h.reader]
  · rw [history, replies, h.replies]
  · rw [history]
    exact h.earlier

/-- Changes that do not concern the inbox or the history. -/
theorem Accounted.elsewhere (h : c.Accounted) {c' : Connection}
    (history : c'.history = c.history) (inbox : c'.inbox = c.inbox) : c'.Accounted := by
  apply h.inbox history
  · rw [inbox]
  · rw [inbox]
    exact h.orderly
  · rw [inbox]

/-- Events that concern no reply. -/
theorem Accounted.record (h : c.Accounted) {e : Event} (reads : ∀ reader, e.readBy reader = (reader, []))
    (takes : taken [e] = []) : (c.record e).Accounted := by
  apply h.event rfl
  refine ⟨?_, h.orderly, ?_⟩
  · rw [Connection.record, readerAfter_concat, reads]
    exact h.reader
  · rw [Connection.record, made_concat, reads, List.append_nil, taken_append, takes, List.append_nil]
    exact h.replies

theorem Accounted.fail (h : c.Accounted) (s : Setback) : (c.fail s).Accounted := by
  obtain ⟨reader, orderly, handed, queued⟩ := Inbox.fail_handed h.orderly s
  apply h.inbox (d := c.fail s) rfl reader orderly
  rw [Connection.fail, handed, queued]

theorem Accounted.finish (h : c.Accounted) (heard : Bool) (s : Setback) :
    (c.finish heard s).Accounted := by
  cases heard
  · exact h
  · exact h.fail s

theorem Accounted.hear (h : c.Accounted) (chunk : Bytes) : (c.hear chunk).Accounted := by
  rcases read : c.inbox.decoder.read chunk with ⟨d, text⟩
  by_cases none : text = []
  · rw [none] at read
    rw [hear_of_nil read]
    exact h.inbox rfl rfl h.orderly rfl
  · rw [hear_of_text read none]
    apply h.event rfl
    rcases pushed : c.inbox.reader.push text with ⟨reader, line | replies⟩
    · have reads : Event.readBy (readerAfter {} c.history) (.heard text) = (reader, []) := by
        simp only [Event.readBy, ← h.reader, pushed]
      have orderly : ({ c.inbox with decoder := d, reader := reader } : Inbox).Orderly := h.orderly
      obtain ⟨reader', orderly', handed, queued⟩ := Inbox.fail_handed orderly (.malformed line)
      simp only [Inbox.readText, pushed, Connection.record]
      refine ⟨?_, orderly', ?_⟩
      · rw [readerAfter_concat, reads]
        exact reader'
      · rw [made_concat, reads, List.append_nil, taken_append, handed, queued, h.replies]
        exact congrArg (· ++ _) (List.append_nil _).symm
    · have reads : Event.readBy (readerAfter {} c.history) (.heard text) = (reader, replies) := by
        simp only [Event.readBy, ← h.reader, pushed]
      have orderly : ({ c.inbox with decoder := d, reader := reader } : Inbox).Orderly := h.orderly
      obtain ⟨reader', orderly', delivered⟩ := Inbox.foldl_deliver_handed replies orderly
      simp only [Inbox.readText, pushed, Connection.record]
      refine ⟨?_, orderly', ?_⟩
      · rw [readerAfter_concat, reads]
        exact reader'
      · rw [made_concat, reads, taken_append, delivered, h.replies]
        simp [taken, Inbox.handed]

/-! ## Acts of the peer -/

theorem steady_accounted : Steady Accounted where
  act {c} heard a h := by
    have ends : ({ c with ended := true } : Connection).Accounted := h.elsewhere rfl rfl
    unfold act
    split
    · exact h
    · cases a with
      | sends chunk =>
        cases heard
        · exact h
        · exact h.hear chunk
      | closes => exact ends.finish heard _
      | breaksDown message => exact ends.finish heard _
      | failsWrite message => exact h
      | waits ms => exact h
  move now s h := h.elsewhere rfl rfl

/-- Nobody waits for a reply. -/
def Idle (c : Connection) : Prop := c.inbox.waiter = .idle

theorem fail_idle (h : c.Idle) (s : Setback) : (c.fail s).Idle := by
  unfold Idle at h ⊢
  rw [fail, Inbox.fail]
  split
  · exact h
  · split
    · rename_i eq
      rw [h] at eq
      cases eq
    · exact h

theorem finish_idle (h : c.Idle) (heard : Bool) (s : Setback) : (c.finish heard s).Idle := by
  cases heard
  · exact h
  · exact fail_idle h s

theorem deliver_idle {b : Inbox} (h : b.waiter = .idle) (r : Reply) :
    (b.deliver r).waiter = .idle := by
  rw [Inbox.deliver, h]

theorem hear_idle (h : c.Idle) (chunk : Bytes) : (c.hear chunk).Idle := by
  rcases read : c.inbox.decoder.read chunk with ⟨d, text⟩
  by_cases none : text = []
  · rw [none] at read
    rw [hear_of_nil read]
    exact h
  · rw [hear_of_text read none]
    show (Inbox.readText _ _).1.waiter = .idle
    rw [Inbox.readText]
    split
    · rename_i reader replies _
      have all : ∀ (replies : List Reply) (b : Inbox), b.waiter = .idle →
          (replies.foldl Inbox.deliver b).waiter = .idle := by
        intro replies
        induction replies with
        | nil => exact fun b hb => hb
        | cons r replies ih => exact fun b hb => ih _ (deliver_idle hb r)
      exact all replies _ h
    · exact fail_idle (c := { c with inbox := { c.inbox with decoder := d, reader := _ } }) h _

theorem steady_idle : Steady Idle where
  act {c} heard a h := by
    unfold act
    split
    · exact h
    · cases a with
      | sends chunk =>
        cases heard
        · exact h
        · exact hear_idle h chunk
      | closes => exact finish_idle (c := { c with ended := true }) h heard _
      | breaksDown message => exact finish_idle (c := { c with ended := true }) h heard _
      | failsWrite message => exact h
      | waits ms => exact h
  move now s h := h

/-! ## Requests of the client -/

/-- What is answered to octets that were sent. -/
def verdict : Option String → Except Setback Unit
  | some message => .error (.writeFailed message)
  | none => .ok ()

theorem write_going (failure : c.inbox.failure = none) (going : c.isOver = false) (data : Bytes) :
    c.write data =
      ((c.record (.wrote data)).respond.1, verdict (c.record (.wrote data)).respond.2) := by
  rw [Connection.write, failure, going]
  rcases (c.record (.wrote data)).respond with ⟨d, _ | message⟩ <;> rfl

/-- A recorded failure refuses a write, a channel that is over loses it, and else the peer responds. -/
theorem write_cases (c : Connection) (data : Bytes) :
    (∃ s, c.inbox.failure = some s ∧ c.write data = (c, .error s)) ∨
    (c.inbox.failure = none ∧ c.isOver = true ∧
      c.write data = (c.record (.lost data), .error (.writeFailed "socket is closed"))) ∨
    (c.inbox.failure = none ∧ c.isOver = false ∧ c.write data =
      ((c.record (.wrote data)).respond.1, verdict (c.record (.wrote data)).respond.2)) := by
  rcases failure : c.inbox.failure with _ | s
  · rcases going : c.isOver
    · exact .inr (.inr ⟨rfl, rfl, write_going failure going data⟩)
    · refine .inr (.inl ⟨rfl, rfl, ?_⟩)
      rw [write, failure, going]
      rfl
  · refine .inl ⟨s, rfl, ?_⟩
    rw [write, failure]

theorem Accounted.write (h : c.Accounted) (idle : c.Idle) (data : Bytes) :
    (c.write data).1.Accounted ∧ (c.write data).1.Idle := by
  obtain ⟨s, -, same⟩ | ⟨-, -, same⟩ | ⟨-, -, same⟩ := c.write_cases data
  all_goals rw [same]
  · exact ⟨h, idle⟩
  · exact ⟨h.record (fun _ => rfl) rfl, idle⟩
  · have wrote : (c.record (.wrote data)).Accounted := h.record (fun _ => rfl) rfl
    have responded := steady_accounted.respond (fun turns h => h.elsewhere rfl rfl) wrote
    have quiet := steady_idle.respond (fun turns h => h) (c := c.record (.wrote data)) idle
    exact ⟨responded, quiet⟩

theorem Idle.handed (h : c.Idle) : c.inbox.handed = [] := by
  rw [Inbox.handed, h]

theorem Idle.orderly (h : c.Idle) : c.inbox.Orderly := by
  intro d eq
  rw [h] at eq
  cases eq

/-- The first reply that was made and not taken is taken. -/
theorem Accounted.takes (h : c.Accounted) {c' : Connection} {r : Reply}
    (history : c'.history = c.history ++ [.took r]) (reader : c'.inbox.reader = c.inbox.reader)
    (idle : c'.Idle) (first : c.inbox.handed ++ c.inbox.queued = r :: c'.inbox.queued) :
    c'.Accounted := by
  apply h.event history
  refine ⟨?_, idle.orderly, ?_⟩
  · rw [reader, history, readerAfter_concat]
    exact h.reader
  · have one : taken [Event.took r] = [r] := rfl
    rw [history, made_concat, taken_append, one, idle.handed, h.replies, first]
    simp [Event.readBy]

theorem Accounted.stopWaiting (h : c.Accounted) (nothing : c.inbox.handed = []) :
    c.stopWaiting.Accounted := by
  have idle : c.stopWaiting.Idle := rfl
  apply h.inbox (d := c.stopWaiting) rfl rfl idle.orderly
  rw [nothing, idle.handed]
  rfl

/-- The connection while the client waits for a reply. -/
def awaiting (c : Connection) : Connection :=
  { c with
    inbox := { c.inbox with waiter := .waiting (c.timeout.deadline c.now) }
    upcoming := c.upcoming.settled }

/-- A queued reply is the answer, else a recorded failure, and else one has to wait. -/
theorem answered_cases (c : Connection) :
    (∃ r rest, c.inbox.queued = r :: rest ∧
      c.answered = ({ c with inbox := { c.inbox with queued := rest } }, some (.ok r))) ∨
    (∃ s, c.inbox.queued = [] ∧ c.inbox.failure = some s ∧ c.answered = (c, some (.error s))) ∨
    (c.inbox.queued = [] ∧ c.inbox.failure = none ∧ c.answered = c.awaiting.settle) := by
  rcases queue : c.inbox.queued with _ | ⟨r, rest⟩
  · rcases failure : c.inbox.failure with _ | s
    · refine .inr (.inr ⟨rfl, rfl, ?_⟩)
      rw [answered, show c.inbox.take? = none by rw [Inbox.take?, queue, failure]; rfl]
      rfl
    · refine .inr (.inl ⟨s, rfl, rfl, ?_⟩)
      rw [answered, show c.inbox.take? = some (.error s, c.inbox) by rw [Inbox.take?, queue, failure]; rfl]
  · refine .inl ⟨r, rest, rfl, ?_⟩
    rw [answered, show c.inbox.take? = some (.ok r, { c.inbox with queued := rest }) by
      rw [Inbox.take?, queue]]

/-- What holds when a wait is over: the accounts are in balance once the reply is recorded. -/
def Settled (c : Connection) : Option (Except Setback Reply) → Prop
  | some (.ok r) => (c.record (.took r)).Accounted ∧ c.Idle
  | some (.error _) => c.Accounted ∧ c.Idle
  | none => c.Accounted

theorem Accounted.settle (h : c.Accounted) {c' : Connection} {answer : Option (Except Setback Reply)}
    (settled : c.settle = (c', answer)) : c'.Settled answer := by
  have played := steady_accounted.playWhile awaits c.upcoming h
  simp only [Connection.settle] at settled
  split at settled
  · rename_i a waiter
    obtain ⟨rfl, rfl⟩ := Prod.mk.inj settled
    cases a with
    | ok r =>
      refine ⟨played.takes (r := r) rfl rfl rfl ?_, rfl⟩
      rw [Inbox.handed, waiter]
      rfl
    | error s =>
      refine ⟨played.stopWaiting ?_, rfl⟩
      rw [Inbox.handed, waiter]
  · rename_i deadline waiter
    obtain ⟨rfl, rfl⟩ := Prod.mk.inj settled
    have nothing : (playWhile awaits c.upcoming c).inbox.handed = [] := by
      rw [Inbox.handed, waiter]
    have failed :=
      (played.stopWaiting nothing).fail (.timedOut (playWhile awaits c.upcoming c).timeout.ms)
    exact ⟨failed.elsewhere rfl rfl, fail_idle (c := (playWhile awaits c.upcoming c).stopWaiting) rfl _⟩
  · obtain ⟨rfl, rfl⟩ := Prod.mk.inj settled
    exact played

theorem Accounted.answered (h : c.Accounted) (idle : c.Idle) {c' : Connection}
    {answer : Option (Except Setback Reply)} (answered : c.answered = (c', answer)) :
    c'.Settled answer := by
  obtain ⟨r, rest, queue, same⟩ | ⟨s, -, -, same⟩ | ⟨queue, -, same⟩ := c.answered_cases
  · cases same.symm.trans answered
    refine ⟨h.takes rfl rfl idle ?_, idle⟩
    rw [idle.handed, queue]
    rfl
  · cases same.symm.trans answered
    exact ⟨h, idle⟩
  · have waits : c.awaiting.Accounted := by
      refine h.inbox rfl rfl (fun _ _ => queue) ?_
      rw [idle.handed]
      rfl
    exact waits.settle (same.symm.trans answered)

theorem Accounted.await (h : c.Accounted) (idle : c.Idle) :
    c.await.1.Accounted ∧ (c.await.2.isSome → c.await.1.Idle) := by
  rcases answered : c.answered with ⟨c', _ | s | r⟩
  all_goals
    have account := h.answered idle answered
    simp only [Connection.await, answered]
  · exact ⟨account, fun some => nomatch some⟩
  · exact ⟨account.1, fun _ => account.2⟩
  · exact ⟨account.1, fun _ => account.2⟩

/-- A new channel is read from its beginning. -/
theorem Accounted.renewed (h : c.Accounted) (idle : c.Idle) {c' : Connection}
    (history : c'.history = c.history ++ [.secured]) (inbox : c'.inbox = c.inbox.renewed) :
    c'.Accounted := by
  have quiet : c'.Idle := by
    rw [Idle, inbox]
    exact idle
  apply h.event history
  refine ⟨?_, quiet.orderly, ?_⟩
  · rw [inbox, history, readerAfter_concat]
    rfl
  · have none : taken [Event.secured] = [] := rfl
    rw [history, made_concat, taken_append, none, quiet.handed, h.replies, idle.handed, inbox]
    simp [Event.readBy, Inbox.renewed]

theorem Accounted.secure (h : c.Accounted) (idle : c.Idle) :
    c.secure.1.Accounted ∧ c.secure.1.Idle := by
  have left : ∀ handshakes s, ({ c with
      listening := false, handshakes := handshakes, upcoming := s } : Connection).Accounted :=
    fun _ _ => h.elsewhere rfl rfl
  rw [Connection.secure]
  split
  · refine ⟨steady_accounted.playWhile _ _ ?_, steady_idle.playWhile _ _ ?_⟩
    · exact (left c.handshakes.tail c.forsaken).elsewhere rfl rfl
    · exact idle
  · rename_i after error _
    have played := steady_accounted.playWhile (fun _ p => p.isBefore (c.now + after)) c.forsaken
      (left c.handshakes.tail c.forsaken)
    have quiet := steady_idle.playWhile (fun _ p => p.isBefore (c.now + after)) c.forsaken
      (c := { c with listening := false, handshakes := c.handshakes.tail, upcoming := c.forsaken })
      idle
    cases error with
    | some cause => exact ⟨played.elsewhere rfl rfl, quiet⟩
    | none => exact ⟨played.renewed quiet rfl rfl, quiet⟩

theorem Accounted.close (h : c.Accounted) (idle : c.Idle) : c.close.Accounted ∧ c.close.Idle := by
  have dropped : ({ c with dropped := true } : Connection).Accounted := h.elsewhere rfl rfl
  exact ⟨dropped.finish c.listening .closed, finish_idle (c := { c with dropped := true }) idle _ _⟩

theorem Accounted.advance (h : c.Accounted) (idle : c.Idle) (ms : ℕ) :
    (c.advance ms).Accounted ∧ (c.advance ms).Idle := by
  have played := steady_accounted.playWhile (fun _ p => (some (c.now + ms)).all (p.due ≤ ·))
    c.upcoming h
  have quiet := steady_idle.playWhile (fun _ p => (some (c.now + ms)).all (p.due ≤ ·)) c.upcoming
    (c := c) idle
  exact ⟨played.elsewhere rfl rfl, quiet⟩

theorem Accounted.perform (h : c.Accounted) (idle : c.Idle) (q : Request) :
    (c.perform q).1.Accounted ∧ ((c.perform q).2.isSome → (c.perform q).1.Idle) := by
  cases q with
  | write data =>
    obtain ⟨accounted, quiet⟩ := h.write idle data
    exact ⟨accounted, fun _ => quiet⟩
  | await => exact h.await idle
  | secure =>
    obtain ⟨accounted, quiet⟩ := h.secure idle
    exact ⟨accounted, fun _ => quiet⟩
  | close =>
    obtain ⟨accounted, quiet⟩ := h.close idle
    exact ⟨accounted, fun _ => quiet⟩
  | note text => exact ⟨h.record (fun _ => rfl) rfl, fun _ => idle⟩

/-- The accounts stay in balance whatever a client does. -/
theorem Accounted.run {α : Type} (d : Dialogue α) (h : c.Accounted) (idle : c.Idle) :
    (c.run d).1.Accounted ∧ ((c.run d).2.isSome → (c.run d).1.Idle) := by
  induction d generalizing c with
  | done a => exact ⟨h, fun _ => idle⟩
  | ask q next ih =>
    obtain ⟨accounted, quiet⟩ := h.perform idle q
    rw [Connection.run]
    rcases performed : c.perform q with ⟨c', _ | answer⟩
    · rw [performed] at accounted
      exact ⟨accounted, fun some => nomatch some⟩
    · rw [performed] at accounted quiet
      exact ih answer accounted (quiet rfl)

end Connection

end FilterBench
