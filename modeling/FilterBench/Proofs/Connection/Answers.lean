import FilterBench.Proofs.Connection.Accounting
import FilterBench.Proofs.Session.Dealings

/-!
# What a connection answers

Whatever a peer does, the setbacks that a connection answers with are its own (`Setback.OfChannel`):
it never says that a reply is not accepted, which only a client can judge. With a time limit every
wait for a reply is answered, so that a dialogue without handshakes comes to its end
(`Connection.run_ends`). What the client does itself stands in the history in the order of its
dealings (`Connection.traced_run`).
-/
namespace FilterBench
open Utf8 Reply

/-- What can go wrong with a channel. -/
def Setback.OfChannel : Setback → Prop
  | .timedOut _ | .malformed _ | .handshakeFailed _ | .writeFailed _ | .brokenDown _ | .closed => True
  | .refused _ | .connectFailed _ _ _ | .challenged _ | .streamClosed | .noStream => False

def Dealing.Sound (x : Dealing) : Prop := ∀ s, x.setback? = some s → s.OfChannel

/-- A property of inboxes that is kept whatever is received. -/
structure Receives (P : Inbox → Prop) : Prop where
  deliver : ∀ {b : Inbox} (r : Reply), P b → P (b.deliver r)
  fail : ∀ {b : Inbox} {s : Setback}, s.OfChannel → P b → P (b.fail s)
  read : ∀ {b : Inbox} (decoder : Decoder) (reader : Reader), P b →
    P { b with decoder := decoder, reader := reader }

namespace Receives

variable {P : Inbox → Prop} (receives : Receives P)
include receives

theorem foldl_deliver (replies : List Reply) {b : Inbox} (h : P b) :
    P (replies.foldl Inbox.deliver b) := by
  induction replies generalizing b with
  | nil => exact h
  | cons r replies ih => exact ih (receives.deliver r h)

theorem readText (text : List Char) {b : Inbox} (h : P b) : P (b.readText text).1 := by
  rw [Inbox.readText]
  split
  · rename_i reader replies _
    have moved : P { b with reader := reader } := receives.read b.decoder reader h
    exact receives.foldl_deliver replies moved
  · rename_i reader line _
    have moved : P { b with reader := reader } := receives.read b.decoder reader h
    exact receives.fail trivial moved

theorem hear (chunk : Bytes) {c : Connection} (h : P c.inbox) : P (c.hear chunk).inbox := by
  rcases read : c.inbox.decoder.read chunk with ⟨d, text⟩
  have moved : P { c.inbox with decoder := d } := receives.read d c.inbox.reader h
  by_cases none : text = []
  · rw [none] at read
    rw [Connection.hear_of_nil read]
    exact moved
  · rw [Connection.hear_of_text read none]
    exact receives.readText text moved

theorem steady : Connection.Steady fun c => P c.inbox where
  act {c} heard a h := by
    have finished : ∀ s : Setback, s.OfChannel →
        P (({ c with ended := true } : Connection).finish heard s).inbox := by
      intro s own
      cases heard
      · exact h
      · exact receives.fail own h
    unfold Connection.act
    split
    · exact h
    · cases a with
      | sends chunk =>
        cases heard
        · exact h
        · exact receives.hear chunk h
      | closes => exact finished _ trivial
      | breaksDown message => exact finished _ trivial
      | failsWrite message => exact h
      | waits ms => exact h
  move now s h := h

end Receives

namespace Inbox

/-- What it says went wrong went wrong with a channel. -/
structure Sound (b : Inbox) : Prop where
  failure : ∀ s, b.failure = some s → s.OfChannel
  answered : ∀ s, b.waiter = .answered (.error s) → s.OfChannel

/-- Who waits has an answer, or a deadline. -/
def Attended (b : Inbox) : Prop :=
  (∃ a, b.waiter = .answered a) ∨ ∃ deadline, b.waiter = .waiting (some deadline)

theorem receives_sound : Receives Sound where
  deliver {b} r h := by
    unfold deliver
    split
    · refine ⟨h.failure, ?_⟩
      intro s answered
      cases answered
    · exact ⟨h.failure, h.answered⟩
  fail {b s} own h := by
    unfold fail
    split
    · exact h
    · split
      · constructor
        · intro t failed
          cases failed
          exact own
        · intro t answered
          cases answered
          exact own
      · constructor
        · intro t failed
          cases failed
          exact own
        · exact h.answered
  read _ _ h := ⟨h.failure, h.answered⟩

theorem receives_attended : Receives Attended where
  deliver {b} r h := by
    unfold deliver
    split
    · exact .inl ⟨_, rfl⟩
    · exact h
  fail {b s} _ h := by
    unfold fail
    split
    · exact h
    · split
      · exact .inl ⟨_, rfl⟩
      · exact h
  read _ _ h := h

theorem Sound.idle {b : Inbox} (h : b.Sound) : ({ b with waiter := .idle } : Inbox).Sound := by
  refine ⟨h.failure, ?_⟩
  intro s answered
  cases answered

end Inbox

namespace Connection

variable {c c' : Connection}

/-! ## Setbacks -/

theorem settle_sound (h : c.inbox.Sound) {answer : Option (Except Setback Reply)}
    (settled : c.settle = (c', answer)) :
    c'.inbox.Sound ∧ ∀ s, answer = some (.error s) → s.OfChannel := by
  have played := Inbox.receives_sound.steady.playWhile awaits c.upcoming h
  simp only [settle] at settled
  split at settled
  · rename_i a waiter
    obtain ⟨rfl, rfl⟩ := Prod.mk.inj settled
    refine ⟨played.idle, ?_⟩
    rintro s ⟨⟩
    exact played.answered s waiter
  · obtain ⟨rfl, rfl⟩ := Prod.mk.inj settled
    refine ⟨Inbox.receives_sound.fail trivial played.idle, ?_⟩
    rintro s ⟨⟩
    trivial
  · obtain ⟨rfl, rfl⟩ := Prod.mk.inj settled
    refine ⟨played, ?_⟩
    rintro s ⟨⟩

theorem answered_sound (h : c.inbox.Sound) {answer : Option (Except Setback Reply)}
    (answered : c.answered = (c', answer)) :
    c'.inbox.Sound ∧ ∀ s, answer = some (.error s) → s.OfChannel := by
  rw [Connection.answered] at answered
  split at answered
  · rename_i a b taken
    obtain ⟨rfl, rfl⟩ := Prod.mk.inj answered
    rw [Inbox.take?] at taken
    split at taken
    · cases taken
      refine ⟨⟨h.failure, h.answered⟩, ?_⟩
      rintro s ⟨⟩
    · obtain ⟨s, failure, same⟩ := Option.map_eq_some_iff.1 taken
      cases same
      refine ⟨h, ?_⟩
      rintro t ⟨⟩
      exact h.failure s failure
  · have waits : ∀ deadline schedule, ({ c with
        inbox := { c.inbox with waiter := .waiting deadline }, upcoming := schedule } :
          Connection).inbox.Sound := by
      intro deadline schedule
      refine ⟨h.failure, ?_⟩
      rintro s ⟨⟩
    exact settle_sound (waits _ _) answered

theorem await_sound (h : c.inbox.Sound) {answer : Option (Except Setback Reply)}
    (awaited : c.await = (c', answer)) :
    c'.inbox.Sound ∧ ∀ s, answer = some (.error s) → s.OfChannel := by
  rcases answered : c.answered with ⟨d, _ | s | r⟩
  all_goals
    obtain ⟨sound, own⟩ := answered_sound h answered
    simp only [await, answered] at awaited
    obtain ⟨rfl, rfl⟩ := Prod.mk.inj awaited
  · exact ⟨sound, own⟩
  · exact ⟨sound, own⟩
  · refine ⟨sound, ?_⟩
    rintro t ⟨⟩

theorem write_sound (h : c.inbox.Sound) {data : Bytes} {answer : Except Setback Unit}
    (written : c.write data = (c', answer)) :
    c'.inbox.Sound ∧ ∀ s, answer = .error s → s.OfChannel := by
  have responded := Inbox.receives_sound.steady.respond (fun _ h => h) (c := c.record (.wrote data)) h
  rw [write] at written
  split at written
  · rename_i s failure
    obtain ⟨rfl, rfl⟩ := Prod.mk.inj written
    refine ⟨h, ?_⟩
    rintro t ⟨⟩
    exact h.failure s failure
  · split at written
    · obtain ⟨rfl, rfl⟩ := Prod.mk.inj written
      refine ⟨h, ?_⟩
      rintro t ⟨⟩
      trivial
    · split at written
      all_goals
        rename_i eq
        rw [eq] at responded
        obtain ⟨rfl, rfl⟩ := Prod.mk.inj written
        refine ⟨responded, ?_⟩
        rintro t ⟨⟩
      trivial

theorem secure_sound (h : c.inbox.Sound) {answer : Option (Except Setback Unit)}
    (secured : c.secure = (c', answer)) :
    c'.inbox.Sound ∧ ∀ s, answer = some (.error s) → s.OfChannel := by
  rw [secure] at secured
  split at secured
  · obtain ⟨rfl, rfl⟩ := Prod.mk.inj secured
    refine ⟨Inbox.receives_sound.steady.playWhile _ _ h, ?_⟩
    rintro s ⟨⟩
  · rename_i after error _
    have played := Inbox.receives_sound.steady.playWhile (fun _ p => p.isBefore (c.now + after))
      c.forsaken (c := { c with
        listening := false, handshakes := c.handshakes.tail, upcoming := c.forsaken }) h
    cases error with
    | some cause =>
      obtain ⟨rfl, rfl⟩ := Prod.mk.inj secured
      refine ⟨played, ?_⟩
      rintro s ⟨⟩
      trivial
    | none =>
      obtain ⟨rfl, rfl⟩ := Prod.mk.inj secured
      refine ⟨⟨played.failure, played.answered⟩, ?_⟩
      rintro s ⟨⟩

/-- What is answered is sound, and leaves the inbox sound. -/
theorem perform_sound (h : c.inbox.Sound) {q : Request} {answer : q.Answer}
    (performed : c.perform q = (c', some answer)) :
    c'.inbox.Sound ∧ Dealing.Sound ⟨q, answer⟩ := by
  cases q with
  | write data =>
    rcases written : c.write data with ⟨d, a⟩
    have sound := write_sound h written
    simp only [perform, written, Prod.mk.injEq, Option.some.injEq] at performed
    obtain ⟨rfl, rfl⟩ := performed
    refine ⟨sound.1, ?_⟩
    cases a with
    | ok _ => rintro s ⟨⟩
    | error t =>
      rintro s ⟨⟩
      exact sound.2 t rfl
  | await =>
    have sound := await_sound h performed
    refine ⟨sound.1, ?_⟩
    cases answer with
    | ok _ => rintro s ⟨⟩
    | error t =>
      rintro s ⟨⟩
      exact sound.2 t rfl
  | secure =>
    have sound := secure_sound h performed
    refine ⟨sound.1, ?_⟩
    cases answer with
    | ok _ => rintro s ⟨⟩
    | error t =>
      rintro s ⟨⟩
      exact sound.2 t rfl
  | close =>
    obtain ⟨rfl, -⟩ := Prod.mk.inj performed
    constructor
    · show (({ c with dropped := true } : Connection).finish c.listening .closed).inbox.Sound
      cases c.listening
      · exact h
      · exact Inbox.receives_sound.fail trivial h
    · rintro s ⟨⟩
  | note text =>
    obtain ⟨rfl, -⟩ := Prod.mk.inj performed
    refine ⟨h, ?_⟩
    rintro s ⟨⟩

theorem sound_dealings {α : Type} {d : Dialogue α} (h : c.inbox.Sound) :
    ∀ x ∈ c.dealings d, x.Sound :=
  forall_dealings (P := fun c => c.inbox.Sound) (fun h performed => (perform_sound h performed).1)
    (fun h performed => (perform_sound h performed).2) h

end Connection

/-! ## What the client does -/

/-- It is something that the client does or takes, or says. -/
def Event.isOwn : Event → Bool
  | .heard _ => false
  | _ => true

theorem taken_own (history : List Event) : taken (history.filter Event.isOwn) = taken history := by
  rw [taken, taken, List.filterMap_filter]
  congr 1
  funext e
  cases e <;> rfl

/-- What a dealing leaves in the history. -/
inductive Dealing.Traced : Dealing → List Event → Prop
  | said (data : Bytes) : Traced (.said data) [.wrote data]
  | refused (data : Bytes) (s : Setback) : Traced ⟨.write data, .error s⟩ []
  | lost (data : Bytes) (s : Setback) : Traced ⟨.write data, .error s⟩ [.lost data]
  | failed (data : Bytes) (s : Setback) : Traced ⟨.write data, .error s⟩ [.wrote data]
  | got (r : Reply) : Traced (.got r) [.took r]
  | unanswered (s : Setback) : Traced ⟨.await, .error s⟩ []
  | secured : Traced .secured [.secured]
  | unsecured (s : Setback) : Traced ⟨.secure, .error s⟩ []
  | closed : Traced ⟨.close, ()⟩ []
  | noted (text : String) : Traced ⟨.note text, ()⟩ [.remarked text]

/-- What some dealings leave in the history, in their order. -/
inductive Traced : List Dealing → List Event → Prop
  | nil : Traced [] []
  | cons {x : Dealing} {deals : List Dealing} {es es' : List Event} : x.Traced es →
      Traced deals es' → Traced (x :: deals) (es ++ es')

namespace Connection

/-- The time limit stays as it is, and the client does this and nothing else. -/
structure Goes (c : Connection) (es : List Event) (c' : Connection) : Prop where
  timeout : c'.timeout = c.timeout
  own : c'.history.filter Event.isOwn = c.history.filter Event.isOwn ++ es

variable {c c' : Connection}

namespace Goes

variable {es es' : List Event}

theorem refl (c : Connection) : c.Goes [] c := ⟨rfl, (List.append_nil _).symm⟩

theorem elsewhere {d : Connection} (h : c.Goes es d) (timeout : c'.timeout = d.timeout)
    (history : c'.history = d.history) : c.Goes es c' :=
  ⟨timeout.trans h.timeout, (congrArg _ history).trans h.own⟩

theorem record {d : Connection} (h : c.Goes [] d) {e : Event} (own : e.isOwn = true) :
    c.Goes [e] (d.record e) := by
  refine ⟨h.timeout, ?_⟩
  rw [Connection.record, List.filter_append, h.own, List.append_nil, List.filter_cons_of_pos own]
  rfl

theorem finish {d : Connection} (h : c.Goes es d) (heard : Bool) (s : Setback) :
    c.Goes es (d.finish heard s) := by
  cases heard
  · exact h
  · exact h.elsewhere rfl rfl

/-- What the peer says is not the client's own doing. -/
theorem hear {d : Connection} (h : c.Goes es d) (chunk : Bytes) : c.Goes es (d.hear chunk) := by
  rcases read : d.inbox.decoder.read chunk with ⟨decoder, text⟩
  by_cases none : text = []
  · rw [none] at read
    rw [hear_of_nil read]
    exact h.elsewhere rfl rfl
  · rw [hear_of_text read none]
    refine ⟨h.timeout, ?_⟩
    rw [Connection.record, List.filter_append]
    exact (List.append_nil _).trans h.own

theorem steady (c : Connection) (es : List Event) : Steady (c.Goes es) where
  act {d} heard a h := by
    have ends : c.Goes es { d with ended := true } := h.elsewhere rfl rfl
    unfold act
    split
    · exact h
    · cases a with
      | sends chunk =>
        cases heard
        · exact h
        · exact h.hear chunk
      | closes => exact ends.finish heard _
      | breaksDown message => exact ends.finish heard _
      | failsWrite message => exact h
      | waits ms => exact h
  move now s h := h.elsewhere rfl rfl

end Goes

theorem goes_advance (c : Connection) (ms : ℕ) : c.Goes [] (c.advance ms) := by
  have played := (Goes.steady c []).playWhile (fun _ p => (some (c.now + ms)).all (p.due ≤ ·))
    c.upcoming (.refl c)
  exact played.elsewhere rfl rfl

theorem goes_write {data : Bytes} {answer : Except Setback Unit}
    (written : c.write data = (c', answer)) :
    ∃ es, Dealing.Traced ⟨.write data, answer⟩ es ∧ c.Goes es c' := by
  rw [write] at written
  split at written
  · obtain ⟨rfl, rfl⟩ := Prod.mk.inj written
    exact ⟨[], .refused data _, .refl c⟩
  · split at written
    · obtain ⟨rfl, rfl⟩ := Prod.mk.inj written
      exact ⟨_, .lost data _, (Goes.refl c).record rfl⟩
    · have wrote : c.Goes [.wrote data] (c.record (.wrote data)) := (Goes.refl c).record rfl
      have responded := (Goes.steady c [.wrote data]).respond (fun _ h => h.elsewhere rfl rfl) wrote
      split at written <;> rename_i eq <;> rw [eq] at responded
      · obtain ⟨rfl, rfl⟩ := Prod.mk.inj written
        exact ⟨_, .failed data _, responded⟩
      · obtain ⟨rfl, rfl⟩ := Prod.mk.inj written
        exact ⟨_, .said data, responded⟩

theorem goes_settle {d : Connection} (h : c.Goes [] d) : c.Goes [] d.settle.1 := by
  have played := (Goes.steady c []).playWhile awaits d.upcoming h
  rw [settle]
  split
  · exact played.elsewhere rfl rfl
  · exact played.elsewhere rfl rfl
  · exact played

theorem goes_answered : c.Goes [] c.answered.1 := by
  rw [answered]
  split
  · exact (Goes.refl c).elsewhere rfl rfl
  · exact goes_settle ((Goes.refl c).elsewhere rfl rfl)

theorem goes_secure : ∃ es, c.Goes es c.secure.1 ∧ (c.secure.2 = none → es = []) ∧
    ∀ answer, c.secure.2 = some answer → Dealing.Traced ⟨.secure, answer⟩ es := by
  have left : c.Goes [] { c with
      listening := false, handshakes := c.handshakes.tail, upcoming := c.forsaken } :=
    (Goes.refl c).elsewhere rfl rfl
  rw [secure]
  split
  · refine ⟨[], (Goes.steady c []).playWhile _ _ (left.elsewhere rfl rfl), fun _ => rfl, ?_⟩
    rintro answer ⟨⟩
  · rename_i after error _
    have played := (Goes.steady c []).playWhile (fun _ p => p.isBefore (c.now + after)) c.forsaken left
    cases error with
    | some cause =>
      refine ⟨[], played.elsewhere rfl rfl, fun _ => rfl, ?_⟩
      rintro answer ⟨⟩
      exact .unsecured _
    | none =>
      refine ⟨[.secured], Goes.record (d := _) ?_ rfl, ?_, ?_⟩
      · exact played.elsewhere rfl rfl
      · rintro ⟨⟩
      · rintro answer ⟨⟩
        exact .secured

theorem goes_perform {q : Request} {answer : q.Answer} (performed : c.perform q = (c', some answer)) :
    ∃ es, Dealing.Traced ⟨q, answer⟩ es ∧ c.Goes es c' := by
  cases q with
  | write data =>
    rcases written : c.write data with ⟨d, a⟩
    simp only [perform, written, Prod.mk.injEq, Option.some.injEq] at performed
    obtain ⟨rfl, rfl⟩ := performed
    exact goes_write written
  | await =>
    have waited : c.Goes [] c.answered.1 := goes_answered
    simp only [perform, await] at performed
    split at performed
    · rename_i d r eq
      rw [eq] at waited
      obtain ⟨rfl, same⟩ := Prod.mk.inj performed
      cases same
      exact ⟨_, .got r, waited.record rfl⟩
    · rename_i other
      rw [performed] at waited other
      cases answer with
      | ok r => exact absurd rfl (other c' r)
      | error s => exact ⟨[], .unanswered s, waited⟩
  | secure =>
    obtain ⟨es, goes, -, traced⟩ := goes_secure (c := c)
    have performed : c.secure = (c', some answer) := performed
    rw [performed] at goes traced
    exact ⟨es, traced answer rfl, goes⟩
  | close =>
    obtain ⟨rfl, -⟩ := Prod.mk.inj performed
    have dropped : c.Goes [] { c with dropped := true } := (Goes.refl c).elsewhere rfl rfl
    exact ⟨[], .closed, dropped.finish _ _⟩
  | note text =>
    obtain ⟨rfl, -⟩ := Prod.mk.inj performed
    exact ⟨_, .noted text, (Goes.refl c).record rfl⟩

/-- A request that is never answered leaves nothing in the history. -/
theorem goes_stuck {q : Request} (stuck : c.perform q = (c', none)) : c.Goes [] c' := by
  cases q with
  | write data => cases (Prod.mk.inj stuck).2
  | await =>
    have waited : c.Goes [] c.answered.1 := goes_answered
    simp only [perform, await] at stuck
    split at stuck
    · cases (Prod.mk.inj stuck).2
    · rwa [stuck] at waited
  | secure =>
    obtain ⟨es, goes, nothing, -⟩ := goes_secure (c := c)
    have stuck : c.secure = (c', none) := stuck
    rw [stuck] at goes nothing
    rwa [nothing rfl] at goes
  | close => cases (Prod.mk.inj stuck).2
  | note text => cases (Prod.mk.inj stuck).2

/-- The history of a dialogue shows what the client did in it, in the order of its dealings. -/
theorem traced_run {α : Type} (d : Dialogue α) (c : Connection) :
    ∃ es, Traced (c.dealings d) es ∧ c.Goes es (c.run d).1 := by
  induction d generalizing c with
  | done a => exact ⟨[], .nil, .refl c⟩
  | ask q next ih =>
    rcases performed : c.perform q with ⟨c₁, _ | answer⟩
    · obtain ⟨none, stuck⟩ := dealings_stuck (k := next) performed
      rw [none, stuck]
      exact ⟨[], .nil, goes_stuck performed⟩
    · obtain ⟨deals, ran⟩ := dealings_ask (k := next) performed
      obtain ⟨es, traced, goes⟩ := goes_perform performed
      obtain ⟨es', traced', goes'⟩ := ih answer c₁
      rw [deals, ran]
      refine ⟨es ++ es', .cons traced traced', goes'.timeout.trans goes.timeout, ?_⟩
      rw [goes'.own, goes.own, List.append_assoc]

/-! ## Dialogues that come to an end -/

/-- With a time limit every wait is over some time. -/
theorem await_ends (limited : 0 < c.timeout.ms) : ∃ answer, c.await.2 = some answer := by
  have ended : ∃ answer, c.answered.2 = some answer := by
    rw [answered]
    split
    · exact ⟨_, rfl⟩
    · have attended :
          ({ c.inbox with waiter := .waiting (c.timeout.deadline c.now) } : Inbox).Attended :=
        .inr ⟨_, congrArg Waiter.waiting (Timeout.deadline_of_pos limited c.now)⟩
      have played := Inbox.receives_attended.steady.playWhile awaits c.upcoming.settled
        (c := { c with
          inbox := { c.inbox with waiter := .waiting (c.timeout.deadline c.now) }
          upcoming := c.upcoming.settled }) attended
      rw [settle]
      obtain ⟨a, waiter⟩ | ⟨deadline, waiter⟩ := played
      · rw [waiter]
        exact ⟨a, rfl⟩
      · rw [waiter]
        exact ⟨_, rfl⟩
  obtain ⟨answer, ended⟩ := ended
  rw [await]
  split
  · exact ⟨_, rfl⟩
  · exact ⟨answer, ended⟩

theorem perform_ends (limited : 0 < c.timeout.ms) {q : Request} (clear : q ≠ .secure) :
    ∃ c' answer, c.perform q = (c', some answer) ∧ 0 < c'.timeout.ms := by
  have ended : ∃ answer, (c.perform q).2 = some answer := by
    cases q with
    | write data => exact ⟨_, rfl⟩
    | await => exact await_ends limited
    | secure => exact absurd rfl clear
    | close => exact ⟨_, rfl⟩
    | note text => exact ⟨_, rfl⟩
  obtain ⟨answer, ended⟩ := ended
  have performed : c.perform q = ((c.perform q).1, some answer) := by
    rw [← ended]
  obtain ⟨es, -, goes⟩ := goes_perform performed
  exact ⟨_, answer, performed, by rwa [goes.timeout]⟩

end Connection

/-- A dialogue that asks for no handshake. -/
inductive Dialogue.InClear {α : Type} : Dialogue α → Prop
  | done (a : α) : InClear (.done a)
  | ask {q : Request} {next : q.Answer → Dialogue α} : q ≠ .secure →
      (∀ answer, InClear (next answer)) → InClear (.ask q next)

/-- With a time limit, and without handshakes, a dialogue comes to its end. -/
theorem Connection.run_ends {α : Type} {d : Dialogue α} (clear : d.InClear) {c : Connection}
    (limited : 0 < c.timeout.ms) : ∃ c' a, c.run d = (c', some a) := by
  induction clear generalizing c with
  | done a => exact ⟨c, a, rfl⟩
  | ask clear _ ih =>
    obtain ⟨c₁, answer, performed, limited⟩ := perform_ends limited clear
    obtain ⟨c', a, ran⟩ := ih answer limited
    exact ⟨c', a, (dealings_ask performed).2.trans ran⟩

end FilterBench
