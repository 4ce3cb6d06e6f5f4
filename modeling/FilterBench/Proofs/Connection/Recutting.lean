import FilterBench.Proofs.Connection.Likeness
import FilterBench.Proofs.Session.SecureChannel

/-!
# How a peer cuts what it sends

A peer that sends each octet on its own is answered as one that sends them in chunks, as long as
no chunk has cost replies (`Connection.Tidy.run_singly`): whatever a client asks for comes to the
same (`Connection.Agrees`).
-/
namespace FilterBench
open Utf8 Reply

namespace Connection

variable {c c' d : Connection} {h : List Event}

/-! ## What a peer does later -/

theorem Like.elsewhere (like : c.Like c') (f : Connection → Connection)
    (commutes : ∀ decoder reader history,
      f (c.reading decoder reader history) = (f c).reading decoder reader history)
    (still : (f c).listening = true → (f c).isOver = false → c.listening = true ∧ c.isOver = false) :
    (f c).Like (f c') := by
  have self : f c = (f c).reading c.inbox.decoder c.inbox.reader c.history := commutes _ _ _
  obtain ⟨⟨decoder, reader, history, rfl⟩, sent, reads⟩ := like
  rw [commutes]
  refine ⟨⟨decoder, reader, history, rfl⟩, ?_, ?_⟩
  · rw [self]
    exact sent
  · intro listening going
    obtain ⟨listening, going⟩ := still listening going
    rw [self]
    exact reads listening going

theorem Tidy.play_singly (tidy : c.Tidy h) (like : c.singly.Like c') {p : Part}
    (lossless : (c.play p).Lossless) : (c.play p).singly.Like (c'.play p.singly) := by
  have moved : (singly { c with now := max c.now p.due }).Like { c' with now := max c'.now p.due } :=
    like.elsewhere (fun c => { c with now := max c.now p.due }) (fun _ _ _ => rfl)
      fun listening going => ⟨listening, going⟩
  have tidy' : ({ c with now := max c.now p.due } : Connection).Tidy h := tidy.elsewhere rfl rfl rfl
  have heard : (c'.listening && !p.singly.stale) = (c.listening && !p.stale) :=
    congrArg (· && !p.stale) like.listening
  have hears : (c.listening && !p.stale) = true → c.listening = true :=
    fun yes => (Bool.and_eq_true_iff.1 yes).1
  have prompt : p.singly.turn.prompt = p.turn.prompt.singly := p.turn.prompt_singly
  rw [play] at lossless
  rw [play, play, heard, prompt]
  exact tidy'.foldl_act_singly moved hears lossless

theorem Like.left?_singly (like : c.singly.Like c') (p : Part) :
    c'.left? p.singly = (c.left? p).map Part.singly := by
  have atEnd : c'.isOver = c.isOver := like.isOver
  rw [left?, left?, atEnd]
  split
  · rfl
  · exact p.next?_singly

/-- Playing goes on as long with each octet on its own, if what is wanted does not depend on that. -/
theorem Tidy.playWhile_singly {wanted : Connection → Part → Bool} {s : Schedule}
    (same : ∀ {c c' : Connection} (p : Part), c.singly.Like c' → wanted c' p.singly = wanted c p)
    (tidy : c.Tidy h) (like : c.singly.Like c') (lossless : (playWhile wanted s c).Lossless) :
    (playWhile wanted s c).singly.Like (playWhile wanted s.singly c') := by
  have moved {c c' : Connection} (s : Schedule) (like : c.singly.Like c') :
      (singly { c with upcoming := s }).Like { c' with upcoming := s.singly } :=
    like.elsewhere (fun c => { c with upcoming := s.singly }) (fun _ _ _ => rfl)
      fun listening going => ⟨listening, going⟩
  fun_induction playWhile wanted s c generalizing c' with
  | case1 c =>
    have none : playWhile wanted (Schedule.singly []) c' = { c' with upcoming := [] } := by
      rw [Schedule.singly, List.map_nil, playWhile]
    rw [none]
    exact moved [] like
  | case2 p rest c wants ih =>
    have next : Schedule.singly (p :: rest) = p.singly :: Schedule.singly rest := rfl
    have tidy' := (steady_tidy h).play p tidy
    have first : (c.play p).Lossless := lossless.before ((steady_tidy _).playWhile wanted _ tidy'.self)
    have played := tidy.play_singly like first
    rw [next, playWhile, same p like, if_pos wants, played.left?_singly, Schedule.add?_singly]
    exact ih tidy' played lossless
  | case3 p rest c wants =>
    have next : Schedule.singly (p :: rest) = p.singly :: Schedule.singly rest := rfl
    have stays : playWhile wanted (Schedule.singly (p :: rest)) c' =
        { c' with upcoming := Schedule.singly (p :: rest) } := by
      rw [next, playWhile, same p like, if_neg wants]
    rw [stays]
    exact moved (p :: rest) like

/-! ## Requests of the client -/

theorem respond_cons {turn : Turn} {turns : List Turn} (next : c.turns = turn :: turns)
    {error : Option String} (played : turn.prompt.foldl answer ({ c with turns := turns }, none) = (d, error)) :
    c.respond = ({ d with
      upcoming := Schedule.add? (d.left? { due := c.now, turn := turn }) d.upcoming }, error) := by
  simp only [respond, next, played]

theorem Tidy.respond_singly (tidy : c.Tidy h) (like : c.singly.Like c')
    (lossless : c.respond.1.Lossless) : Agrees c.respond c'.respond := by
  have now : c'.now = c.now := like.now
  have turns : c'.turns = c.turns.map Turn.singly := like.kept Connection.turns fun _ _ _ => rfl
  cases next : c.turns with
  | nil =>
    rw [next] at turns
    have none : c.respond = (c, none) := by rw [respond, next]
    have none' : c'.respond = (c', Option.none) := by rw [respond, turns]; rfl
    rw [none, none']
    exact ⟨like, rfl⟩
  | cons turn rest =>
    rw [next] at turns
    have tidy' : ({ c with turns := rest } : Connection).Tidy h := tidy.elsewhere rfl rfl rfl
    have like' : (singly { c with turns := rest }).Like { c' with turns := rest.map Turn.singly } :=
      like.elsewhere (fun c => { c with turns := rest.map Turn.singly }) (fun _ _ _ => rfl)
        fun listening going => ⟨listening, going⟩
    rcases played : turn.prompt.foldl answer ({ c with turns := rest }, none) with ⟨d, error⟩
    rcases played' : turn.singly.prompt.foldl answer
      ({ c' with turns := rest.map Turn.singly }, none) with ⟨d', error'⟩
    rw [respond_cons next played] at lossless
    have answered : Agrees (d, error) (d', error') := by
      have answered := tidy'.foldl_answer_singly like' turn.prompt none
      rw [← Turn.prompt_singly, played, played'] at answered
      exact answered lossless
    obtain ⟨answered, rfl⟩ := answered
    have left : d'.left? { due := c.now, turn := turn.singly } =
        (d.left? { due := c.now, turn := turn }).map Part.singly :=
      answered.left?_singly { due := c.now, turn := turn }
    have upcoming : d'.upcoming = d.upcoming.singly := answered.upcoming
    rw [respond_cons next played, respond_cons turns played', now, left, upcoming,
      Schedule.add?_singly]
    refine ⟨?_, rfl⟩
    exact answered.elsewhere (fun c => { c with upcoming := _ }) (fun _ _ _ => rfl)
      fun listening going => ⟨listening, going⟩

theorem Lossless.of_record {e : Event} (lossless : (c.record e).Lossless) : c.Lossless :=
  losesFrom_of_prefix (List.prefix_append _ _) lossless

theorem Tidy.write_singly (tidy : c.Tidy h) (like : c.singly.Like c') {data : Bytes}
    (lossless : (c.write data).1.Lossless) : Agrees (c.write data) (c'.write data) := by
  have failure : c'.inbox.failure = c.inbox.failure :=
    like.kept (fun c => c.inbox.failure) fun _ _ _ => rfl
  have atEnd : c'.isOver = c.isOver := like.isOver
  rcases failed : c.inbox.failure with _ | s
  · rcases going : c.isOver
    · have wrote : (c.record (.wrote data)).Tidy h := tidy.record fun _ => rfl
      have like' : (c.record (.wrote data)).singly.Like (c'.record (.wrote data)) := like.record _
      rw [write_going failed going] at lossless
      rw [write_going failed going, write_going (failure.trans failed) (atEnd.trans going)]
      have responded := wrote.respond_singly like' lossless
      exact ⟨responded.1, congrArg verdict responded.2⟩
    · rw [Connection.write, Connection.write, failure, atEnd, failed, going]
      exact ⟨like.record _, rfl⟩
  · rw [Connection.write, Connection.write, failure, failed]
    exact ⟨like, rfl⟩

theorem awaits_singly {c c' : Connection} (p : Part) (like : c.singly.Like c') :
    c'.awaits p.singly = c.awaits p := by
  have waiter : c'.inbox.waiter = c.inbox.waiter :=
    like.kept (fun c => c.inbox.waiter) fun _ _ _ => rfl
  rw [awaits, awaits, waiter]
  rfl

/-- What comes of a wait when all has been played that was waited for. -/
def waited (c : Connection) : Connection × Option (Except Setback Reply) :=
  match c.inbox.waiter with
  | .answered a => (c.stopWaiting, some a)
  | .waiting (some deadline) => c.expire deadline
  | _ => (c, none)

theorem settle_eq (c : Connection) : c.settle = (playWhile awaits c.upcoming c).waited := rfl

theorem waited_history (c : Connection) : c.waited.1.history = c.history := by
  unfold waited
  split <;> rfl

theorem Like.waited (like : c.singly.Like c') : Agrees c.waited c'.waited := by
  have waiter : c'.inbox.waiter = c.inbox.waiter :=
    like.kept (fun c => c.inbox.waiter) fun _ _ _ => rfl
  have stopped : c.stopWaiting.singly.Like c'.stopWaiting :=
    like.elsewhere stopWaiting (fun _ _ _ => rfl) fun listening going => ⟨listening, going⟩
  unfold Connection.waited
  rw [waiter]
  split
  · exact ⟨stopped, rfl⟩
  · rename_i deadline _
    have timeout : c'.timeout = c.timeout := like.kept Connection.timeout fun _ _ _ => rfl
    have failed := stopped.fail (.timedOut c.timeout.ms)
    rw [expire, expire, timeout]
    refine ⟨?_, rfl⟩
    apply failed.elsewhere (fun c => { c with now := deadline, dropped := true }) fun _ _ _ => rfl
    intro _ going
    simp [Connection.isOver] at going
  · exact ⟨like, rfl⟩

theorem Tidy.settle_singly (tidy : c.Tidy h) (like : c.singly.Like c')
    (lossless : c.settle.1.Lossless) : Agrees c.settle c'.settle := by
  have upcoming : c'.upcoming = c.upcoming.singly := like.upcoming
  rw [settle_eq, Lossless, waited_history] at lossless
  rw [settle_eq, settle_eq, upcoming]
  exact (tidy.playWhile_singly awaits_singly like lossless).waited

theorem Like.awaiting (like : c.singly.Like c') : c.awaiting.singly.Like c'.awaiting := by
  have same : c.awaiting.singly = c.singly.awaiting := by
    have settled : c.singly.upcoming.settled = c.upcoming.settled.singly := Schedule.settled_singly _
    rw [Connection.awaiting, Connection.awaiting, settled]
    rfl
  rw [same]
  exact like.elsewhere Connection.awaiting (fun _ _ _ => rfl)
    fun listening going => ⟨listening, going⟩

theorem Tidy.answered_singly (tidy : c.Tidy h) (like : c.singly.Like c')
    (lossless : c.answered.1.Lossless) : Agrees c.answered c'.answered := by
  obtain ⟨decoder, reader, history, same⟩ := like.same
  have inbox : c'.inbox = c.inbox.reading decoder reader := by
    rw [same]
    rfl
  have take := c.inbox.take?_reading decoder reader
  rw [← inbox] at take
  rcases taken : c.inbox.take? with _ | ⟨answer, b⟩
  · have waits {c : Connection} (taken : c.inbox.take? = none) :
        c.answered = c.awaiting.settle := by
      rw [Connection.answered, taken]
      rfl
    rw [taken] at take
    rw [waits taken] at lossless
    rw [waits taken, waits take]
    have tidy' : c.awaiting.Tidy h := tidy.elsewhere rfl rfl rfl
    exact tidy'.settle_singly like.awaiting lossless
  · rw [taken] at take
    have read := Inbox.take?_reads taken
    rw [Connection.answered, Connection.answered, taken, take]
    refine ⟨⟨⟨decoder, reader, history, ?_⟩, like.sent, ?_⟩, rfl⟩
    · rw [same]
      rfl
    · intro listening going
      obtain ⟨first, second⟩ := like.reads listening going
      rw [same] at first second
      exact ⟨first.trans read.1.symm, second.trans read.2.symm⟩

theorem Tidy.await_singly (tidy : c.Tidy h) (like : c.singly.Like c')
    (lossless : c.await.1.Lossless) : Agrees c.await c'.await := by
  have answered := tidy.answered_singly like
  unfold Connection.await at lossless ⊢
  rcases eq : c.answered with ⟨d, a⟩
  rcases eq' : c'.answered with ⟨d', a'⟩
  rw [eq] at lossless
  rw [eq, eq'] at answered
  rcases a with _ | s | r
  · obtain ⟨answered, rfl⟩ := answered lossless
    exact ⟨answered, rfl⟩
  · obtain ⟨answered, rfl⟩ := answered lossless
    exact ⟨answered, rfl⟩
  · obtain ⟨answered, rfl⟩ := answered lossless.of_record
    exact ⟨answered.record _, rfl⟩

theorem forsaken_singly (like : c.singly.Like c') : c'.forsaken = Schedule.singly c.forsaken := by
  have dropped : c'.dropped = c.dropped := like.kept Connection.dropped fun _ _ _ => rfl
  have upcoming : c'.upcoming.settled = c.upcoming.settled.singly :=
    (congrArg _ like.upcoming).trans c.upcoming.settled_singly
  rw [forsaken, forsaken, dropped, upcoming, Schedule.singly, Schedule.singly, List.map_map,
    List.map_map]
  apply List.map_congr_left
  intro p _
  cases c.dropped <;> rfl

theorem Like.handshaking (like : c.singly.Like c') :
    c.handshaking.singly.Like c'.handshaking := by
  have same : c.handshaking.singly = c.singly.handshaking := by
    have left : c.singly.forsaken = c.forsaken.singly := forsaken_singly (.refl _)
    rw [Connection.handshaking, Connection.handshaking, left]
    rfl
  rw [same]
  apply like.elsewhere Connection.handshaking fun _ _ _ => rfl
  rintro ⟨⟩

theorem Like.secured (like : c.singly.Like c') (now : ℕ) :
    (c.secured now).singly.Like (c'.secured now) := by
  obtain ⟨⟨decoder, reader, history, rfl⟩, sent, -⟩ := like
  refine ⟨⟨{}, {}, history ++ [.secured], rfl⟩, ?_, fun _ _ => ⟨rfl, rfl⟩⟩
  have nothing (c : Connection) : (c.secured now).sent = c.sent :=
    (sent_record _ _).trans (List.append_nil _)
  rw [nothing, sent]
  exact (nothing c).symm

theorem Tidy.secure_singly (tidy : c.Tidy h) (like : c.singly.Like c')
    (lossless : c.secure.1.Lossless) : Agrees c.secure c'.secure := by
  have handshakes : c'.handshakes = c.handshakes :=
    like.kept Connection.handshakes fun _ _ _ => rfl
  have now : c'.now = c.now := like.now
  have tidy' : c.handshaking.Tidy h := tidy.elsewhere rfl rfl rfl
  have timed : ∀ (finish : ℕ) {c c' : Connection} (p : Part), c.singly.Like c' →
      p.singly.isBefore finish = p.isBefore finish := fun _ _ _ _ _ => rfl
  rcases attempt : c.handshakes.headD (.settles 0 none) with _ | ⟨after, _ | cause⟩
  all_goals
    have attempt' := attempt
    rw [← handshakes] at attempt'
  · have left : (singly { c.handshaking with dropped := false, spoiled := false }).Like
        { c'.handshaking with dropped := false, spoiled := false } := by
      apply like.handshaking.elsewhere (fun c => { c with dropped := false, spoiled := false })
        fun _ _ _ => rfl
      rintro ⟨⟩
    have tidy'' : ({ c.handshaking with dropped := false, spoiled := false } : Connection).Tidy h :=
      tidy'.elsewhere rfl rfl rfl
    rw [secure_of_never attempt] at lossless
    have played := tidy''.playWhile_singly (fun _ _ => rfl) left lossless
    rw [secure_of_never attempt, secure_of_never attempt', forsaken_singly like]
    exact ⟨played, rfl⟩
  · rw [secure_of_succeeds attempt] at lossless
    have played := tidy'.playWhile_singly (timed _) like.handshaking lossless.of_record
    rw [secure_of_succeeds attempt, secure_of_succeeds attempt', forsaken_singly like, now]
    exact ⟨played.secured _, rfl⟩
  · rw [secure_of_fails attempt] at lossless
    have played := tidy'.playWhile_singly (timed _) like.handshaking lossless
    rw [secure_of_fails attempt, secure_of_fails attempt', forsaken_singly like, now]
    refine ⟨?_, rfl⟩
    exact played.elsewhere (fun d => { d with now := c.now + after, spoiled := true })
      (fun _ _ _ => rfl) fun listening going => ⟨listening, going⟩

theorem Like.close (like : c.singly.Like c') : c.close.singly.Like c'.close := by
  have dropped : (singly { c with dropped := true }).Like { c' with dropped := true } := by
    apply like.elsewhere (fun c => { c with dropped := true }) fun _ _ _ => rfl
    rintro - ⟨⟩
  have finished := dropped.finish c'.listening .closed
  have same : c.close = Connection.finish { c with dropped := true } c'.listening .closed :=
    congrArg (Connection.finish { c with dropped := true } · _) like.listening.symm
  rw [singly_finish] at finished
  rw [same]
  exact finished

theorem Tidy.perform_singly (tidy : c.Tidy h) (like : c.singly.Like c') (q : Request)
    (lossless : (c.perform q).1.Lossless) : Agrees (c.perform q) (c'.perform q) := by
  cases q with
  | write data =>
    obtain ⟨written, answer⟩ := tidy.write_singly like lossless
    exact ⟨written, congrArg some answer⟩
  | await => exact tidy.await_singly like lossless
  | secure => exact tidy.secure_singly like lossless
  | close => exact ⟨like.close, rfl⟩
  | note text => exact ⟨like.record _, rfl⟩

/-- A dialogue that loses nothing is carried out as with a peer that sends each octet on its own. -/
theorem Tidy.run_singly {α : Type} (tidy : c.Tidy h) (like : c.singly.Like c') (d : Dialogue α)
    (lossless : (c.run d).1.Lossless) : Agrees (c.run d) (c'.run d) := by
  induction d generalizing c c' with
  | done a => exact ⟨like, rfl⟩
  | ask q next ih =>
    have performed := tidy.perform_singly like q
    have tidy' := tidy.perform q
    rcases eq : c.perform q with ⟨d, answer⟩
    rcases eq' : c'.perform q with ⟨d', answer'⟩
    rw [eq, eq'] at performed
    rw [eq] at tidy'
    rw [Connection.run, eq] at lossless ⊢
    rw [Connection.run, eq']
    cases answer with
    | none =>
      obtain ⟨performed, rfl⟩ := performed lossless
      exact ⟨performed, rfl⟩
    | some answer =>
      have later : d.Lossless := lossless.before (tidy'.self.run (next answer))
      obtain ⟨performed, rfl⟩ := performed later
      exact ih answer tidy' performed lossless

end Connection

end FilterBench
