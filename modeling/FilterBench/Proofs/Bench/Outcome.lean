import FilterBench.Proofs.Bench.Aftermath
import FilterBench.Proofs.Bench.ExitVerdict
import FilterBench.Proofs.Bench.Playing

/-!
# The outcome of a run

When the cases of a directory are run for the first time, what the run comes to agrees with what was
done: the status says whether the start has succeeded, what the cases are marked as and whether any
session was played, the mail server is flagged if and only if a case has failed, and nothing is left
running (`outcome_of_run`). It does not matter in which order things come that are due together.
-/
namespace FilterBench.Bench

variable {b b₀ b' : Bench} {l₀ l : Ledger} {i : ℕ} {c : Case}

/-- Nothing was done with the bench, nor with its cases. -/
structure Untried (b : Bench) : Prop extends Fresh b where
  ready : ∀ c ∈ b.standing.cases, c.state = none
  unfailed : b.standing.failed = false
  unflagged : b.serverFailed = false
  unreported : b.reports = []

/-- What a bench comes to from the beginning of a run on, until the run is over. -/
inductive During (b₀ : Bench) : Bench → Prop
  | begins : During b₀ b₀.beginRun
  | moves {b b' : Bench} : During b₀ b → b.isOver = false → Move b b' → During b₀ b'

/-- The start has succeeded, and every case was played once. -/
def AllPlayed (l₀ : Ledger) (b : Bench) : Prop :=
  b.startup = .started ∧ l₀.Played b.ledger l₀.standing.cases.length

/-- What the status of a run says of its start and of its cases. -/
def Warrants (l₀ : Ledger) (b : Bench) : Status → Prop
  | .skipped => (∃ t, b.startup = .failed t ∧ t.isSkip = true) ∧
      (∀ c ∈ b.standing.cases, c.state = some .skipped) ∧ b.ledger.connections = []
  | .error => (∃ t, b.startup = .failed t ∧ t.isSkip = false) ∧
      (∀ c ∈ b.standing.cases, c.state = none) ∧ b.ledger.connections = []
  | .failed => b.AllPlayed l₀ ∧
      (some .failed ∈ b.standing.states ∨ b.startError.isSome = true)
  | .ok => b.AllPlayed l₀ ∧
      ¬(some .failed ∈ b.standing.states ∨ b.startError.isSome = true)

/-- An outcome that agrees with what has become of the cases. -/
structure Consistent (l₀ : Ledger) (b : Bench) (o : RunOutcome) : Prop where
  path : o.path = l₀.path
  cases : o.cases = b.standing.cases.map fun c => (c.index, c.filename, c.state)
  same : b.standing.cases.map Case.anew = l₀.standing.cases.map Case.anew
  flagged : b.serverFailed = true ↔ some .failed ∈ b.standing.states
  warranted : b.Warrants l₀ o.status

/-- What a run has come to, with an outcome or without one. -/
def Ends (l₀ : Ledger) (b : Bench) : Except Thrown RunOutcome → Prop
  | .ok o => b.Consistent l₀ o
  | .error t => l₀.Breaks t

/-- How far a run has come. -/
inductive Progress (l₀ : Ledger) (b : Bench) : Run → Prop
  | starting : b.ledger = l₀ → b.custody.Tidy → Progress l₀ b (.starting none)
  | playing {l : Ledger} {i : ℕ} {c : Case} {s : OpenSession} : l₀.Played l i →
      l₀.standing.cases[i]? = some c → b.ledger = l.play i c.script → b.session = some s →
      s.report = l₀.report i c → Progress l₀ b (.playing i)
  | aborting {t : Thrown} : b.ledger = l₀ → b.startup = .failed t → t.isSkip = false →
      Progress l₀ b (.aborting t)
  | closing : l₀.Played b.ledger l₀.standing.cases.length → Progress l₀ b (.closing (.ok ()))
  | breaking {t : Thrown} : l₀.Breaks t → Progress l₀ b (.closing (.error t))
  | finished {result : Except Thrown RunOutcome} : b.StartOver → b.custody.Idle →
      b.Ends l₀ result → Progress l₀ b (.finished result)

theorem ledger_openSession (b : Bench) (i : ℕ) (script : Script) :
    (b.openSession i script).1.ledger = b.ledger.play i script := by
  simp [openSession, ledger, did, Ledger.play, Ledger.route, route, Deed.connection?]

theorem progress_playCase (played : l₀.Played b.ledger i) :
    Progress l₀ (b.playCase i) (b.playCase i).run := by
  unfold playCase
  split
  · rename_i absent
    have beyond : b.ledger.standing.cases.length ≤ i := List.getElem?_eq_none_iff.1 absent
    have all : i = l₀.standing.cases.length := by
      have within := played.within
      have count := played.count
      omega
    apply Progress.closing
    rw [← all]
    show l₀.Played b.stop.ledger i
    rw [b.stop_aside.1]
    exact played
  · rename_i c present
    have next : l₀.standing.cases[i]? = some c :=
      (played.ready i (Nat.le_refl i)).symm.trans present
    apply Progress.playing played next
    · exact ledger_openSession b i c.script
    · rfl
    · exact played.report_eq c

theorem progress_finishSession {s : OpenSession} (run : b.run = .playing i)
    (ready : ∀ c ∈ l₀.standing.cases, c.state = none) (played : l₀.Played l i)
    (next : l₀.standing.cases[i]? = some c) (ledger : b.ledger = l.play i c.script)
    (report : s.report = l₀.report i c) :
    Progress l₀ (b.finishSession i s) (b.finishSession i s).run := by
  have unmarked : c.state = none := ready c (List.mem_of_getElem? next)
  unfold finishSession
  split
  · show Progress l₀ _ b.run
    rw [run]
    exact .playing played next ledger rfl report
  · rename_i ending ends
    have ended : ({ b with session := none }.did .disconnected).ledger = l.play i c.script :=
      (ledger_did rfl).trans ledger
    have heard := played.heard next
    rw [← ended] at heard
    rw [report] at ends
    simp only []
    split
    · rename_i t broken
      obtain ⟨d, rfl, breaks⟩ := conclude_error heard unmarked broken
      exact .breaking ⟨i, c, d, next, ends, breaks⟩
    · rename_i concluded
      obtain ⟨-, m, notices, judged, rfl⟩ := conclude_ok heard concluded
      apply progress_playCase
      show l₀.Played (({ b with session := none }.did .disconnected).ledger.marked i _ m) (i + 1)
      rw [ended]
      exact played.next next unmarked ends judged

/-- The end of the session that is played. -/
theorem progress_sessionEnds {s : OpenSession} (untried : b₀.Untried) (run : b.run = .playing i)
    (session : b.session = some s) (h : Progress b₀.ledger b b.run) :
    Progress b₀.ledger (b.finishSession i s) (b.finishSession i s).run := by
  rw [run] at h
  cases h with
  | playing played next ledger session' report =>
    cases session.symm.trans session'
    exact progress_finishSession run untried.ready played next ledger report

theorem Untried.played (h : b₀.Untried) (same : b.ledger = b₀.ledger) :
    b₀.ledger.Played b.ledger 0 := by
  rw [same]
  apply Ledger.played_zero h.ready h.unfailed h.unflagged h.unreported
  simp [Bench.ledger, h.history]

theorem Untried.still_ready (h : b₀.Untried) (same : b.ledger = b₀.ledger) :
    ∀ c ∈ b.standing.cases, c.state = none := by
  rw [show b.standing = b₀.standing from congrArg Ledger.standing same]
  exact h.ready

/-! ## The ends of a run -/

theorem consistent_error {t : Thrown} (untried : b₀.Untried) (same : b.ledger = b₀.ledger)
    (failed : b.startup = .failed t) (unasked : t.isSkip = false) (error : Option String) :
    b.Consistent b₀.ledger (b.outcome .error error) := by
  have played := untried.played same
  constructor
  · exact played.path
  · rfl
  · exact congrArg (fun l => l.standing.cases.map Case.anew) same
  · exact played.server_iff
  · exact ⟨⟨t, failed, unasked⟩, untried.still_ready same, played.connections⟩

theorem consistent_played (all : b.AllPlayed l₀) :
    b.Consistent l₀ (b.outcome b.finalStatus none) := by
  have played := all.2
  have honest : b.standing.failed = true ↔ some .failed ∈ b.standing.states := played.honest
  constructor
  · exact played.path
  · rfl
  · exact played.anew rfl
  · exact played.server_iff
  · show b.Warrants l₀ b.finalStatus
    by_cases failed : some .failed ∈ b.standing.states ∨ b.startError.isSome = true
    · rw [finalStatus, if_pos (by simpa [honest] using failed)]
      exact ⟨all, failed⟩
    · rw [finalStatus, if_neg (by simpa [honest] using failed)]
      exact ⟨all, failed⟩

/-- All cases were skipped. -/
def skippedAll (b : Bench) (notices : List Notice) : Bench :=
  { b with
    standing := { b.standing with
      cases := b.standing.cases.map fun c => { c with state := some .skipped } }
    notices := notices }

theorem startFailed_of_skip {t : Thrown} (skip : t.isSkip = true)
    (ready : ∀ c ∈ b.standing.cases, c.state = none) : ∃ notices, b.startFailed t =
      (b.skippedAll notices).finishRun (.ok ((b.skippedAll notices).outcome .skipped none)) := by
  have cases : (b.tell .skipRequested).standing.cases = [] ++ b.standing.cases := rfl
  obtain ⟨notices, skips⟩ := skipCases_ready cases ready
  have skips : (b.tell .skipRequested).skipCases 0 (b.tell .skipRequested).standing.cases =
    (b.skippedAll notices, none) := skips
  refine ⟨notices, ?_⟩
  rw [startFailed, if_pos skip]
  simp only [skips]

theorem startFailed_of_fault {t : Thrown} (fault : t.isSkip = false) :
    b.startFailed t = { (b.tell (.startFailed t)).stop with run := .aborting t } := by
  rw [startFailed, if_neg (by simp [fault])]

theorem consistent_skipped {t : Thrown} (untried : b₀.Untried) (same : b.ledger = b₀.ledger)
    (failed : b.startup = .failed t) (skip : t.isSkip = true) (notices : List Notice)
    (result : Except Thrown RunOutcome) : ((b.skippedAll notices).finishRun result).Consistent
      b₀.ledger ((b.skippedAll notices).outcome .skipped none) := by
  have played := untried.played same
  have cases : b.standing.cases = b₀.standing.cases :=
    congrArg (fun l => l.standing.cases) same
  have unflagged : b.serverFailed = false :=
    (congrArg Ledger.serverFailed same).trans untried.unflagged
  have skipped : ∀ c ∈ (b.skippedAll notices).standing.cases, c.state = some .skipped := by
    intro c mem
    obtain ⟨c', -, rfl⟩ := List.mem_map.1 mem
    rfl
  constructor
  · exact played.path
  · rfl
  · show (b.standing.cases.map _).map _ = b₀.standing.cases.map _
    rw [List.map_map, cases]
    rfl
  · constructor
    · intro flagged
      cases unflagged.symm.trans flagged
    · intro mem
      obtain ⟨c, mem, state⟩ := List.mem_map.1 mem
      cases (skipped c mem).symm.trans state
  · exact ⟨⟨t, failed, skip⟩, skipped, played.connections⟩

theorem progress_startFailed {t : Thrown} (untried : b₀.Untried) (same : b.ledger = b₀.ledger)
    (failed : b.startup = .failed t) (idle : t.isSkip = true → b.custody.Idle) :
    Progress b₀.ledger (b.startFailed t) (b.startFailed t).run := by
  have steps : Custody.Steps False b.custody (b.startFailed t).custody := steps_startFailed b t
  cases skip : t.isSkip with
  | true =>
    have idle' : (b.startFailed t).custody.Idle := steps.idle (idle skip)
    obtain ⟨notices, atEnd⟩ := startFailed_of_skip skip (untried.still_ready same)
    rw [atEnd] at idle' ⊢
    apply Progress.finished
    · exact .inr ⟨t, failed⟩
    · exact idle'
    · exact consistent_skipped untried same failed skip notices _
  | false =>
    rw [startFailed_of_fault skip]
    apply Progress.aborting
    · exact (stop_aside _).1.trans same
    · exact (startup_stop _).trans failed
    · exact skip

/-- The run is over once stopping is settled. -/
theorem progress_finishRun {result : Except Thrown RunOutcome} (stoppable : b.custody.Stoppable)
    (prompt : b.stopping ≠ .no → b.custody.Decided) (settled : b.stopSettled = true)
    (decided : b.StartOver) (ends : (b.finishRun result).Ends l₀ result) :
    Progress l₀ (b.finishRun result) (b.finishRun result).run := by
  have idle := idle_of_settled stoppable prompt settled
  apply Progress.finished
  · exact decided
  · exact ⟨idle.decided, idle.released, idle.ended⟩
  · exact ends

theorem progress_resumeRun (untried : b₀.Untried) (valid : b.custody.Valid)
    (stoppable : b.custody.Stoppable) (prompt : b.stopping ≠ .no → b.custody.Decided)
    (h : Progress b₀.ledger b b.run) (resumed : b.resumeRun? = some b') :
    Progress b₀.ledger b' b'.run := by
  cases RunMove.of_resume resumed with
  | refused run =>
    rw [run] at h
    cases h
  | begins run _ =>
    rw [run] at h
    cases h with
    | starting same _ => exact progress_playCase (untried.played same)
  | fails run failed =>
    rw [run] at h
    cases h with
    | starting same tidy => exact progress_startFailed untried same failed (tidy _ failed)
  | plays run session => exact progress_sessionEnds untried run session h
  | aborts run settled =>
    rw [run] at h
    cases h with
    | aborting same failed fault =>
      apply progress_finishRun stoppable prompt settled (.inr ⟨_, failed⟩)
      exact consistent_error (b := b.finishRun _) untried same failed fault _
  | breaks run settled =>
    have started : b.startup = .started := (valid.closing _ run).1
    rw [run] at h
    cases h with
    | breaking breaks => exact progress_finishRun stoppable prompt settled (.inl started) breaks
  | closes run settled =>
    have started : b.startup = .started := (valid.closing _ run).1
    rw [run] at h
    cases h with
    | closing played =>
      apply progress_finishRun stoppable prompt settled (.inl started)
      exact consistent_played (b := b.finishRun _) ⟨started, played⟩

/-! ## A run that has begun -/

/-- Something that the run has no part in. -/
structure Apart (b b' : Bench) : Prop extends b.Aside b' where
  tidy : b.custody.Tidy → b'.custody.Tidy
  failed : ∀ t, b.startup = .failed t → b'.startup = .failed t

theorem apart_wait (b : Bench) (now : ℕ) : b.Apart { b with now := now } :=
  ⟨⟨rfl, rfl, rfl, .inl rfl⟩, id, fun _ failed => failed⟩

theorem apart_happen {time : ℕ} {h : Happening} (valid : b.custody.Valid)
    (due : (time, h) ∈ b.dues) (other : h ≠ .sessionEnds) :
    b.Apart ({ b with now := max b.now time }.happen h) := by
  constructor
  · exact (apart_wait b (max b.now time)).toAside.trans rfl (aside_happen other _)
  · intro tidy
    exact tidy_happen (b := { b with now := max b.now time }) valid tidy other
  · intro t failed
    exact failed_happen (b := { b with now := max b.now time }) failed due other

/-- A move that the run has no part in. -/
inductive SideMove : Bench → Bench → Prop
  | sees {b : Bench} {e : Exit} : b.pendingExit? = some e → SideMove b (b.recordExit e)
  | goesOn {b b' : Bench} : b.resumeStart? = some b' → SideMove b b'
  | happens {b : Bench} {time : ℕ} {h : Happening} : (time, h) ∈ b.dues → h ≠ .sessionEnds →
      SideMove b ({ b with now := max b.now time }.happen h)
  | waits (b : Bench) (now : ℕ) : SideMove b { b with now := now }

theorem SideMove.apart (move : SideMove b b') (valid : b.custody.Valid)
    (stoppable : b.custody.Stoppable) : b.Apart b' := by
  cases move with
  | sees pending =>
    constructor
    · exact aside_recordExit b _
    · intro tidy
      exact tidy_recordExit tidy _
    · intro t failed
      exact failed_recordExit failed _
  | goesOn resumed =>
    constructor
    · exact aside_resumeStart resumed
    · intro _
      exact tidy_resumeStart valid stoppable resumed
    · intro t failed
      simp [resumeStart?, failed] at resumed
  | happens due other => exact apart_happen valid due other
  | waits now => exact apart_wait b now

/-- A move is one that the run has no part in, something that it does, or the end of its session. -/
theorem Move.sorts (move : Move b b') : SideMove b b' ∨ b.resumeRun? = some b' ∨
    ∃ i s now, b.run = .playing i ∧ b.session = some s ∧
      b' = { b with now := now }.finishSession i s := by
  cases move with
  | sees pending => exact .inl (.sees pending)
  | goesOn resumed => exact .inl (.goesOn resumed)
  | playsOn resumed => exact .inr (.inl resumed)
  | @happens time h due =>
    by_cases other : h = .sessionEnds
    · subst other
      simp only [happen]
      split
      · rename_i i s run session
        exact .inr (.inr ⟨i, s, _, run, session, rfl⟩)
      · exact .inl (.waits b _)
    · exact .inl (.happens due other)
  | waits now => exact .inl (.waits b now)

/-- What the run has no part in does not change how far it has come. -/
theorem Progress.apart (h : Progress l₀ b b.run) (apart : b.Apart b') (going : b.isOver = false) :
    Progress l₀ b' b'.run := by
  rw [apart.run]
  generalize run : b.run = r at h ⊢
  cases h with
  | starting same tidy => exact .starting (apart.ledger.trans same) (apart.tidy tidy)
  | playing played next ledger session report =>
    exact .playing played next (apart.ledger.trans ledger) (apart.session.trans session) report
  | aborting same failed fault =>
    exact .aborting (apart.ledger.trans same) (apart.failed _ failed) fault
  | closing played =>
    apply Progress.closing
    rw [apart.ledger]
    exact played
  | breaking breaks => exact .breaking breaks
  | finished =>
    rw [isOver, run] at going
    cases going

/-- The run does nothing before the start is over. -/
theorem Progress.startOver (h : Progress l₀ b b.run) (valid : b.custody.Valid)
    (resumed : b.resumeRun? = some b') : b.StartOver := by
  cases RunMove.of_resume resumed with
  | refused run =>
    rw [run] at h
    cases h
  | begins _ started => exact .inl started
  | fails _ failed => exact .inr ⟨_, failed⟩
  | plays run _ => exact .inl (valid.playing _ run)
  | aborts run _ =>
    rw [run] at h
    cases h with
    | aborting _ failed _ => exact .inr ⟨_, failed⟩
  | breaks run _ => exact .inl (valid.closing _ run).1
  | closes run _ => exact .inl (valid.closing _ run).1

/-- What holds of a run of untried cases that has begun. -/
structure Underway (b₀ b : Bench) : Prop where
  timely : TimelyCourse b₀ b
  prompt : b.stopping ≠ .no → b.custody.Decided
  progress : Progress b₀.ledger b b.run

theorem Underway.ungapped (h : Underway b₀ b) : ¬b.Gap := by
  rintro ⟨cleared, asked⟩
  have phase : b.custody.startup.phase = .cleared := by
    rw [custody, cleared]
    rfl
  simpa using (h.prompt asked).not phase

theorem Underway.begins (untried : b₀.Untried) : Underway b₀ b₀.beginRun := by
  have begun : b₀.beginRun = { ({ b₀ with startup := .makingScratch }.did
      (.madeScratch b₀.scratchDir)) with run := .starting none } := by
    simp only [beginRun, start, untried.startup, untried.stopping]
  have unasked : b₀.beginRun.stopping = .no := by
    rw [begun]
    exact untried.stopping
  constructor
  · apply TimelyCourse.step (.refl b₀)
    · intro gap
      exact gap.2 untried.stopping
    · exact .runs (.inl untried.run)
  · intro asked
    exact absurd unasked asked
  · rw [begun]
    have made := ledger_did (b := { b₀ with startup := .makingScratch })
      (d := .madeScratch b₀.scratchDir) rfl
    apply Progress.starting
    · exact made
    · exact tidy_of_unfailed (by simp [did])

/-- Somebody asked to stop only after the start was decided. -/
theorem prompt_aside (aside : b.Aside b') (steps : Custody.Steps False b.custody b'.custody)
    (prompt : b.stopping ≠ .no → b.custody.Decided) (asked : b'.stopping ≠ .no) :
    b'.custody.Decided := by
  rcases aside.stopping with same | closed
  · rw [same] at asked
    exact steps.decided (prompt asked)
  · exact .inr closed

theorem Underway.move (untried : b₀.Untried) (h : Underway b₀ b) (going : b.isOver = false)
    (move : Move b b') : Underway b₀ b' := by
  have valid := h.timely.custody.valid untried.valid
  have stoppable := h.timely.custody.stoppable untried.stoppable
  have steps : Custody.Steps False b.custody b'.custody := move.step.custody h.ungapped
  have timely : TimelyCourse b₀ b' := h.timely.step h.ungapped move.step
  rcases move.sorts with side | resumed | ⟨i, s, now, run, session, rfl⟩
  · have apart := side.apart valid stoppable
    constructor
    · exact timely
    · exact prompt_aside apart.toAside steps h.prompt
    · exact h.progress.apart apart going
  · have decided := h.progress.startOver valid resumed
    constructor
    · exact timely
    · intro _
      exact steps.decided decided.decided
    · exact progress_resumeRun untried valid stoppable h.prompt h.progress resumed
  · have decided : b.StartOver := .inl (valid.playing i run)
    constructor
    · exact timely
    · intro _
      exact steps.decided decided.decided
    · exact progress_sessionEnds (b := { b with now := now }) untried run session
        (h.progress.apart (apart_wait b now) going)

theorem During.underway (untried : b₀.Untried) (h : During b₀ b) : Underway b₀ b := by
  induction h with
  | begins => exact .begins untried
  | moves _ going move ih => exact ih.move untried going move

/-! ## The order of the clock -/

/-- Nothing is left to do at the moment at which a run is over. -/
theorem During.rests (untried : b₀.Untried) (h : During b₀ b) (atEnd : b.isOver = true) :
    b.resume? = none := by
  have underway := h.underway untried
  have progress := underway.progress
  generalize run : b.run = r at progress
  cases progress with
  | finished startOver idle _ =>
    have unpending : b.pendingExit? = none := by
      rcases idle.ended with unlaunched | recorded
      · simp [pendingExit?, show b.program = none from unlaunched]
      · obtain ⟨e, exit⟩ := Option.isSome_iff_exists.1 recorded
        simp [pendingExit?, show b.exit = some e from exit]
    have unresumed : b.resumeStart? = none := by
      rcases startOver with started | ⟨t, failed⟩
      · simp [resumeStart?, started]
      · simp [resumeStart?, failed]
    simp [resume?, unpending, unresumed, resumeRun?, run]
  | _ =>
    rw [isOver, run] at atEnd
    cases atEnd

theorem During.settle (untried : b₀.Untried) (h : During b₀ b) (fuel : ℕ) :
    During b₀ (settle fuel b) := by
  induction fuel generalizing b with
  | zero => exact h
  | succ fuel ih =>
    rw [Bench.settle]
    split
    · rename_i b' resumed
      cases atEnd : b.isOver with
      | true =>
        rw [h.rests untried atEnd] at resumed
        cases resumed
      | false => exact ih (h.moves atEnd (move_of_resume resumed))
    · exact h

theorem During.runToEnd (untried : b₀.Untried) (h : During b₀ b) (fuel : ℕ) :
    During b₀ (runToEnd fuel b) := by
  induction fuel generalizing b with
  | zero => exact h
  | succ fuel ih =>
    have settled := h.settle untried b.momentBound
    rw [Bench.runToEnd]
    split
    · exact settled
    · rename_i going
      split
      · rename_i b' ticked
        exact ih (settled.moves (Bool.eq_false_iff.2 going) (move_of_tick ticked))
      · exact settled

/-- Running all cases by the clock is a run like any other. -/
theorem during_runCases (untried : b₀.Untried) : During b₀ b₀.runCases := by
  have ran := During.begins.runToEnd untried b₀.timeBound
  rw [runCases]
  split
  · exact ran
  · rename_i going
    exact ran.moves (Bool.eq_false_iff.2 going) (.waits _ _)

/-! ## What a run comes to -/

/-- When a run of untried cases is over, nothing of the program is left, and its outcome agrees with
what has become of the cases; a run without an outcome was broken off by an expectation. -/
theorem outcome_of_run {result : Except Thrown RunOutcome} (untried : b₀.Untried)
    (during : During b₀ b) (atEnd : b.run = .finished result) :
    b.running = false ∧ (∀ p, b.program = some p → p.ended = true ∧ b.exit.isSome = true) ∧
      b.Ends b₀.ledger result := by
  have underway := during.underway untried
  have valid := underway.timely.custody.valid untried.valid
  have progress := underway.progress
  rw [atEnd] at progress
  cases progress with
  | finished _ idle ends =>
    refine ⟨idle.released, ?_, ends⟩
    intro p program
    have recorded : b.exit.isSome = true := by
      apply idle.ended.resolve_left
      intro unlaunched
      cases unlaunched.symm.trans program
    obtain ⟨e, exit⟩ := Option.isSome_iff_exists.1 recorded
    obtain ⟨q, same, ended⟩ := valid.ended e exit
    obtain rfl : p = q := Option.some.inj (program.symm.trans same)
    exact ⟨ended, recorded⟩

theorem finished_of_status {status : Status} (h : b.status? = some status) :
    ∃ o, b.run = .finished (.ok o) ∧ o.status = status := by
  unfold status? at h
  split at h
  · rename_i o atEnd
    exact ⟨o, atEnd, Option.some.inj h⟩
  · cases h

/-- A server that refuses whatever it is told. -/
def refusingPeer : Peer where
  turns := [[.sends (Utf8.encode "220 hi\r\n")], [.sends (Utf8.encode "550 no\r\n")]]

/-- A bench with a case that is refused as expected, and one that is not welcome. -/
def pairBench : Bench where
  settings := { startupGrace := 10 }
  world :=
    { builder := some {}, port := FilterPort.script { openAt := some 0 } 7044
      jobs := [{ onKill := some (20, { signal := some (some "SIGTERM") }) }]
      peers := [refusingPeer, refusingPeer] }
  standing :=
    (({} : Standing).add "/src/tests/basic/refused.yaml" [.helo "me"]
      (DecisionPattern.expectation { code := 550 })).add "/src/tests/basic/welcome.yaml"
      [.helo "me"] (DecisionPattern.expectation { code := 250 })

theorem pairBench_untried : pairBench.Untried where
  toFresh := ⟨rfl, rfl, rfl, rfl, rfl, rfl, rfl, rfl, rfl, rfl⟩
  ready := by simp [pairBench, Standing.add]
  unfailed := rfl
  unflagged := rfl
  unreported := rfl

theorem outcome_of_run_pair :
    ∃ o, pairBench.runCases.run = .finished (.ok o) ∧ o.status = .failed ∧
      pairBench.runCases.running = false ∧ pairBench.runCases.Consistent pairBench.ledger o := by
  obtain ⟨o, atEnd, failed⟩ := finished_of_status
    (show pairBench.runCases.status? = some .failed by decide +kernel)
  obtain ⟨released, -, consistent⟩ :=
    outcome_of_run pairBench_untried (during_runCases pairBench_untried) atEnd
  exact ⟨o, atEnd, failed, released, consistent⟩

end FilterBench.Bench
