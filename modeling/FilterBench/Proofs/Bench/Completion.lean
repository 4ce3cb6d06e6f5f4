import FilterBench.Proofs.Bench.Proceeding
import FilterBench.Proofs.Bench.Sequence

/-!
# A run that has come to its cases comes to its end

Once the start of a run has succeeded, whatever the clock does next leaves less of the run, brings what
else is due, or is a wait for what is due (`Ordered.ticks`). Something is always due or can be done,
unless a session never ends; so that the run is bound to be over, or to come to such a session
(`During.inevitable`). With what is on the trail then, the sessions of a run are shown to stay within the
life of the program (`cases_in_sequence`).
-/
namespace FilterBench.Bench

variable {b b₀ b' : Bench} {i n time : ℕ} {s : OpenSession} {e : Exit}

/-- The session that is open never ends. -/
def Endless (b : Bench) : Prop := ∃ s, b.session = some s ∧ s.report.ending = none

/-- What is left of a run that has come to its cases. -/
def left (b : Bench) : ℕ :=
  match b.run with
  | .starting _ => b.standing.cases.length + 3
  | .playing i => b.standing.cases.length - i + 2
  | .aborting _ => 1
  | .closing _ => 1
  | _ => 0

/-- What else can come while cases are played: the end of the program, and the deadline of the start. -/
def looming (b : Bench) : ℕ :=
  (if b.exit.isSome then 0 else 1) + if b.deadline.isSome then 1 else 0

def Shorter (b b' : Bench) : Prop :=
  b'.left < b.left ∨ b'.left = b.left ∧ b'.looming < b.looming

theorem left_playCase (b : Bench) (i : ℕ) :
    (b.playCase i).left ≤ b.standing.cases.length - i + 2 := by
  unfold playCase
  split
  · show 1 ≤ _
    omega
  · show (b.standing.cases.modify i _).length - i + 2 ≤ _
    rw [List.length_modify]

theorem left_finishSession (run : b.run = .playing i) (present : i < b.standing.cases.length)
    {ending : Ending} (ends : s.report.ending = some ending) :
    (b.finishSession i s).left < b.left := by
  have before : b.left = b.standing.cases.length - i + 2 := by rw [left, run]
  rcases finishSession_cases present ends with ⟨t, breaks⟩ | ⟨c, m, notices, some, next, -⟩
  · rw [breaks, before]
    show 1 < _
    omega
  · have after := left_playCase
      (({ b with session := none }.did .disconnected).marked i c m notices) (i + 1)
    have count : (({ b with session := none }.did .disconnected).marked i c m
        notices).standing.cases.length = b.standing.cases.length := List.length_set
    rw [count] at after
    rw [next, before]
    omega

/-- The end of the program means nothing for a start that has succeeded. -/
theorem recordExit_started (started : b.startup = .started) (e : Exit) :
    ∃ history notices, b.recordExit e = { b with
      exit := some e, program := b.program.map Job.finish, history := history, notices := notices } := by
  obtain ⟨notices, noted⟩ := exists_noteExit b e
  have still : (b.noteExit e).startup = .started := by
    rw [noted]
    exact started
  refine ⟨b.history ++ [(b.now, .sawExit e)], notices, ?_⟩
  rw [recordExit_eq, still]
  simp only [abortWait, still]
  exact noted

theorem shorter_recordExit (started : b.startup = .started) (unseen : b.exit = none) (e : Exit) :
    b.Shorter (b.recordExit e) := by
  obtain ⟨history, notices, same⟩ := recordExit_started started e
  rw [same]
  refine .inr ⟨rfl, ?_⟩
  simp [looming, unseen]

/-- Whatever the run does leaves less of it. -/
theorem left_resumeRun (started : b.startup = .started) (paced : Paced b₀ b b.run)
    (ends : ¬b.Endless) (resumed : b.resumeRun? = some b') : b'.left < b.left := by
  cases RunMove.of_resume resumed with
  | refused run =>
    rw [run] at paced
    cases paced
  | begins run _ =>
    have after := left_playCase b 0
    have before : b.left = b.standing.cases.length + 3 := by rw [left, run]
    omega
  | fails _ failed => cases started.symm.trans failed
  | @plays i s run session =>
    rw [run] at paced
    cases paced with
    | playing engaged =>
      cases ending : s.report.ending with
      | none => exact absurd ⟨s, session, ending⟩ ends
      | some e => exact left_finishSession run engaged.present ending
  | aborts run | breaks run | closes run =>
    rw [left, left, run]
    exact Nat.zero_lt_one

theorem Fruitless.unstarted (h : Fruitless b₀ b) : b.startup ≠ .started := by
  intro started
  have closed := h.closed
  rw [started] at closed
  cases closed

/-- A session is open only while a case is played. -/
theorem Paced.engaged (paced : Paced b₀ b b.run) (started : b.startup = .started)
    (going : b.isOver = false) (session : b.session = some s) :
    ∃ i, b.run = .playing i ∧ Engaged b₀ b i s := by
  generalize run : b.run = r at paced
  cases paced with
  | starting none | closing none => cases none.symm.trans session
  | playing engaged =>
    obtain rfl := Option.some.inj (engaged.session.symm.trans session)
    exact ⟨_, rfl, engaged⟩
  | aborting _ fruitless | fruitless fruitless => exact absurd started fruitless.unstarted
  | served =>
    rw [isOver, run] at going
    cases going

theorem happen_sessionEnds (run : b.run = .playing i) (session : b.session = some s) :
    b.happen .sessionEnds = b.finishSession i s := by
  simp only [happen, run, session]

/-- Whatever the clock does shortens a run that has come to its cases, or is a wait for what is due. -/
theorem Ordered.ticks (fresh : b₀.Fresh) (h : Ordered b₀ b) (started : b.startup = .started)
    (going : b.isOver = false) (ends : ¬b.Endless) (tick : Tick b b') :
    b.Shorter b' ∨ b.resume? = none ∧
      ∃ time, b' = { b with now := time } ∧ b.now < time ∧ ∀ d ∈ b.dues, time ≤ d.1 := by
  have valid := h.valid fresh
  cases tick with
  | does resumed =>
    left
    unfold resume? at resumed
    split at resumed
    · rename_i e pending
      cases resumed
      refine shorter_recordExit started ?_ e
      unfold pendingExit? at pending
      split at pending
      · assumption
      · cases pending
    · have rests : b.resumeStart? = none := by simp only [resumeStart?, started]
      rw [rests] at resumed
      exact .inl (left_resumeRun started h.paced ends resumed)
  | @happens time what _ due _ =>
    left
    cases what with
    | buildEnds =>
      obtain ⟨_, building⟩ := due_buildEnds.1 due
      cases started.symm.trans building
    | programEnds =>
      obtain ⟨p, program, going⟩ := due_programEnds due
      obtain ⟨e, -, happens⟩ := due_end (b := { b with now := max b.now time }) program due
      rw [happens]
      have unseen : b.exit = none := valid.unseen program (.inr going)
      exact shorter_recordExit (b := { b with now := max b.now time }) started unseen e
    | graceEnds => cases started.symm.trans (due_graceEnds_iff.1 due)
    | deadlinePasses =>
      have limited := due_deadlinePasses.1 due
      have happens : ({ b with now := max b.now time } : Bench).happen .deadlinePasses =
          { b with now := max b.now time, deadline := none } := by
        simp only [happen, abortWait, started]
      rw [happens]
      refine .inr ⟨rfl, ?_⟩
      simp [looming, limited]
    | portAnswers => cases started.symm.trans (due_portAnswers.1 due).1
    | sessionEnds =>
      obtain ⟨s, session, -⟩ := Option.bind_eq_some_iff.1 (due_sessionEnds.1 due)
      obtain ⟨i, run, engaged⟩ := h.paced.engaged started going session
      rw [happen_sessionEnds (b := { b with now := max b.now time }) run session]
      cases ending : s.report.ending with
      | none => exact absurd ⟨s, session, ending⟩ ends
      | some e =>
        exact .inl (left_finishSession (b := { b with now := max b.now time }) run engaged.present
          ending)
  | @waits time rests later earliest => exact .inr ⟨rests, time, rfl, later, earliest⟩

/-- Something can be done or is due until stopping is settled. -/
theorem goes_of_asked (stoppable : b.custody.Stoppable) (asked : b.stopping ≠ .no)
    (launched : b.program ≠ none) (unseen : b.exit = none) : b.Goes := by
  obtain ⟨p, program⟩ := Option.ne_none_iff_exists'.1 launched
  obtain ⟨⟨time, e⟩, ending⟩ := Option.isSome_iff_exists.1 (stoppable.due p program unseen asked)
  have reports := Job.report?_of_ending ending
  cases ended : p.ended with
  | true =>
    left
    have pending : b.pendingExit? = some e := by simp [pendingExit?, unseen, program, ended, reports]
    simp only [resume?, pending]
    rfl
  | false =>
    have due : (time + p.held, Happening.programEnds) ∈ b.dues := by
      rw [due_programEnds_iff]
      simp [program, Job.due?, ended, reports]
    exact goes_of_due due

/-- Until a run that has come to its cases is over, something can be done or is due. -/
theorem Ordered.goes (fresh : b₀.Fresh) (h : Ordered b₀ b) (started : b.startup = .started)
    (going : b.isOver = false) (ends : ¬b.Endless) : b.Goes := by
  have does : b.resumeRun?.isSome = true → b.Goes := by
    intro resumed
    left
    unfold resume?
    split
    · rfl
    · rw [show b.resumeStart? = none by simp only [resumeStart?, started]]
      exact resumed
  have paced := h.paced
  generalize run : b.run = r at paced
  cases paced with
  | starting =>
    apply does
    simp only [resumeRun?, run, started]
    rfl
  | @playing i s engaged =>
    cases due : s.due with
    | none => exact absurd ⟨s, engaged.session, engaged.due due⟩ ends
    | some time =>
      apply goes_of_due
      exact due_sessionEnds.2 (by rw [engaged.session]; exact due)
  | @closing result n _ served =>
    have asked := ((h.valid fresh).closing result run).2
    cases seen : b.exit with
    | none => exact goes_of_asked (h.stoppable fresh) asked served.launched seen
    | some e =>
      apply does
      obtain ⟨w, stopping⟩ := exists_asked asked
      have settled : b.stopSettled = true := by
        rw [stopSettled_eq stopping, seen, Option.isSome_some, Bool.or_true]
      cases result <;> simp only [resumeRun?, run, settled] <;> rfl
  | aborting _ fruitless | fruitless fruitless => exact absurd started fruitless.unstarted
  | served =>
    rw [isOver, run] at going
    cases going

theorem due_of_goes (goes : b.Goes) (rests : b.resume? = none) : ∃ d, d ∈ b.dues := by
  rcases goes with resumes | ticks
  · rw [rests] at resumes
    cases resumes
  · obtain ⟨b', ticked⟩ := Option.isSome_iff_exists.1 ticks
    unfold tick? at ticked
    split at ticked
    · cases ticked
    · rename_i next
      exact ⟨_, mem_of_earliest next⟩

/-- A run that has come to its cases is bound to be over, or to come to a session that never ends. -/
theorem During.inevitable {b₀ b : Bench} (fresh : b₀.Fresh) (h : During b₀ b)
    (started : b.startup = .started) :
    Inevitably (fun b => During b₀ b ∧ (b.isOver = true ∨ b.Endless)) b := by
  by_cases stays : b.isOver = true ∨ b.Endless
  · exact .here ⟨h, stays⟩
  · obtain ⟨unfinished, ends⟩ := not_or.1 stays
    have going := Bool.eq_false_iff.2 unfinished
    have ordered := h.ordered fresh
    refine .later (ordered.goes fresh started going ends) ?_
    intro b' tick
    have next : During b₀ b' := h.moves going tick.move
    have still : b'.startup = .started :=
      ((tick.move.step.custody ordered.ungapped).later (ordered.valid fresh)).started started
    have nearer : Prod.Lex (· < ·) (Prod.Lex (· < ·) (· < ·))
        (b'.left, b'.looming, b'.untilDue) (b.left, b.looming, b.untilDue) := by
      rcases ordered.ticks fresh started going ends tick with
        (less | ⟨same, fewer⟩) | ⟨rests, time, rfl, later, before⟩
      · exact .left _ _ less
      · rw [same]
        exact .right _ (.left _ _ fewer)
      · obtain ⟨d, due⟩ := due_of_goes (ordered.goes fresh started going ends) rests
        exact .right _ (.right _ (untilDue_wait due later before))
    exact During.inevitable fresh next still
termination_by (b.left, b.looming, b.untilDue)
decreasing_by exact nearer

/-! ## What the trail shows -/

theorem count_opened (n : ℕ) : (sessions n).count .opened = n := by
  induction n with
  | zero => rfl
  | succ n ih => rw [sessions_succ, List.count_append, ih]; rfl

theorem count_closed (n : ℕ) : (sessions n).count .closed = n := by
  induction n with
  | zero => rfl
  | succ n ih => rw [sessions_succ, List.count_append, ih]; rfl

/-- The trail is that of so many sessions and a kill, as far as it goes. -/
theorem Paced.sequence (h : Paced b₀ b b.run) : ∃ n, b.trail <+: sessions n ++ [.killed] := by
  have unopened : b.trail = [] ∨ b.trail = [.killed] → ∃ n, b.trail <+: sessions n ++ [.killed] := by
    rintro (trail | trail)
    · exact ⟨0, trail ▸ List.nil_prefix⟩
    · exact ⟨0, trail ▸ List.prefix_refl _⟩
  generalize b.run = r at h
  cases h with
  | starting _ _ sofar => exact unopened (sofar.elim (fun u => .inl u.trail) Fruitless.trail)
  | @playing i _ engaged =>
    refine ⟨i + 1, [.closed, .killed], ?_⟩
    rw [engaged.trail, sessions_succ, List.append_assoc, List.append_assoc]
    rfl
  | aborting _ fruitless | fruitless fruitless => exact unopened fruitless.trail
  | @closing _ n _ served | @served _ n _ served =>
    exact ⟨n, served.trail ▸ List.prefix_refl _⟩

/-- Before the start has succeeded no connection is opened. -/
theorem Paced.unopened (h : Paced b₀ b b.run) (valid : b.custody.Valid)
    (unstarted : b.startup ≠ .started) : .opened ∉ b.trail := by
  have never : b.trail = [] ∨ b.trail = [.killed] → .opened ∉ b.trail := by
    rintro (trail | trail) <;> simp [trail]
  generalize run : b.run = r at h
  cases h with
  | starting _ _ sofar => exact never (sofar.elim (fun u => .inl u.trail) Fruitless.trail)
  | playing => exact absurd (valid.playing _ run) unstarted
  | aborting _ fruitless | fruitless fruitless => exact never fruitless.trail
  | closing _ served | served served => exact absurd served.started unstarted

/-- Each connection on the trail is that of a session, and has been closed by it if the trail says so. -/
theorem Paced.reported (h : Paced b₀ b b.run) : ∃ rs, b.reports = b₀.reports ++ rs ∧
    rs.length = b.trail.count .opened ∧ ∀ r ∈ rs.take (b.trail.count .closed), r.closed = true := by
  have none : (b.trail = [] ∨ b.trail = [.killed]) → b.reports = b₀.reports →
      ∃ rs, b.reports = b₀.reports ++ rs ∧ rs.length = b.trail.count .opened ∧
        ∀ r ∈ rs.take (b.trail.count .closed), r.closed = true := by
    rintro (trail | trail) reports
    · exact ⟨[], by rw [reports, List.append_nil], by simp [trail], by simp⟩
    · exact ⟨[], by rw [reports, List.append_nil], by simp [trail], by simp⟩
  have all : ∀ {n}, Served b₀ b n → ∃ rs, b.reports = b₀.reports ++ rs ∧
      rs.length = b.trail.count .opened ∧
        ∀ r ∈ rs.take (b.trail.count .closed), r.closed = true := by
    intro n served
    obtain ⟨rs, reports, count, closed⟩ := served.reported
    refine ⟨rs, reports, ?_, fun r mem => closed r (List.mem_of_mem_take mem)⟩
    rw [served.trail, List.count_append, count_opened, count]
    rfl
  generalize b.run = r at h
  cases h with
  | starting _ _ sofar =>
    rcases sofar with untouched | fruitless
    · exact none (.inl untouched.trail) untouched.reports
    · exact none fruitless.trail fruitless.reports
  | @playing i s engaged =>
    obtain ⟨rs, reports, count, closed⟩ := engaged.reported
    refine ⟨rs ++ [s.report], by rw [reports, List.append_assoc], ?_, ?_⟩
    · rw [engaged.trail, List.count_append, count_opened, List.length_append, count]
      rfl
    · have ended : b.trail.count .closed = rs.length := by
        rw [engaged.trail, List.count_append, count_closed, count]
        rfl
      rw [ended, List.take_left']
      · exact closed
      · rfl
  | aborting _ fruitless | fruitless fruitless => exact none fruitless.trail fruitless.reports
  | closing _ served | served served => exact all served

/-- The cases of a run never overlap and stay within the life of the program, whatever their states and
their expectations. No connection is opened before the start has succeeded, and each one is closed by
its session before the next one is opened; the program is killed once at most, and then none is open
and none is opened any more. Once the cases were entered, the run is bound to be over unless a session
never ends; when it is over, also when a case has broken it off, the program was killed and its end is
recorded. -/
theorem cases_in_sequence (fresh : b₀.Fresh) (during : During b₀ b) :
    (b.startup ≠ .started → .opened ∉ b.trail) ∧
      (∃ n, b.trail <+: sessions n ++ [.killed]) ∧
      (∃ rs, b.reports = b₀.reports ++ rs ∧ rs.length = b.trail.count .opened ∧
        ∀ r ∈ rs.take (b.trail.count .closed), r.closed = true) ∧
      (b.startup = .started →
        Inevitably (fun b => During b₀ b ∧ (b.isOver = true ∨ b.Endless)) b ∧
        ∀ outcome, b.run = .finished outcome → (∃ n, b.trail = sessions n ++ [.killed]) ∧
          ∃ e time, b.exit = some e ∧ (time, .sawExit e) ∈ b.history) := by
  have ordered := during.ordered fresh
  have valid := ordered.valid fresh
  have paced := ordered.paced
  refine ⟨paced.unopened valid, paced.sequence, paced.reported, fun started =>
    ⟨during.inevitable fresh started, ?_⟩⟩
  intro outcome atEnd
  rw [atEnd] at paced
  cases paced with
  | fruitless fruitless => exact absurd started fruitless.unstarted
  | @served _ n e served exit =>
    have seen : b.custody.seen = b.exit.toList := valid.seen
    have mem : e ∈ b.custody.seen := by
      rw [seen, exit]
      exact List.mem_singleton_self e
    obtain ⟨⟨time, d⟩, mem, same⟩ := List.mem_filterMap.1 mem
    cases d with
    | sawExit e' =>
      cases same
      exact ⟨⟨n, served.trail⟩, e, time, exit, mem⟩
    | _ => cases same

theorem finished_of_isOver (atEnd : b.isOver = true) : ∃ outcome, b.run = .finished outcome := by
  unfold isOver at atEnd
  split at atEnd
  · rename_i outcome run
    exact ⟨outcome, run⟩
  · cases atEnd

/-- A bench with a case that is refused as expected, and one whose expectation breaks. -/
def brokenBench : Bench :=
  { pairBench with
    standing :=
      (({} : Standing).add "/src/tests/basic/refused.yaml" [.helo "me"]
        (DecisionPattern.expectation { code := 550 })).add "/src/tests/basic/broken.yaml"
        [.helo "me"]
        { description := "broken"
          evaluate := fun _ => .error (.other { message := "no verdict" }) } }

theorem brokenBench_untried : brokenBench.Untried where
  toFresh := ⟨rfl, rfl, rfl, rfl, rfl, rfl, rfl, rfl, rfl, rfl⟩
  ready := by simp [brokenBench, Standing.add]
  unfailed := rfl
  unflagged := rfl
  unreported := rfl

/-- The start has succeeded, and the first session is open. -/
def brokenEngaged : Bench := settle 2 (runToEnd 3 brokenBench.beginRun)

/-- A run that a case breaks off, in its first session and at its end. -/
theorem cases_in_sequence_broken :
    (brokenEngaged.startup = .started ∧ brokenEngaged.trail = [.opened] ∧
        Inevitably (fun b => During brokenBench b ∧ (b.isOver = true ∨ b.Endless)) brokenEngaged) ∧
      brokenBench.runCases.status? = none ∧
      (∃ n, brokenBench.runCases.trail = sessions n ++ [.killed]) ∧
      ∃ e time, brokenBench.runCases.exit = some e ∧
        (time, .sawExit e) ∈ brokenBench.runCases.history := by
  have untried := brokenBench_untried
  have engaged : During brokenBench brokenEngaged :=
    (During.begins.runToEnd untried 3).settle untried 2
  have started : brokenEngaged.startup = .started := by decide +kernel
  have atEnd : brokenBench.runCases.startup = .started := by decide +kernel
  obtain ⟨outcome, finished⟩ := finished_of_isOver
    (show brokenBench.runCases.isOver = true by decide +kernel)
  obtain ⟨-, -, -, goesOn⟩ := cases_in_sequence untried.toFresh engaged
  obtain ⟨-, -, -, ended⟩ := cases_in_sequence untried.toFresh (during_runCases untried)
  obtain ⟨killed, seen⟩ := (ended atEnd).2 outcome finished
  exact ⟨⟨started, by decide +kernel, (goesOn started).1⟩, by decide +kernel, killed, seen⟩

end FilterBench.Bench
