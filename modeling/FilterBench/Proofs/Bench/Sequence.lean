import FilterBench.Proofs.Bench.Trail
import FilterBench.Proofs.Session.Duration

/-!
# The sessions of a run come one after another

How far a run has come shows in its trail (`Paced`). Until the start is over nothing is on it but the
kill of a start that gives up. Then each case opens one connection and closes it, and at last the program
is killed. This holds of cases in any state and with any expectations: a case that breaks the run off
has closed its connection by then, and the program is killed as it is after the last case.
-/
namespace FilterBench

/-- A session that has ended has closed its connection. -/
theorem Session.closed_of_ended {route : Route} {accounts : Accounts} {script : Script} {peer : Peer}
    {e : Ending} (ended : (run route accounts script peer).ending = some e) :
    (run route accounts script peer).closed = true := by
  rcases connects : peer.connect route.host route.port route.timeout with c | ⟨after, s⟩ | _
  · rw [run_connected connects] at ended ⊢
    rcases ran : c.run (dialogue accounts script) with ⟨c', result⟩
    rw [ran] at ended
    obtain rfl : result = some e := ended
    show c'.isClosed = true
    rw [Connection.isClosed, Connection.isOver, (atRest_of_run connects ran).dropped, Bool.true_or,
      Bool.true_or]
  · rw [run, connects]
  · rw [run, connects] at ended
    cases ended

namespace Bench

variable {b b₀ b' : Bench} {i n : ℕ} {s : OpenSession}

/-- So many sessions were played, and all of them have closed their connections. -/
def Reported (b₀ b : Bench) (n : ℕ) : Prop :=
  ∃ rs, b.reports = b₀.reports ++ rs ∧ rs.length = n ∧ ∀ r ∈ rs, r.closed = true

/-- Nothing has come of the run so far, and nobody asked to stop. -/
structure Untouched (b₀ b : Bench) : Prop where
  unasked : b.stopping = .no
  trail : b.trail = []
  reports : b.reports = b₀.reports

/-- The start does not succeed, and no session is played. -/
structure Fruitless (b₀ b : Bench) : Prop where
  closed : b.startup.phase = .closed
  trail : b.trail = [] ∨ b.trail = [.killed]
  unkilled : b.stopping = .no → b.trail = []
  reports : b.reports = b₀.reports

/-- A session is played, after so many others. -/
structure Engaged (b₀ b : Bench) (i : ℕ) (s : OpenSession) : Prop where
  unasked : b.stopping = .no
  trail : b.trail = sessions i ++ [.opened]
  session : b.session = some s
  present : i < b.standing.cases.length
  /-- Nothing is due only in a session that never ends. -/
  due : s.due = none → s.report.ending = none
  closes : ∀ e, s.report.ending = some e → s.report.closed = true
  reported : ∃ rs, b.reports = b₀.reports ++ rs ++ [s.report] ∧ rs.length = i ∧
    ∀ r ∈ rs, r.closed = true

/-- So many sessions were played, and none is open. -/
structure Between (b₀ b : Bench) (n : ℕ) : Prop where
  started : b.startup = .started
  unasked : b.stopping = .no
  session : b.session = none
  trail : b.trail = sessions n
  reported : Reported b₀ b n

/-- After so many sessions the program was killed. -/
structure Served (b₀ b : Bench) (n : ℕ) : Prop where
  started : b.startup = .started
  launched : b.program ≠ none
  trail : b.trail = sessions n ++ [.killed]
  reported : Reported b₀ b n

/-- How far a run has come. -/
inductive Paced (b₀ b : Bench) : Run → Prop
  | starting : b.session = none → b.custody.Tidy → Untouched b₀ b ∨ Fruitless b₀ b →
      Paced b₀ b (.starting none)
  | playing {i : ℕ} {s : OpenSession} : Engaged b₀ b i s → Paced b₀ b (.playing i)
  | aborting (t : Thrown) : Fruitless b₀ b → Paced b₀ b (.aborting t)
  | closing {result : Except Thrown Unit} {n : ℕ} : b.session = none → Served b₀ b n →
      Paced b₀ b (.closing result)
  | fruitless {outcome : Except Thrown RunOutcome} : Fruitless b₀ b → Paced b₀ b (.finished outcome)
  | served {outcome : Except Thrown RunOutcome} {n : ℕ} {e : Exit} : Served b₀ b n →
      b.exit = some e → Paced b₀ b (.finished outcome)

/-! ## What the run has no part in -/

theorem asked_of_steps {lax : Prop} (steps : Custody.Steps lax b.custody b'.custody)
    (valid : b.custody.Valid) (asked : b.stopping ≠ .no) : b'.stopping ≠ .no := by
  obtain ⟨w, stopping⟩ := exists_asked asked
  have still : b'.stopping = .asked w := (steps.later valid).asked w stopping
  rw [still]
  simp

theorem reports_aside (aside : b.Aside b') : b'.reports = b.reports :=
  congrArg Ledger.reports aside.ledger

section

variable (move : SideMove b b') (aside : b.Aside b')
  (steps : Custody.Steps False b.custody b'.custody)

include move aside in
theorem Untouched.side (h : Untouched b₀ b) : Untouched b₀ b' ∨ Fruitless b₀ b' := by
  have reports := (reports_aside aside).trans h.reports
  rcases move.trail with same | givesUp
  · have trail := same.trans h.trail
    rcases aside.stopping with unasked | closed
    · exact .inl ⟨unasked.trans h.unasked, trail, reports⟩
    · exact .inr ⟨closed, .inl trail, fun _ => trail, reports⟩
  · refine .inr ⟨givesUp.closed, ?_, fun unasked => absurd unasked givesUp.asked, reports⟩
    rw [givesUp.stopped]
    exact trail_stop (fun _ => h.trail) (.inl h.trail)

/-- A start that is over adds nothing to the trail any more. -/
theorem trail_of_decided (move : SideMove b b') (patient : b.startup.phase ≠ .waiting) :
    b'.trail = b.trail :=
  move.trail.resolve_right fun givesUp => patient givesUp.waited

include move aside steps in
theorem Fruitless.side (valid : b.custody.Valid) (h : Fruitless b₀ b) : Fruitless b₀ b' where
  closed := steps.closed h.closed
  trail := by
    rw [trail_of_decided move (by simp [h.closed])]
    exact h.trail
  unkilled unasked := by
    rw [trail_of_decided move (by simp [h.closed])]
    exact h.unkilled (not_not.1 fun asked => asked_of_steps steps valid asked unasked)
  reports := (reports_aside aside).trans h.reports

include move aside steps in
theorem Engaged.side (valid : b.custody.Valid) (started : b.startup = .started)
    (h : Engaged b₀ b i s) : Engaged b₀ b' i s where
  unasked := by
    have still : b'.startup = .started := (steps.later valid).started started
    have open_ : b'.startup.phase ≠ .closed := by simp [still, Startup.phase]
    exact (aside.stopping.resolve_right open_).trans h.unasked
  trail := (trail_of_decided move (by simp [started, Startup.phase])).trans h.trail
  session := aside.session.trans h.session
  present := by
    have same : b'.standing = b.standing := congrArg Ledger.standing aside.ledger
    rw [same]
    exact h.present
  due := h.due
  closes := h.closes
  reported := by
    rw [reports_aside aside]
    exact h.reported

include move aside steps in
theorem Served.side (valid : b.custody.Valid) (h : Served b₀ b n) : Served b₀ b' n where
  started := (steps.later valid).started h.started
  launched := (steps.later valid).launched h.launched
  trail := (trail_of_decided move (by simp [h.started, Startup.phase])).trans h.trail
  reported := by
    rw [Reported, reports_aside aside]
    exact h.reported

end

/-- What the run has no part in does not change how far it has come. -/
theorem Paced.side (move : SideMove b b') (apart : b.Apart b')
    (steps : Custody.Steps False b.custody b'.custody) (valid : b.custody.Valid)
    (going : b.isOver = false) (h : Paced b₀ b b.run) : Paced b₀ b' b'.run := by
  rw [apart.run]
  generalize run : b.run = r at h ⊢
  cases h with
  | starting session tidy sofar =>
    refine .starting (apart.session.trans session) (apart.tidy tidy) ?_
    rcases sofar with untouched | fruitless
    · exact untouched.side move apart.toAside
    · exact .inr (fruitless.side move apart.toAside steps valid)
  | playing engaged =>
    exact .playing (engaged.side move apart.toAside steps valid (valid.playing _ run))
  | aborting t fruitless => exact .aborting t (fruitless.side move apart.toAside steps valid)
  | closing session served =>
    exact .closing (apart.session.trans session) (served.side move apart.toAside steps valid)
  | fruitless | served =>
    rw [isOver, run] at going
    cases going

/-! ## What the run does -/

theorem held_of_started (valid : b.custody.Valid) (started : b.startup = .started)
    (unasked : b.stopping = .no) : b.running = true :=
  valid.held unasked (.inr (by rw [custody, started]; rfl))

theorem paced_closeRun (valid : b.custody.Valid) (h : Between b₀ b n)
    (result : Except Thrown Unit) : Paced b₀ (b.closeRun result) (b.closeRun result).run := by
  have held := held_of_started valid h.started h.unasked
  obtain ⟨ledger, -, session⟩ := stop_aside b
  refine .closing (n := n) (session.trans h.session) ⟨?_, ?_, ?_, ?_⟩
  · exact (startup_stop b).trans h.started
  · show b.stop.program ≠ none
    rw [stop_held h.unasked held]
    intro none
    have idle : b.running = false := (valid.absent (Option.map_eq_none_iff.1 none)).1
    cases idle.symm.trans held
  · show b.stop.trail = _
    rw [trail_stop_held h.unasked held, h.trail]
  · show Reported b₀ b.stop n
    rw [Reported, show b.stop.reports = b.reports from congrArg Ledger.reports ledger]
    exact h.reported

theorem paced_playCase (valid : b.custody.Valid) (h : Between b₀ b n) :
    Paced b₀ (b.playCase n) (b.playCase n).run := by
  unfold playCase
  split
  · exact paced_closeRun valid h _
  · rename_i c present
    obtain ⟨rs, reports, count, closed⟩ := h.reported
    have below : n < b.standing.cases.length := (List.getElem?_eq_some_iff.1 present).choose
    refine .playing ⟨h.unasked, ?_, rfl, ?_, ?_, ?_, rs, ?_, count, closed⟩
    · show (b.did (.connected b.route.host b.route.port)).trail = _
      rw [trail_did, h.trail]
      rfl
    · show n < (b.standing.cases.modify n _).length
      rw [List.length_modify]
      exact below
    · intro none
      cases none
    · intro e ended
      exact Session.closed_of_ended ended
    · show b.reports ++ [_] = _
      rw [reports]
      rfl

/-- The session of a case has ended. -/
theorem Engaged.ends (h : Engaged b₀ b i s) (started : b.startup = .started) {e : Ending}
    (ends : s.report.ending = some e) :
    Between b₀ ({ b with session := none }.did .disconnected) (i + 1) where
  started := started
  unasked := h.unasked
  session := rfl
  trail := by
    rw [trail_did, show ({ b with session := none } : Bench).trail = b.trail from rfl, h.trail,
      sessions_succ, List.append_assoc]
    rfl
  reported := by
    obtain ⟨rs, reports, count, closed⟩ := h.reported
    refine ⟨rs ++ [s.report], ?_, ?_, ?_⟩
    · rw [← List.append_assoc]
      exact reports
    · rw [List.length_append, count, List.length_singleton]
    · intro r mem
      rcases List.mem_append.1 mem with mem | mem
      · exact closed r mem
      · rw [List.mem_singleton.1 mem]
        exact h.closes e ends

/-- The end of a session breaks the run off, or the case is marked and the next one is played. -/
theorem finishSession_cases (present : i < b.standing.cases.length) {e : Ending}
    (ends : s.report.ending = some e) :
    (∃ t, b.finishSession i s =
        ({ b with session := none }.did .disconnected).closeRun (.error t)) ∨
      ∃ c m notices some, b.finishSession i s =
          (({ b with session := none }.did .disconnected).marked i c m notices).playCase (i + 1) ∧
        (({ b with session := none }.did .disconnected).marked i c m notices).custody =
          b.custody.fail some := by
  have custody : ({ b with session := none }.did .disconnected).custody = b.custody :=
    custody_did rfl rfl rfl
  have present : ({ b with session := none }.did .disconnected).standing.cases[i]? =
      some b.standing.cases[i] := List.getElem?_eq_getElem present
  unfold finishSession
  rw [ends]
  simp only []
  split
  · exact .inl ⟨_, rfl⟩
  · rename_i concluded
    obtain ⟨some, failed⟩ := custody_conclude concluded
    obtain ⟨-, m, notices, -, rfl⟩ := conclude_ok present concluded
    exact .inr ⟨_, m, notices, some, rfl, failed.trans (by rw [custody])⟩

theorem paced_finishSession (valid : b.custody.Valid) (run : b.run = .playing i)
    (h : Engaged b₀ b i s) : Paced b₀ (b.finishSession i s) (b.finishSession i s).run := by
  cases ends : s.report.ending with
  | none =>
    have waits : b.finishSession i s = { b with session := some { s with due := none } } := by
      simp only [finishSession, ends]
    rw [waits]
    show Paced b₀ _ b.run
    rw [run]
    exact .playing ⟨h.unasked, h.trail, rfl, h.present, fun _ => ends, h.closes, h.reported⟩
  | some e =>
    have between := h.ends (valid.playing i run) ends
    have custody : ({ b with session := none }.did .disconnected).custody = b.custody :=
      custody_did rfl rfl rfl
    rcases finishSession_cases h.present ends with ⟨t, breaks⟩ | ⟨c, m, notices, some, next, failed⟩
    · rw [breaks]
      exact paced_closeRun (by rw [custody]; exact valid) between _
    · rw [next]
      apply paced_playCase
      · rw [failed]
        exact (@Custody.Step.fails False b.custody some).valid valid
      · exact ⟨between.started, between.unasked, between.session, between.trail, between.reported⟩

/-- Marking leaves everything as it is but the cases, the flags and what is told. -/
theorem exists_skipCases (b : Bench) (i : ℕ) (cases : List Case) :
    ∃ standing flagged notices, (b.skipCases i cases).1 =
      { b with standing := standing, serverFailed := flagged, notices := notices } := by
  induction cases generalizing b i with
  | nil => exact ⟨_, _, _, rfl⟩
  | cons c rest ih =>
    unfold skipCases
    split
    · exact ⟨_, _, _, rfl⟩
    · rename_i told
      obtain ⟨d, marked, told⟩ := ok_of_bind_eq_ok told
      cases told
      unfold mark at marked
      split at marked
      · cases marked
      · cases marked
        obtain ⟨_, _, _, same⟩ := ih (tell _ _) (i + 1)
        exact ⟨_, _, _, same⟩

theorem paced_startFailed (h : Fruitless b₀ b) (t : Thrown) :
    Paced b₀ (b.startFailed t) (b.startFailed t).run := by
  unfold startFailed
  split
  · obtain ⟨standing, flagged, notices, same⟩ :=
      exists_skipCases (b.tell .skipRequested) 0 b.standing.cases
    have skipped : Fruitless b₀ ((b.tell .skipRequested).skipCases 0 b.standing.cases).1 := by
      rw [same]
      exact ⟨h.closed, h.trail, h.unkilled, h.reports⟩
    simp only []
    split
    all_goals
      rename_i ran
      have ran : (b.tell .skipRequested).skipCases 0 b.standing.cases = _ := ran
      rw [ran] at skipped
      exact .fruitless ⟨skipped.closed, skipped.trail, skipped.unkilled, skipped.reports⟩
  · obtain ⟨ledger, -⟩ := stop_aside (b.tell (.startFailed t))
    refine .aborting t ⟨?_, ?_, ?_, ?_⟩
    · show (b.tell (.startFailed t)).stop.startup.phase = _
      rw [startup_stop]
      exact h.closed
    · exact trail_stop (b := b.tell (.startFailed t)) h.unkilled h.trail
    · exact fun unasked => absurd unasked (stopping_stop _)
    · exact (congrArg Ledger.reports ledger).trans h.reports

/-- A run that has served its cases is over only once the end of the program is recorded. -/
theorem paced_finishRun (valid : b.custody.Valid) (stoppable : b.custody.Stoppable)
    (settled : b.stopSettled = true) (h : Served b₀ b n) (outcome : Except Thrown RunOutcome) :
    Paced b₀ (b.finishRun outcome) (b.finishRun outcome).run := by
  obtain ⟨p, program⟩ := Option.ne_none_iff_exists'.1 h.launched
  obtain ⟨-, e, exit, -⟩ := ended_of_settled valid stoppable settled program
  exact .served ⟨h.started, h.launched, h.trail, h.reported⟩ exit

theorem paced_resumeRun (valid : b.custody.Valid) (stoppable : b.custody.Stoppable)
    (h : Paced b₀ b b.run) (resumed : b.resumeRun? = some b') : Paced b₀ b' b'.run := by
  cases RunMove.of_resume resumed with
  | refused run =>
    rw [run] at h
    cases h
  | begins run started =>
    rw [run] at h
    cases h with
    | starting session _ sofar =>
      rcases sofar with untouched | fruitless
      · have none : Reported b₀ b 0 := ⟨[], by rw [untouched.reports, List.append_nil], rfl, by simp⟩
        exact paced_playCase valid ⟨started, untouched.unasked, session, untouched.trail, none⟩
      · have closed := fruitless.closed
        rw [started] at closed
        cases closed
  | @fails t run failed =>
    rw [run] at h
    cases h with
    | starting _ tidy sofar =>
      refine paced_startFailed ?_ t
      rcases sofar with untouched | fruitless
      · exact ⟨by rw [failed]; rfl, .inl untouched.trail, fun _ => untouched.trail, untouched.reports⟩
      · exact fruitless
  | plays run session =>
    rw [run] at h
    cases h with
    | playing engaged =>
      obtain rfl := Option.some.inj (engaged.session.symm.trans session)
      exact paced_finishSession valid run engaged
  | aborts run =>
    rw [run] at h
    cases h with
    | aborting _ fruitless =>
      exact .fruitless ⟨fruitless.closed, fruitless.trail, fruitless.unkilled, fruitless.reports⟩
  | breaks run settled =>
    rw [run] at h
    cases h with
    | closing _ served => exact paced_finishRun valid stoppable settled served _
  | closes run settled =>
    rw [run] at h
    cases h with
    | closing _ served => exact paced_finishRun valid stoppable settled served _

/-! ## The course of a run -/

/-- Nobody asks to stop before the start is decided. -/
theorem Paced.prompt (h : Paced b₀ b b.run) (asked : b.stopping ≠ .no) :
    b.custody.Decided := by
  have ready : b.startup = .started → b.custody.Decided := fun started => .inl (by
    rw [custody, started]
    rfl)
  generalize run : b.run = r at h
  cases h with
  | starting _ _ sofar =>
    rcases sofar with untouched | fruitless
    · exact absurd untouched.unasked asked
    · exact .inr fruitless.closed
  | playing engaged => exact absurd engaged.unasked asked
  | aborting _ fruitless => exact .inr fruitless.closed
  | closing _ served => exact ready served.started
  | fruitless fruitless => exact .inr fruitless.closed
  | served served _ => exact ready served.started

/-- What holds of a run of any cases that has begun. -/
structure Ordered (b₀ b : Bench) : Prop where
  timely : TimelyCourse b₀ b
  paced : Paced b₀ b b.run

theorem Ordered.valid (fresh : b₀.Fresh) (h : Ordered b₀ b) : b.custody.Valid :=
  h.timely.custody.valid fresh.valid

theorem Ordered.stoppable (fresh : b₀.Fresh) (h : Ordered b₀ b) : b.custody.Stoppable :=
  h.timely.custody.stoppable fresh.stoppable

theorem Ordered.ungapped (h : Ordered b₀ b) : ¬b.Gap := by
  rintro ⟨cleared, asked⟩
  have phase : b.custody.startup.phase = .cleared := by
    rw [custody, cleared]
    rfl
  simpa using (h.paced.prompt asked).not phase

theorem Ordered.begins (fresh : b₀.Fresh) : Ordered b₀ b₀.beginRun := by
  constructor
  · apply TimelyCourse.step (.refl b₀)
    · intro gap
      exact gap.2 fresh.stopping
    · exact .runs (.inl fresh.run)
  · rw [beginRun_eq fresh]
    have trail : b₀.trail = [] := by rw [trail, fresh.history]; rfl
    refine .starting fresh.session (tidy_of_unfailed (by simp [begun, did])) (.inl ⟨?_, ?_, rfl⟩)
    · exact fresh.stopping
    · exact ((trail_did _ _).trans (List.append_nil _)).trans trail

/-- Whatever comes next leaves a run in order. -/
theorem Ordered.move (fresh : b₀.Fresh) (h : Ordered b₀ b) (going : b.isOver = false)
    (move : Move b b') : Ordered b₀ b' := by
  have valid := h.valid fresh
  have stoppable := h.stoppable fresh
  refine ⟨h.timely.step h.ungapped move.step, ?_⟩
  rcases move.sorts with side | resumed | ⟨i, s, now, run, session, rfl⟩
  · exact h.paced.side side (side.apart valid stoppable) (move.step.custody h.ungapped) valid
      going
  · exact paced_resumeRun valid stoppable h.paced resumed
  · have waited : Paced b₀ { b with now := now } (.playing i) := by
      rw [← run]
      exact h.paced.side (.waits b now) (apart_wait b now) (.refl _) valid going
    cases waited with
    | playing engaged =>
      obtain rfl := Option.some.inj (engaged.session.symm.trans session)
      exact paced_finishSession (b := { b with now := now }) valid run engaged

theorem During.ordered (fresh : b₀.Fresh) (h : During b₀ b) : Ordered b₀ b := by
  induction h with
  | begins => exact .begins fresh
  | moves _ going move ih => exact ih.move fresh going move

end Bench

end FilterBench
