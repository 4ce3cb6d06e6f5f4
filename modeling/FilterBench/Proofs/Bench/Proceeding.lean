import FilterBench.Proofs.Bench.Stages

/-!
# How a start proceeds

Every tick of an unhindered start leads from stage to stage, and nearer to the end of the start
unless it is a wait for what is due (`StartTick.proceeds`). A start that is not over has something to
do or something due, unless its build never ends; so that the clock is bound to bring it to its end
(`Proceeds.inevitable`).
-/
namespace FilterBench.Bench

variable {b₀ b b' : Bench} {l time : ℕ} {e : Exit} {x : OtherError}

/-- Making the scratch directory fails, or the build ends. -/
def Settles (b : Bench) : Prop :=
  b.world.scratchError.isSome = true ∨ b.buildEnd?.isSome = true

/-! ## Waiting for the world -/

/-- What a start waits for is ahead, and it still waits when time has passed up to then. -/
theorem Waits.wait {s : Startup} (h : Waits b₀ b s) (startup : b.startup = s)
    (later : b.now ≤ time) (before : ∀ d ∈ b.dues, time ≤ d.1) :
    Waits b₀ { b with now := time } s := by
  have ending : ∀ {p : Job}, b.program = some p → p.ended = false →
      ∀ t e, p.report? = some (t, e) → time ≤ t := by
    intro p program going t e reports
    refine before (t, .programEnds) (due_programEnds_iff.2 ?_)
    simp [program, Job.due?, going, reports]
  cases h with
  | building ends _ jobs unlaunched =>
    refine .building ends ?_ jobs { unlaunched with }
    exact before _ (due_buildEnds.2 ⟨_, startup⟩)
  | endless made ends unlaunched => exact .endless made ends { unlaunched with }
  | grace lasts _ unlimited unprobed =>
    refine .grace (lasts.wait later (ending lasts.program lasts.unended)) ?_ unlimited unprobed
    exact before _ (due_graceEnds_iff.2 startup)
  | probing lasts port polls limited survived _ =>
    refine .probing (lasts.wait later (ending lasts.program lasts.unended)) port
      (polls.wait later ?_) limited (Nat.le_trans survived later) ?_
    · intro t due
      refine before (t, .portAnswers) (due_portAnswers.2 ⟨startup, ?_⟩)
      rw [port, Option.bind_some, due]
    · exact before _ (due_deadlinePasses.2 limited)
  | dying dying unconnected =>
    obtain ⟨t, e, ends, -⟩ := dying.ending
    refine .dying { dying with later := Nat.le_trans dying.later later, ending := ?_ } unconnected
    exact ⟨t, e, ends, ending dying.program dying.unended t e ends⟩

theorem Unlaunched.undue (h : b.Unlaunched) : (time, Happening.programEnds) ∉ b.dues := by
  rw [due_programEnds_iff, h.program]
  simp

theorem due_end {p : Job} (program : b.program = some p)
    (due : (time, Happening.programEnds) ∈ b.dues) : ∃ e, p.report? = some (time, e) ∧
      b.happen .programEnds = b.recordExit e := by
  rw [due_programEnds_iff, program, Option.bind_some, Job.due?] at due
  split at due
  · cases due
  · obtain ⟨⟨t, e⟩, reports, rfl⟩ := Option.map_eq_some_iff.1 due
    refine ⟨e, reports, ?_⟩
    simp only [happen, program, Option.bind_some, reports]

/-- Only a wait for the port has a deadline. -/
theorem Waits.limited {s : Startup} (waits : Waits b₀ b s) (limit : b.deadline = some time) :
    ∃ l w, s = .probing ∧ time = b₀.readinessEnd l ∧ b.now ≤ b₀.readinessEnd l ∧ Lasts b₀ b l ∧
      b.ports = some w ∧ w.Polls b₀.world.port (b₀.graceEnd l) b.now := by
  cases waits with
  | building _ _ _ unlaunched => cases unlaunched.unlimited.symm.trans limit
  | endless _ _ unlaunched => cases unlaunched.unlimited.symm.trans limit
  | grace _ _ unlimited _ => cases unlimited.symm.trans limit
  | probing lasts port polls limited _ within =>
    exact ⟨_, _, rfl, Option.some.inj (limit.symm.trans limited), within, lasts, port, polls⟩
  | dying dying _ => cases dying.unlimited.symm.trans limit

theorem Waits.ahead {s : Startup} {h : Happening} (waits : Waits b₀ b s) (startup : b.startup = s)
    (due : (time, h) ∈ b.dues) (other : h ≠ .sessionEnds) : b.now ≤ time := by
  cases h with
  | buildEnds =>
    obtain ⟨result, building⟩ := due_buildEnds.1 due
    cases startup.symm.trans building
    cases waits with
    | building _ ahead => exact ahead
  | programEnds =>
    cases waits with
    | building _ _ _ unlaunched => exact absurd due unlaunched.undue
    | endless _ _ unlaunched => exact absurd due unlaunched.undue
    | grace lasts =>
      obtain ⟨e, own, -⟩ := due_end lasts.program due
      exact lasts.ahead time e own
    | probing lasts =>
      obtain ⟨e, own, -⟩ := due_end lasts.program due
      exact lasts.ahead time e own
    | dying dying =>
      obtain ⟨t, e, ending, ahead⟩ := dying.ending
      obtain ⟨e', ending', -⟩ := due_end dying.program due
      cases ending.symm.trans ending'
      exact ahead
  | graceEnds =>
    have grace := due_graceEnds_iff.1 due
    cases startup.symm.trans grace
    cases waits with
    | grace _ within => exact within
  | deadlinePasses =>
    obtain ⟨_, _, -, rfl, within, -⟩ := waits.limited (due_deadlinePasses.1 due)
    exact within
  | portAnswers =>
    obtain ⟨probes, answer⟩ := due_portAnswers.1 due
    cases startup.symm.trans probes
    cases waits with
    | probing _ port polls =>
      rw [port, Option.bind_some] at answer
      exact polls.due time answer
  | sessionEnds => exact absurd rfl other

/-- Something happens that a start waits for. -/
theorem Waits.reaches {s : Startup} {h : Happening} (waits : Waits b₀ b s) (startup : b.startup = s)
    (due : (b.now, h) ∈ b.dues) (other : h ≠ .sessionEnds) : Reaches b₀ b (b.happen h) := by
  cases h with
  | buildEnds =>
    obtain ⟨result, building⟩ := due_buildEnds.1 due
    have happens : b.happen .buildEnds = b.finishBuild result := by
      simp only [happen, building]
    rw [happens]
    cases startup.symm.trans building
    cases waits with
    | building ends _ jobs unlaunched =>
      exact reaches_finishBuild (by rw [building]; rfl) ends jobs unlaunched
  | programEnds =>
    cases waits with
    | building _ _ _ unlaunched => exact absurd due unlaunched.undue
    | endless _ _ unlaunched => exact absurd due unlaunched.undue
    | grace lasts within _ unprobed =>
      obtain ⟨e, own, happens⟩ := due_end lasts.program due
      rw [happens]
      exact reaches_endedEarly startup lasts.toLaunched lasts.program own lasts.unasked within
        unprobed
    | probing lasts port polls _ survived within =>
      obtain ⟨e, own, happens⟩ := due_end lasts.program due
      rw [happens]
      exact reaches_endedLate startup lasts port polls own survived within
    | dying dying unconnected =>
      obtain ⟨e, ending, happens⟩ := due_end dying.program due
      rw [happens]
      exact reaches_killed startup dying ending unconnected
  | graceEnds =>
    have grace := due_graceEnds_iff.1 due
    cases startup.symm.trans grace
    generalize atEnd : b.now = finish at waits
    cases waits with
    | grace lasts => exact reaches_survived grace lasts atEnd
  | deadlinePasses =>
    obtain ⟨l, w, rfl, atEnd, -, lasts, port, polls⟩ := waits.limited (due_deadlinePasses.1 due)
    exact reaches_overdue startup lasts port polls atEnd
  | portAnswers =>
    obtain ⟨probes, answer⟩ := due_portAnswers.1 due
    cases startup.symm.trans probes
    cases waits with
    | probing lasts port polls limited survived within =>
      rw [port, Option.bind_some] at answer
      exact reaches_answered probes lasts port polls answer limited survived within
  | sessionEnds => exact absurd rfl other

/-- A start that waits for the world has something due, unless the build never ends. -/
theorem Waits.due {s : Startup} (waits : Waits b₀ b s) (startup : b.startup = s)
    (settles : b₀.Settles) : ∃ d, d ∈ b.dues := by
  cases waits with
  | building => exact ⟨_, due_buildEnds.2 ⟨_, startup⟩⟩
  | endless made endless _ =>
    rcases settles with unmade | ends
    · rw [made] at unmade
      cases unmade
    · rw [endless] at ends
      cases ends
  | grace => exact ⟨_, due_graceEnds_iff.2 startup⟩
  | probing _ _ _ limited => exact ⟨_, due_deadlinePasses.2 limited⟩
  | dying dying _ =>
    obtain ⟨t, e, ending, -⟩ := dying.ending
    refine ⟨(t, .programEnds), due_programEnds_iff.2 ?_⟩
    simp [dying.program, Job.due?, dying.unended, ending]

theorem Unlaunched.unpending (h : b.Unlaunched) : b.pendingExit? = none := by
  simp only [pendingExit?, h.unseen, h.program]

theorem Lasts.unpending (h : Lasts b₀ b l) : b.pendingExit? = none := by
  simp only [pendingExit?, h.unseen, h.program, h.unended, Bool.false_eq_true, if_false]

theorem unpending_of_seen (seen : b.exit = some e) : b.pendingExit? = none := by
  simp only [pendingExit?, seen]

theorem Waits.unpending {s : Startup} (h : Waits b₀ b s) : b.pendingExit? = none := by
  cases h with
  | building _ _ _ unlaunched => exact unlaunched.unpending
  | endless _ _ unlaunched => exact unlaunched.unpending
  | grace lasts => exact lasts.unpending
  | probing lasts => exact lasts.unpending
  | dying dying _ =>
    simp only [pendingExit?, dying.unseen, dying.program, dying.unended, Bool.false_eq_true, if_false]

theorem Verdict.unpending {s : Startup} (h : Verdict b₀ b s) : b.pendingExit? = none := by
  cases h with
  | unmade _ unlaunched => exact unlaunched.unpending
  | unbuilt _ unlaunched => exact unlaunched.unpending
  | endedEarly ended => exact unpending_of_seen ended.seen
  | endedLate ended => exact unpending_of_seen ended.seen
  | killed killed => exact unpending_of_seen killed.seen
  | refused lasts => exact lasts.unpending
  | ready ready => exact ready.unpending

/-- Only a program that was rejected as it was launched has an end that is not recorded yet. -/
theorem Stage.sees {s : Startup} (stage : Stage b₀ b s) (startup : b.startup = s)
    (pending : b.pendingExit? = some e) : Reaches b₀ b (b.recordExit e) := by
  have unpending : b.pendingExit? ≠ none := by simp [pending]
  cases stage with
  | waits waits => exact absurd waits.unpending unpending
  | making _ _ _ unlaunched => exact absurd unlaunched.unpending unpending
  | built _ _ unlaunched => exact absurd unlaunched.unpending unpending
  | cleared _ _ unlaunched => exact absurd unlaunched.unpending unpending
  | rejected launched program ended own unseen unasked within unprobed =>
    simp only [pendingExit?, unseen, program, ended, own, if_true, Option.map_some,
      Option.some.injEq] at pending
    subst pending
    exact reaches_endedEarly startup launched program own unasked within unprobed
  | survived lasts => exact absurd lasts.unpending unpending
  | endedEarly ended => exact absurd (unpending_of_seen ended.seen) unpending
  | connected ready => exact absurd ready.unpending unpending
  | endedLate ended => exact absurd (unpending_of_seen ended.seen) unpending
  | overdue lasts => exact absurd lasts.unpending unpending
  | gaveUp verdict => exact absurd verdict.unpending unpending
  | judged verdict => exact absurd verdict.unpending unpending

/-- A start does something that needs no time. -/
theorem Stage.goesOn {s : Startup} (stage : Stage b₀ b s) (startup : b.startup = s)
    (site : b.site = b₀.site) (resumed : b.resumeStart? = some b') : Reaches b₀ b b' := by
  cases StartMove.of_resume resumed with
  | unmade making broken =>
    cases startup.symm.trans making
    cases stage with
    | making _ same _ unlaunched =>
      constructor
      · exact .judged (.unmade (same.symm.trans broken) { unlaunched with })
      · exact nearer_of making (Nat.zero_lt_succ 7)
    | waits h | judged h => cases h
  | builds making fine =>
    cases startup.symm.trans making
    cases stage with
    | making ends same jobs unlaunched =>
      exact reaches_beginBuild making (same.symm.trans fine) ends jobs unlaunched
    | waits h | judged h => cases h
  | built built =>
    cases startup.symm.trans built
    cases stage with
    | built ends jobs unlaunched =>
      exact reaches_finishBuild (by rw [built]; rfl) ends jobs unlaunched
    | waits h | judged h => cases h
  | launches cleared =>
    cases startup.symm.trans cleared
    cases stage with
    | cleared ends jobs unlaunched => exact reaches_launch site cleared ends jobs unlaunched
    | waits h | judged h => cases h
  | judges checked =>
    cases startup.symm.trans checked
    cases stage with
    | survived lasts atEnd => exact reaches_probing site checked lasts atEnd
    | endedEarly ended within unprobed => exact reaches_judged checked ended within unprobed
    | waits h | judged h => cases h
  | succeeds checked =>
    cases startup.symm.trans checked
    cases stage with
    | connected ready => exact reaches_started checked ready
    | waits h | judged h => cases h
  | givesUp checked =>
    cases startup.symm.trans checked
    cases stage with
    | endedLate ended survived within unconnected unasked =>
      exact reaches_gaveUp checked ended survived within unconnected unasked
    | overdue lasts atEnd unconnected unlimited =>
      exact reaches_dying site checked lasts atEnd unconnected unlimited
    | waits h | judged h => cases h
  | gaveUp givingUp settled =>
    cases startup.symm.trans givingUp
    cases stage with
    | waits waits =>
      cases waits with
      | dying dying =>
        rw [stopSettled_eq dying.awaited, dying.unseen] at settled
        cases settled
    | gaveUp verdict => exact reaches_failed givingUp verdict
    | judged verdict => cases verdict
  | halted halting =>
    cases startup.symm.trans halting
    cases stage with
    | waits h | judged h => cases h

/-- A start that has nothing to do waits for the world, or is over. -/
theorem Stage.rests {s : Startup} (stage : Stage b₀ b s) (startup : b.startup = s)
    (unpending : b.pendingExit? = none) (rests : b.resumeStart? = none) :
    Waits b₀ b s ∨ b.StartOver := by
  cases stage with
  | waits waits => exact .inl waits
  | making =>
    simp only [resumeStart?, startup] at rests
    split at rests <;> cases rests
  | rejected _ program ended own unseen =>
    simp only [pendingExit?, unseen, program, ended, own, if_true] at unpending
    cases unpending
  | gaveUp _ settled => simp [resumeStart?, startup, settled] at rests
  | judged verdict => exact .inr (verdict.startOver startup)
  | _ => simp [resumeStart?, startup] at rests

/-! ## The course of a start -/

/-- Where an unhindered start has come to. -/
structure Proceeds (b₀ b : Bench) : Prop where
  site : b.site = b₀.site
  stage : Stage b₀ b b.startup

/-- Whatever the clock does leads from stage to stage, and nearer to the end unless it is a wait for
what is due. -/
theorem StartTick.proceeds (tick : b.StartTick b') (h : Proceeds b₀ b) (going : ¬b.StartOver) :
    Proceeds b₀ b' ∧ (b.Nearer b' ∨ Waits b₀ b b.startup ∧ ∃ time, b' = { b with now := time } ∧
      b.now < time ∧ ∀ d ∈ b.dues, time ≤ d.1) := by
  have site := (site_startTick tick).trans h.site
  cases tick with
  | sees pending =>
    have reached := h.stage.sees rfl pending
    exact ⟨⟨site, reached.stage⟩, .inl reached.nearer⟩
  | goesOn _ resumed =>
    have reached := h.stage.goesOn rfl h.site resumed
    exact ⟨⟨site, reached.stage⟩, .inl reached.nearer⟩
  | @happens time what unpending rests due other earliest =>
    have waits := (h.stage.rests rfl unpending rests).resolve_right going
    have later := waits.ahead rfl due other
    rw [Nat.max_eq_right later] at site ⊢
    have reached := (waits.wait rfl later earliest).reaches rfl due other
    exact ⟨⟨site, reached.stage⟩, .inl reached.nearer⟩
  | waits unpending rests later before =>
    have waits := (h.stage.rests rfl unpending rests).resolve_right going
    have still := waits.wait rfl (Nat.le_of_lt later) before
    exact ⟨⟨site, .waits still⟩, .inr ⟨waits, _, rfl, later, before⟩⟩

theorem Onset.proceeds (unbegun : b₀.Unbegun) (h : Onset False b₀ b) : Proceeds b₀ b := by
  have fresh := unbegun.toFresh
  have made : ∀ r, ({ b₀.begun with run := r } : Bench).Unlaunched := by
    intro r
    refine ⟨?_, fresh.program, fresh.running, fresh.exit, fresh.stopping, unbegun.deadline,
      unbegun.ports⟩
    show (b₀.history ++ [_]).filterMap _ = []
    rw [fresh.history]
    rfl
  induction h with
  | calls started =>
    rw [start_eq started]
    exact ⟨rfl, .making rfl rfl rfl (made b₀.run)⟩
  | runs =>
    rw [beginRun_eq fresh]
    exact ⟨rfl, .making rfl rfl rfl (made _)⟩
  | ticks before going tick ih =>
    exact ((tick.start (before.quiet fresh) going).proceeds ih going).1
  | stops hindered => exact hindered.elim

/-! ## The end of a start -/

theorem Proceeds.verdict (h : Proceeds b₀ b) (ended : b.StartOver) :
    Verdict b₀ b b.startup := by
  have stage := h.stage
  rcases ended with started | ⟨t, failed⟩
  · rw [started] at stage ⊢
    cases stage with
    | waits waits => cases waits
    | judged verdict => exact verdict
  · rw [failed] at stage ⊢
    cases stage with
    | waits waits => cases waits
    | judged verdict => exact verdict

/-- The time until something is due. -/
def untilDue (b : Bench) : ℕ :=
  match b.next? with
  | some d => d.1 - b.now
  | none => 0

theorem untilDue_wait {d : ℕ × Happening} (due : d ∈ b.dues) (later : b.now < time)
    (before : ∀ d ∈ b.dues, time ≤ d.1) :
    ({ b with now := time } : Bench).untilDue < b.untilDue := by
  obtain ⟨next, soonest⟩ := Option.isSome_iff_exists.1 (earliest_isSome due)
  have upcoming : b.next? = some next := soonest
  have upcoming' : ({ b with now := time } : Bench).next? = some next := soonest
  have within := before next (mem_of_earliest soonest)
  simp only [untilDue, upcoming, upcoming']
  omega

theorem Proceeds.rests (h : Proceeds b₀ b) (quiet : b.Quiet) (going : ¬b.StartOver)
    (rests : b.resume? = none) : Waits b₀ b b.startup := by
  rcases resume_cases quiet going with ⟨e, -, sees⟩ | ⟨unpending, same⟩
  · cases rests.symm.trans sees
  · exact (h.stage.rests rfl unpending (same.symm.trans rests)).resolve_right going

theorem Proceeds.goes (settles : b₀.Settles) (h : Proceeds b₀ b) (quiet : b.Quiet)
    (going : ¬b.StartOver) : b.Goes := by
  cases resumed : b.resume? with
  | some b' =>
    left
    rw [resumed]
    rfl
  | none =>
    obtain ⟨d, due⟩ := (h.rests quiet going resumed).due rfl settles
    exact goes_of_due due

/-- A start that nobody hinders is bound to be over, if its build ends. -/
theorem Proceeds.inevitable {b₀ b : Bench} (settles : b₀.Settles) (h : Proceeds b₀ b) (quiet : b.Quiet) :
    Inevitably (fun b => b.StartOver ∧ Proceeds b₀ b) b := by
  by_cases going : b.StartOver
  · exact .here ⟨going, h⟩
  · refine .later (h.goes settles quiet going) ?_
    intro b' tick
    have step := tick.start quiet going
    obtain ⟨h', progress⟩ := step.proceeds h going
    have nearer : Prod.Lex (· < ·) (Prod.Lex (· < ·) (· < ·))
        (b'.startup.rank, b'.pending, b'.untilDue) (b.startup.rank, b.pending, b.untilDue) := by
      rcases progress with (earlier | ⟨same, fewer⟩) | ⟨waits, time, rfl, later, before⟩
      · exact .left _ _ earlier
      · rw [same]
        exact .right _ (.left _ _ fewer)
      · obtain ⟨d, due⟩ := waits.due rfl settles
        exact .right _ (.right _ (untilDue_wait due later before))
    exact Proceeds.inevitable settles h' (step.aside.quiet quiet)
termination_by (b.startup.rank, b.pending, b.untilDue)
decreasing_by exact nearer

end FilterBench.Bench
