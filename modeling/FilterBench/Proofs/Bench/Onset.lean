import FilterBench.Proofs.Bench.Aftermath
import FilterBench.Proofs.Bench.Clock
import FilterBench.Proofs.Bench.Ledger

/-!
# A start

An `Onset` is what becomes of a bench from the call of its start on until the start is over, by the
clock and, where it is hindered, by stops from outside. While a start goes on a run at most waits for
it (`Quiet`), so that only the start itself and the world around it make the clock tick
(`StartTick`). What the world has in store for a start is given beforehand: how the build ends
(`buildEnd?`), what the program does (`programAt`) and how the port answers. A start
does nothing that a stop would forbid (`Onset.prompt`), and without a stop it was not hindered
(`Onset.unhindered`).
-/
namespace FilterBench

/-- A step that a start comes to only when nobody has asked to stop. All but the last come right
before what they allow. -/
def Startup.Unasked : Startup → Prop
  | .checkedBuild | .checkedGrace | .checkedReady | .checkedUnready _ | .started => True
  | _ => False

namespace Bench

/-- Nothing was done with the bench, and it waits for no port. -/
structure Unbegun (b : Bench) : Prop extends Fresh b where
  deadline : b.deadline = none
  ports : b.ports = none

/-- What becomes of a bench whose start was called, until the start is over. If it is `hindered`,
somebody may ask to stop at any moment but between a check and what the check allows. -/
inductive Onset (hindered : Prop) (b₀ : Bench) : Bench → Prop
  | calls {b : Bench} : b₀.start = .ok b → Onset hindered b₀ b
  | runs : Onset hindered b₀ b₀.beginRun
  | ticks {b b' : Bench} : Onset hindered b₀ b → ¬b.StartOver → Tick b b' → Onset hindered b₀ b'
  | stops {b : Bench} : hindered → Onset hindered b₀ b → ¬b.startup.Unasked →
      Onset hindered b₀ b.stop

/-! ## What the world has in store -/

/-- When a build ends that begins now, if it does, and with what result. -/
def buildEnd? (b : Bench) : Option (ℕ × Except Thrown Unit) :=
  match b.world.builder with
  | some builder => some (b.now + builder.ms, builder.result)
  | none =>
    let job := (b.nextJob (Build.command b.settings.build b.path b.executable)).2
    job.report?.map fun (time, e) =>
      (time, (Build.outcome b.settings.build b.path b.executable e).mapError .fault)

/-- A build that is not stood in for ends as its command does. -/
theorem buildEnd?_none {b : Bench} (builder : b.world.builder = none) : b.buildEnd? =
    (b.nextJob (Build.command b.settings.build b.path b.executable)).2.report?.map fun (time, e) =>
      (time, (Build.outcome b.settings.build b.path b.executable e).mapError .fault) := by
  simp only [buildEnd?, builder]

/-- The command that launches the test program. -/
def programLine (b : Bench) : CommandLine :=
  { program := b.executable, arguments := b.programArguments }

/-- What is left of the world's jobs once the build has begun. -/
def laterJobs (b : Bench) : List JobScript :=
  if b.world.builder.isSome then b.world.jobs else b.world.jobs.tail

/-- The test program, launched at a time. -/
def programAt (b : Bench) (time : ℕ) : Job :=
  .begin b.programLine.program (b.laterJobs.headD .missing) time

/-- When the grace period is over of a program that was launched at a time. -/
def graceEnd (b : Bench) (launch : ℕ) : ℕ := launch + b.timers.delay b.settings.startupGrace

/-- When the wait for the port is broken off. -/
def readinessEnd (b : Bench) (launch : ℕ) : ℕ :=
  b.graceEnd launch + b.timers.delay b.settings.readinessTimeout

/-- The test program as it is killed when the wait for its port was broken off. -/
def killedProgram (b : Bench) (launch : ℕ) : Job :=
  (b.programAt launch).kill (b.readinessEnd launch) b.killDelay

/-- The test programs that were launched, each with the time of its launch. -/
def launched (b : Bench) : List (ℕ × CommandLine) :=
  b.history.filterMap fun d => d.2.launch?.map (d.1, ·)

/-- A probe of the port has connected. -/
def Connects (b : Bench) : Prop := b.ports.bind PortWait.result? = some (.ok ())

variable {b₀ b b' : Bench} {l : ℕ} {e : Exit}

theorem isSkip_of_buildEnd {time : ℕ} {t : Thrown} (h : b.buildEnd? = some (time, .error t)) :
    t.isSkip = false := by
  unfold buildEnd? at h
  split at h
  · rename_i builder _
    simp only [Option.some.injEq, Prod.mk.injEq] at h
    exact builder.earnest t h.2
  · obtain ⟨⟨time', e⟩, -, same⟩ := Option.map_eq_some_iff.1 h
    simp only [Prod.mk.injEq] at same
    obtain ⟨-, failed⟩ := same
    unfold Build.outcome at failed
    split at failed
    · cases failed
    · cases failed
      rfl

/-! ## What the clock does with a start -/

/-- The run, if there is one, waits for the start. -/
structure Quiet (b : Bench) : Prop where
  run : b.run = .none ∨ b.run = .starting none
  session : b.session = none

/-- What the clock does with a start that is not over. -/
inductive StartTick (b : Bench) : Bench → Prop
  | sees {e : Exit} : b.pendingExit? = some e → StartTick b (b.recordExit e)
  | goesOn {b' : Bench} : b.pendingExit? = none → b.resumeStart? = some b' → StartTick b b'
  | happens {time : ℕ} {h : Happening} : b.pendingExit? = none → b.resumeStart? = none →
      (time, h) ∈ b.dues → h ≠ .sessionEnds → (∀ d ∈ b.dues, time ≤ d.1) →
      StartTick b ({ b with now := max b.now time }.happen h)
  | waits {time : ℕ} : b.pendingExit? = none → b.resumeStart? = none → b.now < time →
      (∀ d ∈ b.dues, time ≤ d.1) → StartTick b { b with now := time }

theorem due_sessionEnds {time : ℕ} : (time, Happening.sessionEnds) ∈ b.dues ↔
    b.session.bind (·.due) = some time := by
  simp [dues]

theorem Quiet.unresumed (quiet : b.Quiet) (going : ¬b.StartOver) : b.resumeRun? = none := by
  rcases quiet.run with run | run
  · simp only [resumeRun?, run]
  · cases startup : b.startup with
    | started => exact absurd (.inl startup) going
    | failed t => exact absurd (.inr ⟨t, startup⟩) going
    | _ => simp only [resumeRun?, run, startup]

theorem resume_cases (quiet : b.Quiet) (going : ¬b.StartOver) :
    (∃ e, b.pendingExit? = some e ∧ b.resume? = some (b.recordExit e)) ∨
      b.pendingExit? = none ∧ b.resume? = b.resumeStart? := by
  cases pending : b.pendingExit? with
  | some e => exact .inl ⟨e, rfl, by simp only [resume?, pending]⟩
  | none =>
    refine .inr ⟨rfl, ?_⟩
    simp only [resume?, pending, quiet.unresumed going]
    cases b.resumeStart? <;> rfl

theorem Tick.start (tick : Tick b b') (quiet : b.Quiet) (going : ¬b.StartOver) :
    b.StartTick b' := by
  have sorts := resume_cases quiet going
  cases tick with
  | does resumed =>
    rcases sorts with ⟨e, pending, sees⟩ | ⟨unpending, same⟩
    · rw [sees, Option.some.injEq] at resumed
      rw [← resumed]
      exact .sees pending
    · exact .goesOn unpending (same.symm.trans resumed)
  | @happens time what rests due earliest =>
    rcases sorts with ⟨e, -, sees⟩ | ⟨unpending, same⟩
    · cases rests.symm.trans sees
    · refine .happens unpending (same.symm.trans rests) due ?_ earliest
      rintro rfl
      simp [due_sessionEnds, quiet.session] at due
  | waits rests later earliest =>
    rcases sorts with ⟨e, -, sees⟩ | ⟨unpending, same⟩
    · cases rests.symm.trans sees
    · exact .waits unpending (same.symm.trans rests) later earliest

theorem StartTick.aside (tick : b.StartTick b') : b.Aside b' := by
  cases tick with
  | sees => exact aside_recordExit b _
  | goesOn _ resumed => exact aside_resumeStart resumed
  | @happens time what _ _ _ other _ =>
    have waited : b.Aside { b with now := max b.now time } := ⟨rfl, rfl, rfl, .inl rfl⟩
    exact waited.trans rfl (aside_happen other _)
  | waits => exact ⟨rfl, rfl, rfl, .inl rfl⟩

theorem Aside.quiet (aside : b.Aside b') (quiet : b.Quiet) : b'.Quiet := by
  constructor
  · rw [aside.run]
    exact quiet.run
  · exact aside.session.trans quiet.session

/-- The bench once its start was called. -/
def begun (b : Bench) : Bench := { b with startup := .makingScratch }.did (.madeScratch b.scratchDir)

theorem start_eq (h : b₀.start = .ok b) : b = b₀.begun := by
  unfold start at h
  split at h
  · cases h
    rfl
  · cases h

theorem start_of_fresh (fresh : b₀.Fresh) : b₀.start = .ok b₀.begun := by
  unfold start
  split
  · rfl
  · rename_i refused
    exact absurd fresh.stopping (refused fresh.startup)

theorem beginRun_eq (fresh : b₀.Fresh) : b₀.beginRun = { b₀.begun with run := .starting none } := by
  simp only [beginRun, start_of_fresh fresh]

theorem Onset.quiet {hindered : Prop} (fresh : b₀.Fresh) (h : Onset hindered b₀ b) : b.Quiet := by
  induction h with
  | calls started =>
    rw [start_eq started]
    exact ⟨.inl fresh.run, fresh.session⟩
  | runs =>
    rw [beginRun_eq fresh]
    exact ⟨.inr rfl, fresh.session⟩
  | ticks _ going tick ih => exact (tick.start ih going).aside.quiet ih
  | @stops b _ _ _ ih =>
    obtain ⟨-, run, session⟩ := stop_aside b
    constructor
    · rw [run]
      exact ih.run
    · exact session.trans ih.session

/-! ## The bench's own clock -/

instance (s : Startup) : Decidable (s = .started) :=
  decidable_of_iff ((match s with
    | .started => true
    | _ => false) = true) (by cases s <;> simp)

instance (b : Bench) : Decidable b.StartOver :=
  decidable_of_iff ((match b.startup with
    | .started => true
    | .failed _ => true
    | _ => false) = true) (by
    unfold StartOver
    cases b.startup <;> simp)

/-- Lets the bench's own clock go on until the start is over; at most `fuel` times. -/
def runStart : ℕ → Bench → Bench
  | 0, b => b
  | fuel + 1, b =>
    if b.StartOver then b
    else match b.resume? with
      | some b' => runStart fuel b'
      | none =>
        match b.tick? none with
        | some b' => runStart fuel b'
        | none => b

theorem onset_runStart {hindered : Prop} (h : Onset hindered b₀ b) (fuel : ℕ) :
    Onset hindered b₀ (runStart fuel b) := by
  induction fuel generalizing b with
  | zero => exact h
  | succ fuel ih =>
    rw [runStart]
    split
    · exact h
    · rename_i going
      split
      · rename_i resumed
        exact ih (h.ticks going (.does resumed))
      · rename_i rests
        split
        · rename_i ticked
          exact ih (h.ticks going (tick_of_tick rests ticked))
        · exact h

/-! ## What a start never changes -/

/-- What a start reads and never changes. -/
structure Site where
  settings : Settings
  timers : Timers
  port : PortScript
  line : CommandLine

def site (b : Bench) : Site := ⟨b.settings, b.timers, b.world.port, b.programLine⟩

theorem site_proceedTo (b : Bench) (next : Startup) : (b.proceedTo next).site = b.site := by
  unfold proceedTo
  split <;> rfl

theorem site_finishBuild (b : Bench) (result : Except Thrown Unit) :
    (b.finishBuild result).site = b.site := by
  unfold finishBuild
  split
  · rfl
  · exact site_proceedTo b .checkedBuild

theorem site_beginBuild (b : Bench) : b.beginBuild.site = b.site := by
  unfold beginBuild
  split
  · rfl
  · simp only []
    split <;> rfl

theorem site_judgeGrace (b : Bench) : b.judgeGrace.site = b.site := by
  obtain ⟨_, _, _, _, judged⟩ := exists_judgeGrace b
  rw [judged]
  rfl

theorem site_finishWait (b : Bench) : b.finishWait.site = b.site := by
  unfold finishWait
  split
  · exact site_proceedTo b _
  · exact site_proceedTo b _
  · rfl

theorem site_abortWait (b : Bench) (reason : AbortReason) : (b.abortWait reason).site = b.site := by
  unfold abortWait
  split
  · exact site_finishWait _
  · rfl

/-- Recording the end of the program changes nothing else but what is told. -/
theorem exists_noteExit (b : Bench) (e : Exit) : ∃ notices, b.noteExit e =
    { { b with exit := some e, program := b.program.map Job.finish }.did (.sawExit e) with
      notices := notices } := by
  unfold noteExit
  simp only []
  split <;> split <;> exact ⟨_, rfl⟩

theorem site_recordExit (b : Bench) (e : Exit) : (b.recordExit e).site = b.site := by
  obtain ⟨notices, noted⟩ := exists_noteExit b e
  have same : (b.noteExit e).site = b.site := by
    rw [noted]
    rfl
  rw [recordExit_eq]
  split
  · exact (site_proceedTo _ _).trans same
  · exact (site_abortWait _ _).trans same

theorem site_stop (b : Bench) : b.stop.site = b.site := by
  unfold stop
  split
  · rfl
  · split <;> rfl

theorem site_resumeStart (h : b.resumeStart? = some b') : b'.site = b.site := by
  cases StartMove.of_resume h with
  | unmade => rfl
  | builds => exact site_beginBuild b
  | built => exact site_finishBuild b _
  | launches => rfl
  | judges => exact site_judgeGrace b
  | succeeds => rfl
  | givesUp => exact site_stop b
  | gaveUp => rfl
  | halted => rfl

theorem site_happen {h : Happening} (other : h ≠ .sessionEnds) (b : Bench) :
    (b.happen h).site = b.site := by
  cases h with
  | buildEnds =>
    simp only [happen]
    split
    · exact site_finishBuild b _
    · rfl
  | programEnds =>
    simp only [happen]
    split
    · exact site_recordExit b _
    · rfl
  | graceEnds => exact site_proceedTo b _
  | deadlinePasses => exact site_abortWait _ _
  | portAnswers => exact site_finishWait _
  | sessionEnds => exact absurd rfl other

theorem site_startTick (tick : b.StartTick b') : b'.site = b.site := by
  cases tick with
  | sees => exact site_recordExit b _
  | goesOn _ resumed => exact site_resumeStart resumed
  | happens _ _ _ other _ => exact site_happen other _
  | waits => rfl

/-! ## Stops from outside -/

theorem prompt_proceedTo (b : Bench) (next : Startup) :
    (b.proceedTo next).startup.Unasked → (b.proceedTo next).stopping = .no := by
  unfold proceedTo
  split
  · rename_i unasked
    exact fun _ => unasked
  · exact False.elim

theorem prompt_finishBuild (b : Bench) (result : Except Thrown Unit) :
    (b.finishBuild result).startup.Unasked → (b.finishBuild result).stopping = .no := by
  unfold finishBuild
  split
  · exact False.elim
  · exact prompt_proceedTo b _

theorem prompt_beginBuild (b : Bench) : ¬b.beginBuild.startup.Unasked := by
  unfold beginBuild
  split
  · exact id
  · simp only []
    split <;> exact id

theorem prompt_judgeGrace (b : Bench) : ¬b.judgeGrace.startup.Unasked := by
  unfold judgeGrace
  split
  · exact id
  · split <;> exact id

theorem prompt_finishWait (prompt : b.startup.Unasked → b.stopping = .no) :
    b.finishWait.startup.Unasked → b.finishWait.stopping = .no := by
  unfold finishWait
  split
  · exact prompt_proceedTo b _
  · exact prompt_proceedTo b _
  · exact prompt

theorem prompt_abortWait (prompt : b.startup.Unasked → b.stopping = .no) (reason : AbortReason) :
    (b.abortWait reason).startup.Unasked → (b.abortWait reason).stopping = .no := by
  unfold abortWait
  split
  · exact prompt_finishWait (b := { b with ports := b.ports.map (PortWait.abort · b.now reason) })
      prompt
  · exact prompt

theorem prompt_recordExit (prompt : b.startup.Unasked → b.stopping = .no) (e : Exit) :
    (b.recordExit e).startup.Unasked → (b.recordExit e).stopping = .no := by
  obtain ⟨notices, noted⟩ := exists_noteExit b e
  have prompt' : (b.noteExit e).startup.Unasked → (b.noteExit e).stopping = .no := by
    rw [noted]
    exact prompt
  rw [recordExit_eq]
  split
  · exact prompt_proceedTo _ _
  · exact prompt_abortWait prompt' _

theorem prompt_resumeStart (prompt : b.startup.Unasked → b.stopping = .no)
    (h : b.resumeStart? = some b') : b'.startup.Unasked → b'.stopping = .no := by
  cases StartMove.of_resume h with
  | unmade => exact False.elim
  | builds => exact fun unasked => absurd unasked b.prompt_beginBuild
  | built => exact prompt_finishBuild b _
  | launches => exact False.elim
  | judges => exact fun unasked => absurd unasked b.prompt_judgeGrace
  | succeeds ready => exact fun _ => prompt (by rw [ready]; trivial)
  | givesUp => exact False.elim
  | gaveUp => exact False.elim
  | halted => exact False.elim

theorem prompt_happen (prompt : b.startup.Unasked → b.stopping = .no) {h : Happening}
    (other : h ≠ .sessionEnds) :
    (b.happen h).startup.Unasked → (b.happen h).stopping = .no := by
  cases h with
  | buildEnds =>
    simp only [happen]
    split
    · exact prompt_finishBuild b _
    · exact prompt
  | programEnds =>
    simp only [happen]
    split
    · exact prompt_recordExit prompt _
    · exact prompt
  | graceEnds => exact prompt_proceedTo b _
  | deadlinePasses => exact prompt_abortWait (b := { b with deadline := none }) prompt _
  | portAnswers =>
    exact prompt_finishWait (b := { b with ports := b.ports.map PortWait.proceed }) prompt
  | sessionEnds => exact absurd rfl other

theorem StartTick.prompt (tick : b.StartTick b') (prompt : b.startup.Unasked → b.stopping = .no) :
    b'.startup.Unasked → b'.stopping = .no := by
  cases tick with
  | sees => exact prompt_recordExit prompt _
  | goesOn _ resumed => exact prompt_resumeStart prompt resumed
  | @happens time what _ _ _ other _ =>
    exact prompt_happen (b := { b with now := max b.now time }) prompt other
  | waits => exact prompt

theorem Onset.course {hindered : Prop} (fresh : b₀.Fresh) (h : Onset hindered b₀ b) :
    Course b₀ b := by
  induction h with
  | calls started => exact .one (.starts started)
  | runs => exact .one (.runs (.inl fresh.run))
  | ticks _ _ tick ih => exact ih.step tick.move.step
  | stops _ _ _ ih => exact ih.step (.stops _)

/-- What a start comes to that is allowed only when nobody has asked to stop. -/
theorem Onset.prompt {hindered : Prop} (fresh : b₀.Fresh) (h : Onset hindered b₀ b) :
    b.startup.Unasked → b.stopping = .no := by
  induction h with
  | calls started =>
    rw [start_eq started]
    exact False.elim
  | runs =>
    rw [beginRun_eq fresh]
    exact False.elim
  | ticks before going tick ih => exact (tick.start (before.quiet fresh) going).prompt ih
  | @stops b _ _ between _ =>
    rw [startup_stop]
    exact fun unasked => absurd unasked between

/-- A start during which nobody asked to stop was not hindered. -/
theorem Onset.unhindered {hindered : Prop} (fresh : b₀.Fresh) (h : Onset hindered b₀ b)
    (unasked : b.stopping = .no) : Onset False b₀ b := by
  induction h with
  | calls started => exact .calls started
  | runs => exact .runs
  | @ticks c _ before going tick ih =>
    refine .ticks (ih ?_) going tick
    -- Whoever has asked to stop before the tick still asks after it.
    have valid := (before.course fresh).custody.valid fresh.valid
    have later := (Course.one tick.move.step).custody.later valid
    cases stopping : c.stopping with
    | no => rfl
    | asked w => cases unasked.symm.trans (later.asked w stopping)
  | @stops b _ _ _ _ => exact absurd unasked b.stopping_stop

end Bench

end FilterBench
