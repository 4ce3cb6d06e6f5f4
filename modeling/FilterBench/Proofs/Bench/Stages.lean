import FilterBench.Proofs.Bench.Onset
import FilterBench.Proofs.PortWait

/-!
# From stage to stage

`Stage` says for every step of an unhindered start what has happened by then and when, and `Verdict`
in which ways such a start can be over. Whatever the start does or waits for `Reaches` another stage
that is nearer to the end: a later step of the start, or within a step fewer probes of the port.
-/
namespace FilterBench

/-- How many steps away from its end a start is at most. -/
def Startup.rank : Startup → ℕ
  | .makingScratch => 8
  | .building _ _ | .built _ => 7
  | .checkedBuild => 6
  | .grace _ => 5
  | .checkedGrace => 4
  | .probing => 3
  | .checkedReady | .checkedUnready _ => 2
  | .givingUp _ | .halting => 1
  | .idle | .started | .failed _ => 0

namespace Bench

/-! ## The steps of a start -/

/-- Nothing was launched, and nobody asked to stop. -/
structure Unlaunched (b : Bench) : Prop where
  launched : b.launched = []
  program : b.program = none
  released : b.running = false
  unseen : b.exit = none
  unasked : b.stopping = .no
  unlimited : b.deadline = none
  unprobed : b.ports = none

/-- The build has succeeded, and the program was launched at its end. -/
structure Launched (b₀ b : Bench) (l : ℕ) : Prop where
  built : b₀.buildEnd? = some (l, .ok ())
  launched : b.launched = [(l, b₀.programLine)]
  later : l ≤ b.now

/-- The end of the program is not known yet, and nobody asked to stop. -/
structure Lasts (b₀ b : Bench) (l : ℕ) : Prop extends Launched b₀ b l where
  program : b.program = some (b₀.programAt l)
  held : b.running = true
  unended : (b₀.programAt l).ended = false
  unseen : b.exit = none
  unasked : b.stopping = .no
  ahead : ∀ time e, (b₀.programAt l).report? = some (time, e) → b.now ≤ time

/-- The program has ended by itself, and its end is known just now. -/
structure Ended (b₀ b : Bench) (l : ℕ) (e : Exit) : Prop extends Launched b₀ b l where
  program : b.program = some (b₀.programAt l).finish
  own : (b₀.programAt l).report? = some (b.now, e)
  seen : b.exit = some e

/-- The program was killed when the wait for its port was broken off, and its end is not known yet. -/
structure Dying (b₀ b : Bench) (l : ℕ) : Prop extends Launched b₀ b l where
  program : b.program = some (b₀.killedProgram l)
  unended : (b₀.killedProgram l).ended = false
  outlived : (b₀.programAt l).ended = false ∧
    ∀ time e, (b₀.programAt l).report? = some (time, e) → b₀.readinessEnd l ≤ time
  ending : ∃ time e, (b₀.killedProgram l).report? = some (time, e) ∧ b.now ≤ time
  unseen : b.exit = none
  awaited : b.stopping = .asked true
  released : b.running = false
  unlimited : b.deadline = none

/-- The program was killed when the wait for its port was broken off, and its end is known just now. -/
structure Killed (b₀ b : Bench) (l : ℕ) (e : Exit) : Prop extends Launched b₀ b l where
  program : b.program = some (b₀.killedProgram l).finish
  outlived : (b₀.programAt l).ended = false ∧
    ∀ time e, (b₀.programAt l).report? = some (time, e) → b₀.readinessEnd l ≤ time
  ending : (b₀.killedProgram l).report? = some (b.now, e)
  seen : b.exit = some e

/-- A probe has connected just now, within the time for it, before any end of the program is known. -/
structure Ready (b₀ b : Bench) (l : ℕ) : Prop extends Lasts b₀ b l where
  connected : ∃ w, b.ports = some w ∧ w.Connected b₀.world.port (b₀.graceEnd l) b.now
  limited : b.deadline = some (b₀.readinessEnd l)
  within : b.now ≤ b₀.readinessEnd l

/-- How a start is over that nobody hindered. -/
inductive Verdict (b₀ b : Bench) : Startup → Prop
  | unmade {e : OtherError} : b₀.world.scratchError = some e → b.Unlaunched →
      Verdict b₀ b (.failed (.other e))
  | unbuilt {t : Thrown} : b₀.buildEnd? = some (b.now, .error t) → b.Unlaunched →
      Verdict b₀ b (.failed t)
  | endedEarly {l : ℕ} {e : Exit} : Ended b₀ b l e → b.now ≤ b₀.graceEnd l → b.ports = none →
      b.running = false → Verdict b₀ b (.failed
        (if e.code = some b.settings.exitCodes.skip then b.skipped else b.endedEarly e))
  /-- The time for the port is longer than any deadline can be. -/
  | refused {l : ℕ} {x : OtherError} : Lasts b₀ b l → b.now = b₀.graceEnd l →
      b₀.timers.refusal? b₀.settings.readinessTimeout = some x → Verdict b₀ b (.failed (.other x))
  | endedLate {l : ℕ} {e : Exit} {x : OtherError} : Ended b₀ b l e → b₀.graceEnd l ≤ b.now →
      b.now ≤ b₀.readinessEnd l → ¬b.Connects → b.running = false →
      Verdict b₀ b (.failed (b.judgeGivenUp x))
  | killed {l : ℕ} {e : Exit} {x : OtherError} : Killed b₀ b l e → ¬b.Connects →
      b.running = false → Verdict b₀ b (.failed (b.judgeGivenUp x))
  | ready {l : ℕ} : Ready b₀ b l → Verdict b₀ b .started

/-- What has happened when a start waits for the world. -/
inductive Waits (b₀ b : Bench) : Startup → Prop
  | building {due : ℕ} {result : Except Thrown Unit} : b₀.buildEnd? = some (due, result) →
      b.now ≤ due → b.world.jobs = b₀.laterJobs → b.Unlaunched →
      Waits b₀ b (.building (some due) result)
  | endless {result : Except Thrown Unit} : b₀.world.scratchError = none → b₀.buildEnd? = none →
      b.Unlaunched → Waits b₀ b (.building none result)
  | grace {l : ℕ} : Lasts b₀ b l → b.now ≤ b₀.graceEnd l → b.deadline = none → b.ports = none →
      Waits b₀ b (.grace ⟨b₀.graceEnd l⟩)
  | probing {l : ℕ} {w : PortWait} : Lasts b₀ b l → b.ports = some w →
      w.Polls b₀.world.port (b₀.graceEnd l) b.now → b.deadline = some (b₀.readinessEnd l) →
      b₀.graceEnd l ≤ b.now → b.now ≤ b₀.readinessEnd l → Waits b₀ b .probing
  | dying {l : ℕ} {x : OtherError} : Dying b₀ b l → ¬b.Connects → Waits b₀ b (.givingUp x)

/-- What has happened when an unhindered start has come to a step. -/
inductive Stage (b₀ b : Bench) : Startup → Prop
  | waits {s : Startup} : Waits b₀ b s → Stage b₀ b s
  | making : b.buildEnd? = b₀.buildEnd? → b.world.scratchError = b₀.world.scratchError →
      b.laterJobs = b₀.laterJobs → b.Unlaunched → Stage b₀ b .makingScratch
  | built {result : Except Thrown Unit} : b₀.buildEnd? = some (b.now, result) →
      b.world.jobs = b₀.laterJobs → b.Unlaunched → Stage b₀ b (.built result)
  | cleared : b₀.buildEnd? = some (b.now, .ok ()) → b.world.jobs = b₀.laterJobs → b.Unlaunched →
      Stage b₀ b .checkedBuild
  /-- The launch was rejected, and this was not recorded yet. -/
  | rejected {l : ℕ} {e : Exit} : Launched b₀ b l → b.program = some (b₀.programAt l) →
      (b₀.programAt l).ended = true → (b₀.programAt l).report? = some (b.now, e) → b.exit = none →
      b.stopping = .no → b.now ≤ b₀.graceEnd l → b.ports = none →
      Stage b₀ b (.grace ⟨b₀.graceEnd l⟩)
  | survived {l : ℕ} : Lasts b₀ b l → b.now = b₀.graceEnd l → Stage b₀ b .checkedGrace
  | endedEarly {l : ℕ} {e : Exit} : Ended b₀ b l e → b.now ≤ b₀.graceEnd l → b.ports = none →
      Stage b₀ b .checkedGrace
  | connected {l : ℕ} : Ready b₀ b l → Stage b₀ b .checkedReady
  | endedLate {l : ℕ} {e : Exit} {x : OtherError} : Ended b₀ b l e → b₀.graceEnd l ≤ b.now →
      b.now ≤ b₀.readinessEnd l → ¬b.Connects → b.stopping = .no → Stage b₀ b (.checkedUnready x)
  | overdue {l : ℕ} {x : OtherError} : Lasts b₀ b l → b.now = b₀.readinessEnd l → ¬b.Connects →
      b.deadline = none → Stage b₀ b (.checkedUnready x)
  | gaveUp {x : OtherError} : Verdict b₀ b (.failed (b.judgeGivenUp x)) → b.stopSettled = true →
      Stage b₀ b (.givingUp x)
  | judged {s : Startup} : Verdict b₀ b s → Stage b₀ b s

/-- What can still happen within the step that a start has come to: to the probes of the port, or the
end of a program that was killed. -/
def pending (b : Bench) : ℕ :=
  match b.startup, b.ports, b.deadline with
  | .probing, some w, some limit => w.ahead limit
  | .givingUp _, _, _ => if b.exit.isSome then 0 else 1
  | _, _, _ => 0

def Nearer (b b' : Bench) : Prop :=
  b'.startup.rank < b.startup.rank ∨
    b'.startup.rank = b.startup.rank ∧ b'.pending < b.pending

/-- A tick has led to a stage that is nearer to the end of the start. -/
structure Reaches (b₀ b b' : Bench) : Prop where
  stage : Stage b₀ b' b'.startup
  nearer : b.Nearer b'

variable {b₀ b b' : Bench} {l time : ℕ} {e : Exit} {x : OtherError}

theorem nearer_of {s : Startup} (before : b.startup = s) (after : b'.startup.rank < s.rank) :
    b.Nearer b' := by
  rw [← before] at after
  exact .inl after

/-! ## What is due -/

theorem due_buildEnds : (time, Happening.buildEnds) ∈ b.dues ↔
    ∃ result, b.startup = .building (some time) result := by
  cases startup : b.startup <;> simp [dues, startup]

theorem due_graceEnds_iff : (time, Happening.graceEnds) ∈ b.dues ↔ b.startup = .grace ⟨time⟩ := by
  cases startup : b.startup <;> simp [dues, startup, Pause.ext_iff]

theorem due_programEnds_iff : (time, Happening.programEnds) ∈ b.dues ↔
    b.program.bind Job.due? = some time := by
  simp [dues]

theorem due_deadlinePasses : (time, Happening.deadlinePasses) ∈ b.dues ↔
    b.deadline = some time := by
  simp [dues]

theorem due_portAnswers : (time, Happening.portAnswers) ∈ b.dues ↔
    b.startup = .probing ∧ b.ports.bind PortWait.due? = some time := by
  cases startup : b.startup <;> simp [dues, startup]

/-! ## The build -/

theorem launched_did {d : Deed} (other : d.launch? = none) : (b.did d).launched = b.launched := by
  simp [launched, did, other]

theorem reaches_beginBuild (making : b.startup = .makingScratch)
    (made : b₀.world.scratchError = none) (ends : b.buildEnd? = b₀.buildEnd?)
    (jobs : b.laterJobs = b₀.laterJobs) (unlaunched : b.Unlaunched) :
    Reaches b₀ b b.beginBuild := by
  have begun : ∀ (w : World) (s : Startup) (d : Deed), d.launch? = none →
      ({ { b with world := w }.did d with startup := s } : Bench).Unlaunched := by
    intro w s d other
    have kept := launched_did (b := { b with world := w }) other
    exact { unlaunched with launched := kept.trans unlaunched.launched }
  have nearer : ∀ {b' : Bench}, b'.startup.rank = 7 → b.Nearer b' :=
    fun rank => nearer_of making (Nat.lt_of_le_of_lt (Nat.le_of_eq rank) (Nat.lt_succ_self 7))
  cases builder : b.world.builder with
  | some p =>
    have jobs' : b.world.jobs = b₀.laterJobs := by
      rw [← jobs, laterJobs, builder]
      rfl
    simp only [beginBuild, builder]
    refine ⟨.waits (.building ?_ (Nat.le_add_right _ _) jobs' (begun b.world _ _ rfl)), nearer rfl⟩
    rw [← ends]
    simp only [buildEnd?, builder]
  | none =>
    have jobs' : b.world.jobs.tail = b₀.laterJobs := by
      rw [← jobs, laterJobs, builder]
      rfl
    have ends' := buildEnd?_none builder
    rw [ends] at ends'
    simp only [beginBuild, builder]
    split
    · rename_i time e reports ended
      obtain rfl : time = b.now := (Job.begin_cases reports).2 ended
      rw [reports] at ends'
      exact ⟨.built ends' jobs' (begun _ _ _ rfl), nearer rfl⟩
    · rename_i time e reports going
      rw [reports] at ends'
      exact ⟨.waits (.building ends' (Job.begin_cases reports).1 jobs' (begun _ _ _ rfl)),
        nearer rfl⟩
    · rename_i reports
      rw [reports] at ends'
      exact ⟨.waits (.endless made ends' (begun _ _ _ rfl)), nearer rfl⟩

theorem reaches_finishBuild {result : Except Thrown Unit} (before : b.startup.rank = 7)
    (ends : b₀.buildEnd? = some (b.now, result)) (jobs : b.world.jobs = b₀.laterJobs)
    (unlaunched : b.Unlaunched) : Reaches b₀ b (b.finishBuild result) := by
  have nearer : ∀ {b' : Bench}, b'.startup.rank < 7 → b.Nearer b' := by
    intro b' after
    rw [← before] at after
    exact .inl after
  cases result with
  | error t => exact ⟨.judged (.unbuilt ends { unlaunched with }), nearer (Nat.zero_lt_succ 6)⟩
  | ok =>
    have cleared : b.finishBuild (.ok ()) = { b with startup := .checkedBuild } := by
      simp only [finishBuild, proceedTo, unlaunched.unasked]
    rw [cleared]
    exact ⟨.cleared ends jobs { unlaunched with }, nearer (Nat.lt_succ_self 6)⟩

/-! ## The grace period -/

theorem reaches_launch (site : b.site = b₀.site) (checked : b.startup = .checkedBuild)
    (ends : b₀.buildEnd? = some (b.now, .ok ())) (jobs : b.world.jobs = b₀.laterJobs)
    (unlaunched : b.Unlaunched) : Reaches b₀ b b.launch := by
  have line : b.programLine = b₀.programLine := by
    show b.site.line = b₀.site.line
    rw [site]
  have program : (b.nextJob b.programLine).2 = b₀.programAt b.now := by
    rw [nextJob, programAt, jobs, line]
  have grace : b.now + b.timers.delay b.settings.startupGrace = b₀.graceEnd b.now := by
    rw [graceEnd, show b.settings = b₀.settings from congrArg Site.settings site,
      show b.timers = b₀.timers from congrArg Site.timers site]
  have launched : b.launch.launched = [(b.now, b₀.programLine)] := by
    show (b.history ++ [(b.now, Deed.ran b.programLine)]).filterMap _ = _
    rw [List.filterMap_append, show b.history.filterMap _ = [] from unlaunched.launched, line]
    rfl
  have same : Launched b₀ b.launch b.now := ⟨ends, launched, Nat.le_refl _⟩
  have nearer : b.Nearer b.launch := nearer_of checked (Nat.lt_succ_self 5)
  have waits : b.launch.startup = .grace ⟨b₀.graceEnd b.now⟩ := by
    rw [← grace]
    rfl
  have holds : b.launch.program = some (b₀.programAt b.now) := congrArg some program
  have within : b.launch.now ≤ b₀.graceEnd b.now := Nat.le_add_right _ _
  refine ⟨?_, nearer⟩
  rw [waits]
  cases ended : (b₀.programAt b.now).ended with
  | true =>
    obtain ⟨e, reports⟩ := Job.begin_report ended
    exact .rejected same holds ended reports unlaunched.unseen unlaunched.unasked within
      unlaunched.unprobed
  | false =>
    refine .waits (.grace ⟨same, holds, rfl, ended, unlaunched.unseen, unlaunched.unasked, ?_⟩
      within unlaunched.unlimited unlaunched.unprobed)
    exact fun time e reports => (Job.begin_cases reports).1

theorem Lasts.wait (h : Lasts b₀ b l) (later : b.now ≤ time)
    (before : ∀ t e, (b₀.programAt l).report? = some (t, e) → time ≤ t) :
    Lasts b₀ { b with now := time } l :=
  { h with
    later := Nat.le_trans h.later later
    ahead := before }

/-- The program ends in the grace period. -/
theorem reaches_endedEarly {pause : Pause} (waits : b.startup = .grace pause)
    (launched : Launched b₀ b l) (program : b.program = some (b₀.programAt l))
    (own : (b₀.programAt l).report? = some (b.now, e)) (unasked : b.stopping = .no)
    (within : b.now ≤ b₀.graceEnd l) (unprobed : b.ports = none) :
    Reaches b₀ b (b.recordExit e) := by
  obtain ⟨notices, noted⟩ := exists_noteExit b e
  have quiet : b.launched = (b.did (.sawExit e)).launched := (launched_did rfl).symm
  have recorded : b.recordExit e = { b.noteExit e with startup := .checkedGrace } := by
    rw [recordExit_eq, noted]
    simp only [did, waits, proceedTo, unasked]
  rw [recorded, noted]
  constructor
  · refine .endedEarly ⟨⟨launched.built, ?_, launched.later⟩, ?_, own, rfl⟩ within unprobed
    · exact quiet.symm.trans launched.launched
    · show b.program.map _ = _
      rw [program, Option.map_some]
  · exact nearer_of waits (Nat.lt_succ_self 4)

theorem reaches_survived {pause : Pause} (waits : b.startup = .grace pause) (lasts : Lasts b₀ b l)
    (atEnd : b.now = b₀.graceEnd l) : Reaches b₀ b (b.proceedTo .checkedGrace) := by
  have checked : b.proceedTo .checkedGrace = { b with startup := .checkedGrace } := by
    simp only [proceedTo, lasts.unasked]
  rw [checked]
  constructor
  · exact .survived { lasts with } atEnd
  · exact nearer_of waits (Nat.lt_succ_self 4)

theorem reaches_judged (checked : b.startup = .checkedGrace) (ended : Ended b₀ b l e)
    (within : b.now ≤ b₀.graceEnd l) (unprobed : b.ports = none) : Reaches b₀ b b.judgeGrace := by
  have judged : b.judgeGrace = { b with
      running := false
      startup := .failed
        (if e.code = some b.settings.exitCodes.skip then b.skipped else b.endedEarly e) } := by
    simp only [judgeGrace, ended.seen]
    rfl
  rw [judged]
  constructor
  · exact .judged (.endedEarly (e := e) { ended with } within unprobed rfl)
  · exact nearer_of checked (Nat.zero_lt_succ 3)

/-! ## The wait for the port -/

/-- The wait for the port begins, unless it would be too long. -/
theorem reaches_probing (site : b.site = b₀.site) (checked : b.startup = .checkedGrace)
    (lasts : Lasts b₀ b l) (atEnd : b.now = b₀.graceEnd l) : Reaches b₀ b b.judgeGrace := by
  have settings : b.settings = b₀.settings := congrArg Site.settings site
  have timers : b.timers = b₀.timers := congrArg Site.timers site
  have port : b.world.port = b₀.world.port := congrArg Site.port site
  cases refused : b₀.timers.refusal? b₀.settings.readinessTimeout with
  | some x =>
    have judged : b.judgeGrace = b.failStart (.other x) := by
      simp only [judgeGrace, lasts.unseen, timers, settings, refused]
    rw [judged]
    constructor
    · exact .judged (.refused { lasts with } atEnd refused)
    · exact nearer_of checked (Nat.zero_lt_succ 3)
  | none =>
    have limit : b.now + b₀.timers.delay b₀.settings.readinessTimeout = b₀.readinessEnd l := by
      rw [atEnd]
      rfl
    have judged : b.judgeGrace = { b with
        startup := .probing, deadline := some (b₀.readinessEnd l)
        ports := some (.start b.timers b₀.world.port 100 b.now none) } := by
      rw [← limit, ← port]
      simp only [judgeGrace, lasts.unseen, timers, settings, refused]
    rw [judged]
    constructor
    · refine .waits (.probing { lasts with } rfl ?_ rfl (Nat.le_of_eq atEnd.symm) ?_)
      · rw [← atEnd]
        exact PortWait.polls_start b.timers (by decide)
      · rw [atEnd]
        exact Nat.le_add_right _ _
    · exact nearer_of checked (Nat.lt_succ_self 3)

/-- A wait that is broken off ends with an error. -/
theorem abortWait_polls (b : Bench) {w : PortWait} {answers : PortScript} {since : ℕ}
    (probes : b.startup = .probing) (unasked : b.stopping = .no) (port : b.ports = some w)
    (polls : w.Polls answers since b.now) (reason : AbortReason) : ∃ x w',
      w'.result? = some (.error x) ∧
      b.abortWait reason = { b with ports := some w', startup := .checkedUnready x } := by
  obtain ⟨x, aborted⟩ := polls.abort b.now reason
  refine ⟨x, w.abort b.now reason, aborted, ?_⟩
  simp only [abortWait, probes, port, Option.map_some, finishWait, Option.bind_some, aborted,
    proceedTo, unasked]

theorem not_connects {w : PortWait} (port : b.ports = some w)
    (result : w.result? = some (.error x)) : ¬b.Connects := by
  intro connects
  rw [Connects, port, Option.bind_some, result] at connects
  cases connects

/-- The program ends while its port is waited for. -/
theorem reaches_endedLate {w : PortWait} (probes : b.startup = .probing) (lasts : Lasts b₀ b l)
    (port : b.ports = some w) (polls : w.Polls b₀.world.port (b₀.graceEnd l) b.now)
    (own : (b₀.programAt l).report? = some (b.now, e)) (survived : b₀.graceEnd l ≤ b.now)
    (within : b.now ≤ b₀.readinessEnd l) : Reaches b₀ b (b.recordExit e) := by
  obtain ⟨notices, noted⟩ := exists_noteExit b e
  have quiet : (b.did (.sawExit e)).launched = b.launched := launched_did rfl
  have recorded : b.recordExit e = (b.noteExit e).abortWait .default := by
    rw [recordExit_eq, noted]
    simp only [did, probes]
  rw [recorded, noted]
  obtain ⟨x, w', failed, aborted⟩ := abortWait_polls
    { { b with exit := some e, program := b.program.map Job.finish }.did (.sawExit e) with
      notices := notices } probes lasts.unasked port polls .default
  rw [aborted]
  constructor
  · refine .endedLate ⟨⟨lasts.built, ?_, lasts.later⟩, ?_, own, rfl⟩ survived within
      (not_connects rfl failed) lasts.unasked
    · exact quiet.trans lasts.launched
    · show b.program.map _ = _
      rw [lasts.program, Option.map_some]
  · exact nearer_of probes (Nat.lt_succ_self 2)

/-- The time for the port is over. -/
theorem reaches_overdue {w : PortWait} (probes : b.startup = .probing) (lasts : Lasts b₀ b l)
    (port : b.ports = some w) (polls : w.Polls b₀.world.port (b₀.graceEnd l) b.now)
    (atEnd : b.now = b₀.readinessEnd l) :
    Reaches b₀ b ({ b with deadline := none }.abortWait .deadline) := by
  obtain ⟨x, w', failed, aborted⟩ :=
    abortWait_polls { b with deadline := none } probes lasts.unasked port polls .deadline
  rw [aborted]
  constructor
  · exact .overdue { lasts with } atEnd (not_connects rfl failed) rfl
  · exact nearer_of probes (Nat.lt_succ_self 2)

/-- A probe has its outcome, or a pause between two probes is over. -/
theorem reaches_answered {w : PortWait} (probes : b.startup = .probing) (lasts : Lasts b₀ b l)
    (port : b.ports = some w) (polls : w.Polls b₀.world.port (b₀.graceEnd l) b.now)
    (due : w.due? = some b.now) (limited : b.deadline = some (b₀.readinessEnd l))
    (survived : b₀.graceEnd l ≤ b.now) (within : b.now ≤ b₀.readinessEnd l) :
    Reaches b₀ b { b with ports := b.ports.map PortWait.proceed }.finishWait := by
  rcases PortWait.polls_proceed polls due within with connected | ⟨polls', nearer⟩
  · have ready : { b with ports := b.ports.map PortWait.proceed }.finishWait =
        { b with ports := some w.proceed, startup := .checkedReady } := by
      simp only [finishWait, probes, port, Option.map_some, Option.bind_some, connected.1, proceedTo,
        lasts.unasked]
    rw [ready]
    constructor
    · exact .connected { lasts with
        connected := ⟨_, rfl, connected⟩, limited := limited, within := within }
    · exact nearer_of probes (Nat.lt_succ_self 2)
  · have goesOn : { b with ports := b.ports.map PortWait.proceed }.finishWait =
        { b with ports := some w.proceed } := by
      simp only [finishWait, probes, port, Option.map_some, Option.bind_some, polls'.unsettled]
    rw [goesOn]
    constructor
    · show Stage b₀ _ b.startup
      rw [probes]
      exact .waits (.probing { lasts with } rfl polls' limited survived within)
    · right
      refine ⟨rfl, ?_⟩
      simp only [pending, probes, port, limited]
      exact nearer

theorem reaches_started (checked : b.startup = .checkedReady) (ready : Ready b₀ b l) :
    Reaches b₀ b { b with startup := .started } := by
  constructor
  · exact .judged (.ready { ready with })
  · exact nearer_of checked (Nat.zero_lt_succ 1)

/-! ## Giving up -/

theorem stop_held (unasked : b.stopping = .no) (held : b.running = true) : b.stop =
    { { b with
        running := false, killed := true
        program := b.program.map (Job.kill · b.now b.killDelay) }.did
        (.killed "SIGTERM" b.settings.killTimeout (b.program.any (Job.alive · b.now))) with
      stopping := .asked b.program.isSome } := by
  simp only [stop, unasked, held, if_true]

theorem stop_released (unasked : b.stopping = .no) (released : b.running = false) :
    b.stop = { b with stopping := .asked b.program.isSome } := by
  simp only [stop, unasked, released, Bool.false_eq_true, if_false]

/-- A program that has ended is not stopped any more. -/
theorem reaches_gaveUp (checked : b.startup = .checkedUnready x) (ended : Ended b₀ b l e)
    (survived : b₀.graceEnd l ≤ b.now) (within : b.now ≤ b₀.readinessEnd l)
    (unconnected : ¬b.Connects) (unasked : b.stopping = .no) :
    Reaches b₀ b { b.stop with startup := .givingUp x } := by
  have settled : ∀ {b' : Bench}, b'.stopping = .asked b.program.isSome → b'.exit = some e →
      b'.stopSettled = true := by
    intro b' asked seen
    rw [stopSettled_eq asked, seen, Option.isSome_some, Bool.or_true]
  have nearer : b.Nearer { b.stop with startup := .givingUp x } :=
    nearer_of checked (Nat.lt_succ_self 1)
  refine ⟨?_, nearer⟩
  cases held : b.running with
  | true =>
    rw [stop_held unasked held]
    have quiet : ∀ d : Deed, d.launch? = none → (b.did d).launched = [(l, b₀.programLine)] :=
      fun d other => (launched_did other).trans ended.launched
    refine .gaveUp (.endedLate (e := e) ⟨⟨ended.built, quiet _ rfl, ended.later⟩, ?_, ended.own,
      ended.seen⟩ survived within unconnected rfl) (settled rfl ended.seen)
    show b.program.map _ = _
    rw [ended.program]
    rfl
  | false =>
    rw [stop_released unasked held]
    exact .gaveUp (.endedLate (e := e) { ended with } survived within unconnected held)
      (settled rfl ended.seen)

/-- A program that goes on is killed. -/
theorem reaches_dying (site : b.site = b₀.site) (checked : b.startup = .checkedUnready x)
    (lasts : Lasts b₀ b l) (atEnd : b.now = b₀.readinessEnd l) (unconnected : ¬b.Connects)
    (unlimited : b.deadline = none) : Reaches b₀ b { b.stop with startup := .givingUp x } := by
  have settings : b.settings = b₀.settings := congrArg Site.settings site
  have timers : b.timers = b₀.timers := congrArg Site.timers site
  have killed : b.program.map (Job.kill · b.now b.killDelay) = some (b₀.killedProgram l) := by
    rw [lasts.program, Option.map_some, atEnd, killDelay, settings, timers]
    rfl
  obtain ⟨time, e, ending, -, first⟩ := Job.kill_cases lasts.unended (b₀.readinessEnd l) b₀.killDelay
  have reports : (b₀.killedProgram l).report? = some (time + (b₀.programAt l).held, e) := by
    rw [killedProgram, Job.report?_of_ending ending, Job.held_kill]
  have unended : (b₀.killedProgram l).ended = false := (Job.ended_kill ..).trans lasts.unended
  have ahead : b.now ≤ time + (b₀.programAt l).held := by
    rcases first with own | ⟨-, later⟩
    · exact lasts.ahead _ e (Job.report?_of_ending own)
    · rw [atEnd]
      exact Nat.le_add_right_of_le later
  have outlived : ∀ time e, (b₀.programAt l).report? = some (time, e) →
      b₀.readinessEnd l ≤ time := by
    intro time e own
    rw [← atEnd]
    exact lasts.ahead time e own
  rw [stop_held lasts.unasked lasts.held]
  constructor
  · refine .waits (.dying ⟨⟨lasts.built, (launched_did rfl).trans lasts.launched, lasts.later⟩,
      killed, unended, ⟨lasts.unended, outlived⟩, ⟨_, e, reports, ahead⟩, lasts.unseen, ?_, rfl,
      unlimited⟩ unconnected)
    show Stopping.asked b.program.isSome = _
    rw [lasts.program, Option.isSome_some]
  · exact nearer_of checked (Nat.lt_succ_self 1)

/-- The program that was killed ends. -/
theorem reaches_killed (waits : b.startup = .givingUp x) (dying : Dying b₀ b l)
    (ending : (b₀.killedProgram l).report? = some (b.now, e)) (unconnected : ¬b.Connects) :
    Reaches b₀ b (b.recordExit e) := by
  obtain ⟨notices, noted⟩ := exists_noteExit b e
  have quiet : (b.did (.sawExit e)).launched = b.launched := launched_did rfl
  have recorded : b.recordExit e = b.noteExit e := by
    rw [recordExit_eq, noted]
    simp only [did, waits, abortWait]
  rw [recorded, noted]
  constructor
  · show Stage b₀ _ b.startup
    rw [waits]
    refine .gaveUp (.killed (e := e) ⟨⟨dying.built, quiet.trans dying.launched, dying.later⟩, ?_,
      dying.outlived, ending, rfl⟩ unconnected dying.released) ?_
    · show b.program.map _ = _
      rw [dying.program, Option.map_some]
    · simp only [stopSettled, did, dying.awaited]
      rfl
  · right
    refine ⟨rfl, ?_⟩
    simp only [pending, did, waits, dying.unseen]
    exact Nat.zero_lt_one

theorem Verdict.startup {s s' : Startup} (h : Verdict b₀ b s) :
    Verdict b₀ { b with startup := s' } s := by
  cases h with
  | unmade broken unlaunched => exact .unmade broken { unlaunched with }
  | unbuilt ends unlaunched => exact .unbuilt ends { unlaunched with }
  | @endedEarly l e ended within unprobed released =>
    exact .endedEarly (e := e) { ended with } within unprobed released
  | @endedLate l e x ended survived within unconnected released =>
    exact .endedLate (e := e) { ended with } survived within unconnected released
  | @killed l e x killed unconnected released =>
    exact .killed (e := e) { killed with } unconnected released
  | refused lasts atEnd refused => exact .refused { lasts with } atEnd refused
  | ready ready => exact .ready { ready with }

theorem Verdict.startOver {s : Startup} (h : Verdict b₀ b s) (startup : b.startup = s) :
    b.StartOver := by
  cases h with
  | ready => exact .inl startup
  | _ => exact .inr ⟨_, startup⟩

theorem reaches_failed (waits : b.startup = .givingUp x)
    (verdict : Verdict b₀ b (.failed (b.judgeGivenUp x))) :
    Reaches b₀ b (b.failStart (b.judgeGivenUp x)) := by
  constructor
  · exact .judged verdict.startup
  · exact nearer_of waits (Nat.zero_lt_succ 0)

end Bench

end FilterBench
