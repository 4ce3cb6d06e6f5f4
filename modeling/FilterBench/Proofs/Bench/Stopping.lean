import FilterBench.Proofs.Bench.Course

/-!
# Stopping

Whenever a bench is asked to stop, nothing is launched from then on, the program is killed at most
once, and stopping is settled exactly when the end of the program, if there is one, has been
recorded; an end that was expected is recorded without being told. All of this is shown of courses
that go on from no `Gap`: a stop that falls between the check that allows the launch and the launch
itself finds no program to kill, and nothing keeps the program from being launched after it
(`Bench.launched_after_stop`).
-/
namespace FilterBench

namespace Custody

/-- A stop finds the program that was launched, and the end of one that was stopped is settled. -/
structure Stoppable (c : Custody) : Prop where
  idle : c.stopping ≠ .no → c.running = false
  awaited : ∀ w, c.stopping = .asked w → w = c.program.isSome
  owned : ∀ p, c.program = some p → c.exit = none → c.stopping = .no → c.running = true
  rejected : ∀ p, c.program = some p → c.exit = none → p.ended = true → p.ending.isSome = true
  due : ∀ p, c.program = some p → c.exit = none → c.stopping ≠ .no → p.ending.isSome = true

variable {c c' : Custody}

theorem Stoppable.stop (h : c.Stoppable) (now force : ℕ) : (c.stop now force).Stoppable := by
  rw [Custody.stop]
  split
  · exact h
  · rename_i unasked
    split
    · have ending : ∀ p, c.program.map (Job.kill · now force) = some p → c.exit = none →
          p.ending.isSome = true := by
        intro p program none
        obtain ⟨q, held, rfl⟩ := Option.map_eq_some_iff.1 program
        exact Job.ending_kill (h.rejected q held none) now force
      refine ⟨fun _ => rfl, ?_, ?_, ?_, ?_⟩
      · intro w asked
        cases asked
        show _ = (c.program.map _).isSome
        rw [Option.isSome_map]
      · intro p _ _ unasked
        cases unasked
      · exact fun p program none _ => ending p program none
      · exact fun p program none _ => ending p program none
    · -- Nothing is held: a program whose end is not recorded yet would still be owned.
      rename_i idle
      refine ⟨fun _ => Bool.eq_false_iff.2 idle, ?_, ?_, h.rejected, ?_⟩
      · intro w asked
        cases asked
        rfl
      · intro p _ _ unasked
        cases unasked
      · exact fun p program none _ => absurd (h.owned p program none unasked) idle

theorem Stoppable.see (h : c.Stoppable) (e : Exit) : (c.see e).Stoppable := by
  refine ⟨h.idle, ?_, ?_, ?_, ?_⟩
  · intro w asked
    rw [h.awaited w asked]
    show _ = (c.program.map _).isSome
    rw [Option.isSome_map]
  all_goals
    intro p _ none
    cases none

/-- One step keeps a custody stoppable, when nothing is launched after a stop. -/
theorem Step.stoppable (h : Step False c c') (stoppable : c.Stoppable) : c'.Stoppable := by
  cases h with
  | launches line p finish cleared allowed rejected =>
    -- Nobody has asked to stop, so that all but the rejection of the launch holds trivially.
    have unasked : c.stopping = .no := allowed.resolve_right id
    have asked : ∀ w, c.stopping ≠ .asked w := by simp [unasked]
    refine ⟨fun asked => absurd unasked asked, fun w eq => absurd eq (asked w), fun _ _ _ _ => rfl,
      ?_, fun _ _ _ asked => absurd unasked asked⟩
    rintro q ⟨⟩ -
    exact rejected
  | endsEarly e t waiting exit =>
    refine { stoppable with idle := fun _ => rfl, owned := ?_ }
    intro p _ unseen
    have unseen : c.exit = none := unseen
    rw [unseen] at exit
    cases exit
  | stops now force => exact stoppable.stop now force
  | sees p e _ _ => exact stoppable.see e
  | _ => exact { stoppable with }

theorem Steps.stoppable (h : Steps False c c') (stoppable : c.Stoppable) : c'.Stoppable := by
  induction h with
  | refl => exact stoppable
  | step _ step ih => exact step.stoppable ih

theorem Step.launches_of_asked (h : Step False c c') (asked : c.stopping ≠ .no) :
    c'.launches = c.launches := by
  cases h with
  | launches line p finish cleared allowed _ => exact absurd (allowed.resolve_right id) asked
  | stops now force =>
    rw [Custody.stop]
    split
    · rfl
    · rename_i unasked
      exact absurd unasked asked
  | _ => rfl

/-- Nothing is launched after a stop. -/
theorem Steps.launches_of_asked (h : Steps False c c') (valid : c.Valid) (asked : c.stopping ≠ .no) :
    c'.launches = c.launches := by
  induction h with
  | refl => rfl
  | step steps step ih =>
    refine (step.launches_of_asked ?_).trans ih
    cases stopping : c.stopping with
    | no => exact absurd stopping asked
    | asked w =>
      rw [(steps.later valid).asked w stopping]
      simp

end Custody

namespace Bench

variable {b b₀ b' : Bench} {e : Exit}

/-- A course that goes on from no gap. -/
inductive TimelyCourse : Bench → Bench → Prop
  | refl (b : Bench) : TimelyCourse b b
  | step {b b' b'' : Bench} : TimelyCourse b b' → ¬b'.Gap → Step b' b'' → TimelyCourse b b''

namespace TimelyCourse

theorem course (h : TimelyCourse b b') : Course b b' := by
  induction h with
  | refl => exact .refl _
  | step _ _ step ih => exact ih.step step

theorem custody (h : TimelyCourse b b') : Custody.Steps False b.custody b'.custody := by
  induction h with
  | refl => exact .refl _
  | step _ timely step ih => exact ih.trans (step.custody timely)

end TimelyCourse

theorem Fresh.stoppable (h : b.Fresh) : b.custody.Stoppable := by
  have program : b.custody.program = none := h.program
  have stopping : b.custody.stopping = .no := h.stopping
  refine ⟨fun asked => absurd stopping asked, ?_, ?_, ?_, ?_⟩
  · intro w asked
    rw [stopping] at asked
    cases asked
  all_goals
    intro p some
    rw [program] at some
    cases some

/-- The commands that launched a test program. -/
def launches (b : Bench) : List CommandLine := b.history.filterMap fun d => d.2.launch?

/-- What holds of a bench that was asked to stop. -/
structure Stopped (b : Bench) : Prop where
  /-- Asking again changes nothing, so that whoever asks waits for the same thing. -/
  final : b.stop = b
  idle : b.running = false
  /-- No program was launched but the one that the bench keeps. -/
  launched : b.launches.length = if b.program.isSome then 1 else 0
  /-- The program was killed once, if at all. -/
  killed : (b.history.filterMap fun d => d.2.kill?).length ≤ 1
  /-- Once stopping is settled, the program has ended, and its end was recorded and, unless it is an
  expected one, told. -/
  ended : b.stopSettled = true → ∀ p, b.program = some p → p.ended = true ∧
    ∃ e, b.exit = some e ∧ e ∈ b.history.filterMap (fun d => d.2.exit?) ∧
      (b.isExpected e = true ∨ .unexpectedExit e ∈ b.notices)
  /-- Until then, something is due that settles it. -/
  due : b.stopSettled = true ∨ ∃ b', Step b b' ∧ b'.stopSettled = true

theorem asked_of_settled (settled : b.stopSettled = true) : b.stopping ≠ .no := by
  intro unasked
  simp [stopSettled, unasked] at settled

theorem stopSettled_recordExit (valid : b.custody.Valid) {p : Job} (program : b.program = some p)
    (unseen : b.exit = none) (asked : b.stopping ≠ .no) (e : Exit) :
    (b.recordExit e).stopSettled = true := by
  have saw : (b.noteExit e).custody = b.custody.see e := custody_noteExit b e
  have valid' : (b.noteExit e).custody.Valid := by
    rw [saw]
    exact valid.see program unseen e
  have steps : Custody.Steps True (b.noteExit e).custody (b.recordExit e).custody :=
    steps_noteExit b e
  have later := steps.later valid'
  have exit : (b.recordExit e).exit = some e := later.exit e (by rw [saw]; rfl)
  obtain ⟨w, stopping⟩ := exists_asked asked
  have still : (b.recordExit e).stopping = .asked w := later.asked w (by rw [saw]; exact stopping)
  rw [stopSettled_eq still, exit, Option.isSome_some, Bool.or_true]

/-- A program that was launched, whose process is bound to end or has ended, and whose end was not
recorded yet: its end becomes known by itself, or is known. -/
theorem step_recordExit {p : Job} {time : ℕ} (program : b.program = some p) (unseen : b.exit = none)
    (reports : p.report? = some (time, e)) :
    ∃ now, Step b ({ b with now := now }.recordExit e) := by
  cases ended : p.ended with
  | true =>
    refine ⟨b.now, .sees ?_⟩
    simp [pendingExit?, unseen, program, ended, reports]
  | false =>
    have due : (time, Happening.programEnds) ∈ b.dues := by
      simp [dues, program, Job.due?, ended, reports]
    have ends : { b with now := max b.now time }.happen .programEnds =
        { b with now := max b.now time }.recordExit e := by
      simp [happen, program, reports]
    refine ⟨max b.now time, ?_⟩
    rw [← ends]
    exact .happens due

theorem due_of_asked (valid : b.custody.Valid) (stoppable : b.custody.Stoppable)
    (asked : b.stopping ≠ .no) :
    b.stopSettled = true ∨ ∃ b', Step b b' ∧ b'.stopSettled = true := by
  obtain ⟨w, stopping⟩ := exists_asked asked
  have awaited : w = b.program.isSome := stoppable.awaited w stopping
  rw [stopSettled_eq stopping, awaited]
  cases unseen : b.exit with
  | some e => exact .inl (Bool.or_true _)
  | none =>
    cases program : b.program with
    | none => exact .inl rfl
    | some p =>
      obtain ⟨⟨time, e⟩, ending⟩ :=
        Option.isSome_iff_exists.1 (stoppable.due p program unseen asked)
      obtain ⟨now, step⟩ := step_recordExit program unseen (Job.report?_of_ending ending)
      exact .inr ⟨_, step,
        stopSettled_recordExit (b := { b with now := now }) valid program unseen asked e⟩

theorem ended_of_settled (valid : b.custody.Valid) (stoppable : b.custody.Stoppable)
    (settled : b.stopSettled = true) {p : Job} (program : b.program = some p) :
    p.ended = true ∧ ∃ e, b.exit = some e ∧ e ∈ b.history.filterMap (fun d => d.2.exit?) ∧
      (b.isExpected e = true ∨ .unexpectedExit e ∈ b.notices) := by
  obtain ⟨w, stopping⟩ := exists_asked (asked_of_settled settled)
  have awaited : w = b.program.isSome := stoppable.awaited w stopping
  rw [stopSettled_eq stopping, awaited, program] at settled
  obtain ⟨e, exit⟩ := Option.isSome_iff_exists.1 (show b.exit.isSome = true from settled)
  obtain ⟨q, same, ended⟩ := valid.ended e exit
  have seen : b.custody.seen = b.exit.toList := valid.seen
  refine ⟨?_, e, exit, ?_, ?_⟩
  · obtain rfl : p = q := Option.some.inj (program.symm.trans same)
    exact ended
  · show e ∈ b.custody.seen
    rw [seen, exit]
    exact List.mem_singleton_self e
  · exact (valid.told e exit).imp_right fun told => mem_notices_of_told told.1

/-- A bench that was asked to stop, on a course that goes on from no gap: it is `Stopped` from then
on, nothing is launched any more, and stopping stays settled once it is. -/
theorem stopped_of_asked (fresh : b₀.Fresh) (before : TimelyCourse b₀ b) (asked : b.stopping ≠ .no)
    (after : TimelyCourse b b') :
    b'.Stopped ∧ b'.launches = b.launches ∧
      (b.stopSettled = true → b'.stopSettled = true) := by
  have valid := before.custody.valid fresh.valid
  have valid' := after.custody.valid valid
  have stoppable' := after.custody.stoppable (before.custody.stoppable fresh.stoppable)
  have later := after.custody.later valid
  obtain ⟨w, stopping⟩ := exists_asked asked
  have stopping' : b'.stopping = .asked w := later.asked w stopping
  have asked' : b'.stopping ≠ .no := by
    rw [stopping']
    simp
  have kills : b'.custody.kills.length ≤ 1 := by
    rw [valid'.kills]
    split <;> decide
  refine ⟨⟨?_, stoppable'.idle asked', valid'.launches, kills,
    fun settled p program => ended_of_settled valid' stoppable' settled program,
    due_of_asked valid' stoppable' asked'⟩, after.custody.launches_of_asked valid asked, ?_⟩
  · rw [stop, stopping']
  · rw [stopSettled_eq stopping, stopSettled_eq stopping']
    intro settled
    rcases Bool.or_eq_true_iff.1 settled with unawaited | recorded
    · rw [unawaited, Bool.true_or]
    · obtain ⟨e, exit⟩ := Option.isSome_iff_exists.1 recorded
      rw [show b'.exit = some e from later.exit e exit, Option.isSome_some, Bool.or_true]

/-- A bench without cases whose program heeds the signal of a stop. -/
def quietBench : Bench where
  settings := { startupGrace := 10 }
  world :=
    { builder := some {}, port := FilterPort.script { openAt := some 0 } 7044
      jobs := [{ onKill := some (20, { signal := some (some "SIGTERM") }) }] }

def quietStarted : Bench :=
  { quietBench with startup := .makingScratch }.did (.madeScratch quietBench.scratchDir)

/-- The build has ended, and its check has found that nobody asked to stop. -/
def quietBuilt : Bench := quietStarted.beginBuild.happen .buildEnds

theorem quietBench_fresh : quietBench.Fresh :=
  ⟨rfl, rfl, rfl, rfl, rfl, rfl, rfl, rfl, rfl, rfl⟩

theorem timely_quietBuilt : TimelyCourse quietBench quietBuilt := by
  have started : TimelyCourse quietBench quietStarted :=
    .step (.refl _) (fun gap => nomatch gap.1) (.starts rfl)
  have building : TimelyCourse quietBench quietStarted.beginBuild :=
    started.step (fun gap => nomatch gap.1) (.goesOn rfl)
  exact building.step (fun gap => nomatch gap.1)
    (.happens (List.mem_singleton_self (0, Happening.buildEnds)))

/-- A stop in the grace period, and the end of the program that it brings about. -/
theorem stopped_of_asked_quiet :
    quietBuilt.launch.stop.stopping ≠ .no ∧
      ({ quietBuilt.launch.stop with now := 20 }.happen .programEnds).Stopped ∧
      ({ quietBuilt.launch.stop with now := 20 }.happen .programEnds).launches.length = 1 := by
  have asked : quietBuilt.launch.stop.stopping ≠ .no := stopping_stop _
  have launched : TimelyCourse quietBench quietBuilt.launch :=
    timely_quietBuilt.step (fun gap => gap.2 rfl) (.goesOn rfl)
  have stopped : TimelyCourse quietBench quietBuilt.launch.stop :=
    launched.step (fun gap => nomatch gap.1) (.stops _)
  have ended : TimelyCourse quietBuilt.launch.stop
      ({ quietBuilt.launch.stop with now := 20 }.happen .programEnds) :=
    .step (.refl _) (fun gap => nomatch gap.1)
      (.happens (List.mem_cons_self (a := (20, Happening.programEnds))))
  obtain ⟨stands, launches, -⟩ := stopped_of_asked quietBench_fresh stopped asked ended
  refine ⟨asked, stands, ?_⟩
  rw [launches]
  rfl

/-- A stop in the gap is settled at once. The program is launched after it nevertheless, and goes on when
the start has failed because it was stopped; whoever asks to stop again does not reach it. -/
theorem launched_after_stop :
    quietBench.Fresh ∧ Course quietBench quietBuilt.stop ∧ quietBuilt.stop.stopSettled = true ∧
      quietBuilt.stop.launches = [] ∧
      ∃ b, Course quietBuilt.stop b ∧ b.startup = .failed b.stoppedWhileStarting ∧
        b.launches.length = 1 ∧ b.running = true ∧ b.program.any (Job.alive · b.now) = true ∧
        b.stop = b := by
  refine ⟨quietBench_fresh, timely_quietBuilt.course.step (.stops _), rfl, rfl,
    quietBuilt.stop.advance 50, course_advance _ 50, rfl, ?_, ?_, ?_, ?_⟩
  · decide +kernel
  · decide +kernel
  · decide +kernel
  · have asked : (quietBuilt.stop.advance 50).stopping = .asked false := by decide +kernel
    rw [stop, asked]

end Bench

end FilterBench
