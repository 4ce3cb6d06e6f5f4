import FilterBench.Proofs.Bench.Completion
import FilterBench.Proofs.Bench.Fleet

/-!
# The output of a program is told once

The output of the test program is told at the moment at which its end is recorded, or never. Every move
records that end or leaves what was told of the output as it is (`Move.hushed`), so that a run tells
the output once at most, as it is judged at one moment (`During.judged`). What becomes of the cases later
does not count. After a stop there is nothing later, since no case fails any more (`Ordered.unfailing`);
but a program that ends by itself, with a code that excuses its end, is judged before the cases are
(`output_dumped_once`, `late_failure_undumped`).
-/
namespace FilterBench

def Notice.isDump : Notice → Bool
  | .outputDump _ _ => true
  | _ => false

namespace Bench

variable {b b₀ b₁ b' b'' : Bench} {e : Exit} {i : ℕ}

/-- What was told of the output of the program. -/
def dumps (b : Bench) : List Notice := b.notices.filter Notice.isDump

/-- What is told of the output when the end of the program is recorded. -/
def dumpOf (b : Bench) (e : Exit) : List Notice :=
  if b.isExpected e && !b.standing.failed then [] else [.outputDump b.path e.output]

/-- Nothing is told of the output, and no end of the program is recorded. -/
structure Hushed (b b' : Bench) : Prop where
  path : b'.path = b.path
  exit : b'.exit = b.exit
  dumps : b'.dumps = b.dumps

theorem Hushed.refl (b : Bench) : b.Hushed b := ⟨rfl, rfl, rfl⟩

theorem Hushed.trans (h : b.Hushed b') (h' : b'.Hushed b'') : b.Hushed b'' :=
  ⟨h'.path.trans h.path, h'.exit.trans h.exit, h'.dumps.trans h.dumps⟩

theorem hushed_tell {n : Notice} (other : n.isDump = false) : b.Hushed (b.tell n) :=
  ⟨rfl, rfl, by simp [dumps, tell, other]⟩

theorem hushed_stop (b : Bench) : b.Hushed b.stop := by
  unfold stop
  split
  · exact .refl b
  · split <;> exact ⟨rfl, rfl, rfl⟩

/-! ## What the start does -/

theorem hushed_proceedTo (b : Bench) (next : Startup) : b.Hushed (b.proceedTo next) := by
  unfold proceedTo
  split <;> exact ⟨rfl, rfl, rfl⟩

theorem hushed_finishBuild (b : Bench) (result : Except Thrown Unit) :
    b.Hushed (b.finishBuild result) := by
  unfold finishBuild
  split
  · exact ⟨rfl, rfl, rfl⟩
  · exact hushed_proceedTo b _

theorem hushed_beginBuild (b : Bench) : b.Hushed b.beginBuild := by
  unfold beginBuild
  split
  · exact ⟨rfl, rfl, rfl⟩
  · simp only []
    split <;> exact ⟨rfl, rfl, rfl⟩

theorem hushed_judgeGrace (b : Bench) : b.Hushed b.judgeGrace := by
  obtain ⟨_, _, _, _, judged⟩ := exists_judgeGrace b
  rw [judged]
  exact ⟨rfl, rfl, rfl⟩

theorem hushed_finishWait (b : Bench) : b.Hushed b.finishWait := by
  unfold finishWait
  split
  · exact hushed_proceedTo b _
  · exact hushed_proceedTo b _
  · exact .refl b

theorem hushed_abortWait (b : Bench) (reason : AbortReason) : b.Hushed (b.abortWait reason) := by
  unfold abortWait
  split
  · have aborted : b.Hushed { b with ports := b.ports.map (PortWait.abort · b.now reason) } :=
      ⟨rfl, rfl, rfl⟩
    exact aborted.trans (hushed_finishWait _)
  · exact .refl b

theorem hushed_resumeStart (h : b.resumeStart? = some b') : b.Hushed b' := by
  cases StartMove.of_resume h with
  | builds => exact hushed_beginBuild b
  | built => exact hushed_finishBuild b _
  | judges => exact hushed_judgeGrace b
  | givesUp => exact (hushed_stop b).trans ⟨rfl, rfl, rfl⟩
  | _ => exact ⟨rfl, rfl, rfl⟩

/-- The end of the program is judged once, as the bench is before it is recorded. -/
theorem dumps_recordExit (b : Bench) (e : Exit) : (b.recordExit e).path = b.path ∧
    (b.recordExit e).exit = some e ∧ (b.recordExit e).dumps = b.dumps ++ b.dumpOf e := by
  have judged : ({ b with exit := some e, program := b.program.map Job.finish }.did
      (.sawExit e)).isExpected e = b.isExpected e := rfl
  have noted : (b.noteExit e).path = b.path ∧ (b.noteExit e).exit = some e ∧
      (b.noteExit e).dumps = b.dumps ++ b.dumpOf e := by
    unfold noteExit dumpOf
    simp only [judged]
    cases b.isExpected e <;> cases failed : b.standing.failed <;>
      simp [did, tell, failed, dumps, Notice.isDump, List.filter_cons]
  have hushed : (b.noteExit e).Hushed (b.recordExit e) := by
    rw [recordExit_eq]
    split
    · exact hushed_proceedTo _ _
    · exact hushed_abortWait _ _
  exact ⟨hushed.path.trans noted.1, hushed.exit.trans noted.2.1, hushed.dumps.trans noted.2.2⟩

/-! ## What the run does -/

theorem hushed_mark {m : Mark} (h : b.mark i m = .ok b') : b.Hushed b' := by
  unfold mark at h
  split at h
  · cases h
  · cases h
    exact ⟨rfl, rfl, rfl⟩

theorem hushed_markTold {m : Mark} {message : String} (h : b.markTold i m message = .ok b') :
    b.Hushed b' := by
  obtain ⟨c, marked, told⟩ := ok_of_bind_eq_ok h
  cases told
  exact (hushed_mark marked).trans (hushed_tell rfl)

theorem hushed_markFailed {message : String} (h : b.markFailed i message = .ok b') :
    b.Hushed b' := by
  obtain ⟨c, marked, told⟩ := ok_of_bind_eq_ok h
  split at told
  · cases told
    exact hushed_mark marked
  · cases told
    exact (hushed_mark marked).trans ((hushed_tell rfl).trans (hushed_tell rfl))

theorem hushed_conclude {ending : Ending} (h : b.conclude i ending = .ok b') : b.Hushed b' := by
  unfold conclude at h
  split at h
  · cases h
    exact .refl b
  · split at h
    · exact hushed_markFailed h
    · obtain ⟨e, -, told⟩ := ok_of_bind_eq_ok h
      split at told
      · exact hushed_markTold told
      · exact hushed_markTold told
      · exact hushed_markFailed told

theorem hushed_closeRun (b : Bench) (result : Except Thrown Unit) : b.Hushed (b.closeRun result) :=
  (hushed_stop b).trans ⟨rfl, rfl, rfl⟩

theorem hushed_playCase (b : Bench) (i : ℕ) : b.Hushed (b.playCase i) := by
  unfold playCase
  split
  · exact hushed_closeRun b _
  · exact ⟨rfl, rfl, rfl⟩

theorem hushed_finishSession (b : Bench) (i : ℕ) (s : OpenSession) :
    b.Hushed (b.finishSession i s) := by
  unfold finishSession
  split
  · exact ⟨rfl, rfl, rfl⟩
  · have ended : b.Hushed ({ b with session := none }.did .disconnected) := ⟨rfl, rfl, rfl⟩
    simp only []
    split
    · exact ended.trans (hushed_closeRun _ _)
    · rename_i concluded
      exact ended.trans ((hushed_conclude concluded).trans (hushed_playCase _ _))

/-- To skip cases tells nothing of the output, and fails no case. -/
theorem hushed_skipCases (b : Bench) (i : ℕ) (cases : List Case) :
    b.Hushed (b.skipCases i cases).1 ∧
      (b.skipCases i cases).1.standing.failed = b.standing.failed := by
  induction cases generalizing b i with
  | nil => exact ⟨.refl b, rfl⟩
  | cons c rest ih =>
    unfold skipCases
    split
    · exact ⟨.refl b, rfl⟩
    · rename_i b' told
      have unfailed : b'.standing.failed = b.standing.failed := by
        cases present : b.standing.cases[i]? with
        | none =>
          simp only [markTold, mark, Standing.mark, present] at told
          cases told
          rfl
        | some c =>
          obtain ⟨-, notices, rfl⟩ := markTold_ok present told
          exact Bool.or_false _
      obtain ⟨hushed, same⟩ := ih b' (i + 1)
      exact ⟨(hushed_markTold told).trans hushed, same.trans unfailed⟩

theorem hushed_startFailed (b : Bench) (t : Thrown) : b.Hushed (b.startFailed t) ∧
    (b.startFailed t).standing.failed = b.standing.failed := by
  unfold startFailed
  split
  · obtain ⟨skipped, same⟩ := hushed_skipCases (b.tell .skipRequested) 0 b.standing.cases
    have told : b.Hushed (b.tell .skipRequested) := hushed_tell rfl
    simp only []
    split
    all_goals
      rename_i eq
      have eq : (b.tell .skipRequested).skipCases 0 b.standing.cases = _ := eq
      rw [eq] at skipped same
      exact ⟨(told.trans skipped).trans ⟨rfl, rfl, rfl⟩, same⟩
  · have told : b.Hushed (b.tell (.startFailed t)) := hushed_tell rfl
    obtain ⟨ledger, -⟩ := stop_aside (b.tell (.startFailed t))
    exact ⟨told.trans ((hushed_stop _).trans ⟨rfl, rfl, rfl⟩),
      congrArg (fun l => l.standing.failed) ledger⟩

theorem hushed_resumeRun (h : b.resumeRun? = some b') : b.Hushed b' := by
  cases RunMove.of_resume h with
  | refused => exact (hushed_startFailed b _).1
  | begins => exact hushed_playCase b 0
  | fails => exact (hushed_startFailed b _).1
  | plays => exact hushed_finishSession b _ _
  | _ => exact ⟨rfl, rfl, rfl⟩

/-! ## What a move does -/

/-- A move records the end of the program, which was not recorded before, or it tells nothing of the
output. -/
theorem Move.hushed (move : Move b b') (valid : b.custody.Valid) : b.Hushed b' ∨
    ∃ now p e, b.program = some p ∧ b.exit = none ∧
      b' = ({ b with now := now } : Bench).recordExit e := by
  cases move with
  | sees pending =>
    unfold pendingExit? at pending
    split at pending
    · rename_i p unseen program
      exact .inr ⟨b.now, p, _, program, unseen, rfl⟩
    · cases pending
  | goesOn resumed => exact .inl (hushed_resumeStart resumed)
  | playsOn resumed => exact .inl (hushed_resumeRun resumed)
  | @happens time h due =>
    have waited : b.Hushed { b with now := max b.now time } := ⟨rfl, rfl, rfl⟩
    cases h with
    | buildEnds =>
      simp only [happen]
      split
      · exact .inl (waited.trans (hushed_finishBuild _ _))
      · exact .inl waited
    | programEnds =>
      obtain ⟨p, program, going⟩ := due_programEnds due
      obtain ⟨e, -, happens⟩ := due_end (b := { b with now := max b.now time }) program due
      exact .inr ⟨_, p, e, program, valid.unseen program (.inr going), happens⟩
    | graceEnds => exact .inl (waited.trans (hushed_proceedTo _ _))
    | deadlinePasses =>
      have passed : b.Hushed { b with now := max b.now time, deadline := none } := ⟨rfl, rfl, rfl⟩
      exact .inl (passed.trans (hushed_abortWait _ _))
    | portAnswers =>
      have answered : b.Hushed
          { b with now := max b.now time, ports := b.ports.map PortWait.proceed } := ⟨rfl, rfl, rfl⟩
      exact .inl (answered.trans (hushed_finishWait _))
    | sessionEnds =>
      simp only [happen]
      split
      · exact .inl (waited.trans (hushed_finishSession _ _ _))
      · exact .inl waited
  | waits => exact .inl ⟨rfl, rfl, rfl⟩

theorem failed_aside (aside : b.Aside b') : b'.standing.failed = b.standing.failed :=
  congrArg (fun l => l.standing.failed) aside.ledger

/-- Once somebody has asked to stop, no case fails any more. -/
theorem Ordered.unfailing (fresh : b₀.Fresh) (h : Ordered b₀ b) (asked : b.stopping ≠ .no)
    (move : Move b b') : b'.standing.failed = b.standing.failed := by
  have paced := h.paced
  rcases move.sorts with side | resumed | ⟨i, s, now, run, session, rfl⟩
  · exact failed_aside (side.apart (h.valid fresh) (h.stoppable fresh)).toAside
  · cases RunMove.of_resume resumed with
    | refused => exact (hushed_startFailed b _).2
    | begins run started =>
      rw [run] at paced
      cases paced with
      | starting _ _ sofar =>
        rcases sofar with untouched | fruitless
        · exact absurd untouched.unasked asked
        · exact absurd started fruitless.unstarted
    | fails => exact (hushed_startFailed b _).2
    | plays run =>
      rw [run] at paced
      cases paced with
      | playing engaged => exact absurd engaged.unasked asked
    | _ => rfl
  · rw [run] at paced
    cases paced with
    | playing engaged => exact absurd engaged.unasked asked

/-! ## What a run does -/

/-- The end of the program was recorded at a moment of the run, and the output was told then, if it had
to be. Neither has changed since. -/
structure Judged (b₀ b₁ b : Bench) (e : Exit) : Prop where
  before : During b₀ b₁
  unseen : b₁.exit = none
  after : Course (b₁.recordExit e) b
  seen : b.exit = some e
  dumps : b.dumps = b₁.dumpOf e
  kept : b₁.standing.failed = true → b.standing.failed = true
  final : b₁.stopping ≠ .no → b.stopping ≠ .no ∧ b.standing.failed = b₁.standing.failed

theorem judged_recordExit {p : Job} (fresh : b₀.Fresh) (during : During b₀ b)
    (program : b.program = some p) (unseen : b.exit = none) (silent : b.dumps = []) (e : Exit) :
    Judged b₀ b (b.recordExit e) e where
  before := during
  unseen := unseen
  after := .refl _
  seen := (dumps_recordExit b e).2.1
  dumps := by
    rw [(dumps_recordExit b e).2.2, silent, List.nil_append]
  kept failed := (failed_aside (aside_recordExit b e)).trans failed
  final asked := by
    have steps : Custody.Steps False b.custody (b.recordExit e).custody :=
      steps_recordExit program (.inl unseen) e
    exact ⟨asked_of_steps steps ((during.ordered fresh).valid fresh) asked,
      failed_aside (aside_recordExit b e)⟩

theorem Judged.move (fresh : b₀.Fresh) (h : Judged b₀ b₁ b e) (ordered : Ordered b₀ b)
    (hushed : b.Hushed b') (move : Move b b') : Judged b₀ b₁ b' e where
  before := h.before
  unseen := h.unseen
  after := h.after.step move.step
  seen := hushed.exit.trans h.seen
  dumps := hushed.dumps.trans h.dumps
  kept failed := by
    obtain ⟨fails, same, -⟩ := move.marks.counted
    rw [same, h.kept failed, Bool.true_or]
  final asked₁ := by
    obtain ⟨asked, same⟩ := h.final asked₁
    have steps := move.step.custody ordered.ungapped
    exact ⟨asked_of_steps steps (ordered.valid fresh) asked,
      (ordered.unfailing fresh asked move).trans same⟩

/-- A run has told nothing of the output before it records the end of the program, and has told it since
as it was judged at that moment. -/
theorem During.judged (fresh : b₀.Fresh) (h : During b₀ b) : b.path = b₀.path ∧
    (b.exit = none ∧ b.dumps = [] ∨ ∃ b₁ e, Judged b₀ b₁ b e) := by
  induction h with
  | begins =>
    rw [beginRun_eq fresh]
    refine ⟨rfl, .inl ⟨fresh.exit, ?_⟩⟩
    show b₀.notices.filter _ = []
    rw [fresh.notices, List.filter_nil]
  | @moves b b' before going move ih =>
    obtain ⟨path, sofar⟩ := ih
    have ordered := before.ordered fresh
    rcases move.hushed (ordered.valid fresh) with hushed | ⟨now, p, e, program, unseen, rfl⟩
    · refine ⟨hushed.path.trans path, ?_⟩
      rcases sofar with ⟨unseen, silent⟩ | ⟨b₁, e, judged⟩
      · exact .inl ⟨hushed.exit.trans unseen, hushed.dumps.trans silent⟩
      · exact .inr ⟨b₁, e, judged.move fresh ordered hushed move⟩
    · refine ⟨(dumps_recordExit _ e).1.trans path, ?_⟩
      rcases sofar with ⟨-, silent⟩ | ⟨b₁, e', judged⟩
      · have waited : During b₀ { b with now := now } := before.moves going (.waits b now)
        exact .inr ⟨_, e, judged_recordExit fresh waited program unseen silent e⟩
      · cases judged.seen.symm.trans unseen

/-! ## The end of a run -/

theorem going_playCase (b : Bench) (i : ℕ) : (b.playCase i).isOver = false := by
  unfold playCase
  split <;> rfl

theorem going_finishSession (run : b.run = .playing i) (s : OpenSession) :
    (b.finishSession i s).isOver = false := by
  unfold finishSession
  split
  · show b.isOver = false
    rw [isOver, run]
  · simp only []
    split
    · rfl
    · exact going_playCase _ _

theorem idle_resumeRun (fresh : b₀.Fresh) (h : Ordered b₀ b) (resumed : b.resumeRun? = some b')
    (atEnd : b'.isOver = true) : b'.custody.Idle := by
  have paced := h.paced
  have settled : b.stopSettled = true → b.custody.Idle :=
    idle_of_settled (h.stoppable fresh) paced.prompt
  cases RunMove.of_resume resumed with
  | refused run =>
    rw [run] at paced
    cases paced
  | begins =>
    rw [going_playCase] at atEnd
    cases atEnd
  | @fails t run failed =>
    rw [run] at paced
    cases paced with
    | starting _ tidy _ =>
      have steps : Custody.Steps False b.custody (b.startFailed t).custody := steps_startFailed b t
      cases skip : t.isSkip with
      | true => exact steps.idle (tidy t failed skip)
      | false =>
        -- Whoever runs the cases stops the program first.
        rw [startFailed_of_fault skip] at atEnd
        cases atEnd
  | plays run =>
    rw [going_finishSession run] at atEnd
    cases atEnd
  | aborts _ stopped | breaks _ stopped | closes _ stopped =>
    have idle := settled stopped
    exact ⟨idle.decided, idle.released, idle.ended⟩

/-- A run that is over has left no program running. -/
theorem During.idle (fresh : b₀.Fresh) (h : During b₀ b) (atEnd : b.isOver = true) :
    b.custody.Idle := by
  cases h with
  | begins =>
    rw [beginRun_eq fresh] at atEnd
    cases atEnd
  | @moves b b' before going move =>
    have ordered := before.ordered fresh
    rcases move.sorts with side | resumed | ⟨i, s, now, run, session, rfl⟩
    · have same := (side.apart (ordered.valid fresh) (ordered.stoppable fresh)).run
      rw [isOver, same] at atEnd
      cases going.symm.trans atEnd
    · exact idle_resumeRun fresh ordered resumed atEnd
    · rw [going_finishSession (b := { b with now := now }) run] at atEnd
      cases atEnd

/-! ## What is shown of the output -/

/-- A case has failed. -/
def HasFailed (b : Bench) : Prop := some .failed ∈ b.standing.states

instance (b : Bench) : Decidable b.HasFailed := inferInstanceAs (Decidable (some _ ∈ _))

/-- The flag of the directory still tells whether a case has failed. -/
theorem Marks.honest (h : b.Marks b') (honest : b.standing.Honest) : b'.standing.Honest := by
  obtain ⟨fails, failed, -, lost⟩ := h.counted
  have before : b.standing.failed = true ↔ some .failed ∈ b.standing.states := honest
  rw [Standing.Honest, failed, lost, Bool.or_eq_true, before]

theorem During.honest (honest : b₀.standing.Honest) (h : During b₀ b) : b.standing.Honest := by
  induction h with
  | begins => exact (Onward.runs (b := b₀)).marks.honest honest
  | moves _ _ move ih => exact move.marks.honest ih

/-- What a logger shows of what was told of the output. -/
def dirRecords (t : Threshold) (b : Bench) : List Record :=
  (b.dumps.map Notice.record).filter fun r => t.shows r.level

/-- The record of the output that the program has ended with. -/
def dirRecord (b : Bench) (e : Exit) : Record :=
  { level := .debug, message := "DIR " ++ b.path ++ "\n" ++ e.output }

/-- The program had ended by itself, with a code that excuses its end, when the first case failed. -/
def FailsLate (b₁ b : Bench) (e : Exit) : Prop :=
  b₁.stopping = .no ∧
    (e.code = some b₁.settings.exitCodes.clean ∨ e.code = some b₁.settings.exitCodes.skip) ∧
    ¬b₁.HasFailed ∧ b.HasFailed

/-- Before a stop only the code of an end excuses it. -/
theorem isExpected_of_unasked (valid : b.custody.Valid) (unasked : b.stopping = .no) :
    b.isExpected e = true ↔
      e.code = some b.settings.exitCodes.clean ∨ e.code = some b.settings.exitCodes.skip := by
  have unkilled : b.killed = false := valid.unkilled unasked
  simp [isExpected, unkilled]

/-- What is shown of the output once it was judged. -/
theorem Judged.shown {t : Threshold} (h : Judged b₀ b₁ b e) (path : b₁.path = b₀.path)
    (honest : b₁.standing.Honest) (debug : t.shows .debug = true) : b.dirRecords t =
      if b₁.isExpected e = false ∨ b₁.HasFailed then [b₀.dirRecord e] else [] := by
  have failed : b₁.standing.failed = true ↔ b₁.HasFailed := honest
  rw [dirRecords, h.dumps, dumpOf, path]
  by_cases reason : b₁.isExpected e = false ∨ b₁.HasFailed
  · have loud : ¬(b₁.isExpected e && !b₁.standing.failed) = true := by
      rcases reason with unexpected | lost
      · simp [unexpected]
      · simp [failed.2 lost]
    rw [if_pos reason, if_neg loud]
    simp [Notice.record, dirRecord, debug]
  · obtain ⟨expected, unfailed⟩ := not_or.1 reason
    have quiet : (b₁.isExpected e && !b₁.standing.failed) = true := by
      simp [Bool.of_not_eq_false expected, mt failed.1 unfailed]
    rw [if_neg reason, if_pos quiet]
    rfl

/-- What is shown of the output agrees with the cases as they stand at the end of the run, unless one
failed late. -/
theorem Judged.shown_iff {t : Threshold} (h : Judged b₀ b₁ b e) (valid : b₁.custody.Valid)
    (path : b₁.path = b₀.path) (honest₁ : b₁.standing.Honest) (honest : b.standing.Honest)
    (debug : t.shows .debug = true) : b.dirRecords t =
      (if b₁.isExpected e = false ∨ b.HasFailed then [b₀.dirRecord e] else []) ↔
        ¬FailsLate b₁ b e := by
  have failed₁ : b₁.standing.failed = true ↔ b₁.HasFailed := honest₁
  have failed : b.standing.failed = true ↔ b.HasFailed := honest
  have kept : b₁.HasFailed → b.HasFailed := fun lost => failed.1 (h.kept (failed₁.2 lost))
  have final : b₁.stopping ≠ .no → b.HasFailed → b₁.HasFailed := by
    intro asked lost
    rw [← failed₁, ← (h.final asked).2]
    exact failed.2 lost
  rw [h.shown path honest₁ debug]
  constructor
  · rintro same ⟨unasked, code, unfailed, lost⟩
    have expected := (isExpected_of_unasked valid unasked).2 code
    simp [expected, unfailed, lost] at same
  · intro timely
    by_cases expected : b₁.isExpected e = true
    · have agree : b₁.HasFailed ↔ b.HasFailed := by
        refine ⟨kept, fun lost => ?_⟩
        by_cases unasked : b₁.stopping = .no
        · have code := (isExpected_of_unasked valid unasked).1 expected
          exact not_not.1 fun unfailed => timely ⟨unasked, code, unfailed, lost⟩
        · exact final unasked lost
      simp only [agree]
    · simp [expected]

/-- When a run is over that has launched the test program, the end of the program was recorded at one
moment of it, and what the program has printed is shown once, if the end was not expected or a case had
failed by then, or else never. The cases that fail later make no difference, unless the program has ended
by itself, with a code that excuses its end, before the first of them failed. -/
theorem output_dumped_once {t : Threshold} {outcome : Except Thrown RunOutcome} (fresh : b₀.Fresh)
    (honest : b₀.standing.Honest) (debug : t.shows .debug = true) (during : During b₀ b)
    (launched : b.program ≠ none) (atEnd : b.run = .finished outcome) :
    ∃ b₁ e, During b₀ b₁ ∧ b₁.exit = none ∧ Course (b₁.recordExit e) b ∧ b.exit = some e ∧
      b.dirRecords t =
        (if b₁.isExpected e = false ∨ b₁.HasFailed then [b₀.dirRecord e] else []) ∧
      (b.dirRecords t =
        (if b₁.isExpected e = false ∨ b.HasFailed then [b₀.dirRecord e] else []) ↔
          ¬FailsLate b₁ b e) := by
  have idle := during.idle fresh (by rw [isOver, atEnd])
  have seen : b.exit.isSome = true := idle.ended.resolve_left launched
  obtain ⟨-, ⟨unseen, -⟩ | ⟨b₁, e, judged⟩⟩ := during.judged fresh
  · rw [unseen] at seen
    cases seen
  · have path := (judged.before.judged fresh).1
    have valid := (judged.before.ordered fresh).valid fresh
    have honest₁ := judged.before.honest honest
    exact ⟨b₁, e, judged.before, judged.unseen, judged.after, judged.seen,
      judged.shown path honest₁ debug,
      judged.shown_iff valid path honest₁ (during.honest honest) debug⟩

/-- The case that fails does so before the program is stopped. -/
theorem output_dumped_once_pair : pairBench.runCases.HasFailed ∧
    pairBench.runCases.dirRecords (.from .debug) =
      [{ level := .debug, message := "DIR /src/tests/basic\n" }] := by
  have untried := pairBench_untried
  obtain ⟨outcome, atEnd⟩ := finished_of_isOver
    (show pairBench.runCases.isOver = true by decide +kernel)
  have exit : pairBench.runCases.exit = some ⟨none, some "SIGTERM", "", none, false⟩ := by
    decide +kernel
  have failed : pairBench.runCases.HasFailed := by decide +kernel
  obtain ⟨b₁, e, -, -, -, seen, -, told⟩ := output_dumped_once untried.toFresh
    (Standing.honest_of_ready untried.unfailed untried.ready)
    (show (Threshold.from .debug).shows .debug = true by decide) (during_runCases untried)
    (show pairBench.runCases.program ≠ none by decide +kernel) atEnd
  obtain rfl : _ = e := Option.some.inj (exit.symm.trans seen)
  have timely : ¬FailsLate b₁ pairBench.runCases ⟨none, some "SIGTERM", "", none, false⟩ := by
    rintro ⟨-, clean | skip, -⟩
    · cases clean
    · cases skip
  exact ⟨failed, (told.2 timely).trans (if_pos (.inr failed))⟩

/-- A bench whose program ends by itself, as a clean one does, while its only case is played, which then
fails. -/
def hastyBench : Bench where
  settings := { startupGrace := 10 }
  world :=
    { builder := some {}, port := FilterPort.script { openAt := some 0 } 7044
      jobs := [{ output := "bye", exitAfter := some 500 }]
      peers :=
        [{ turns := [[.waits 900, .sends (Utf8.encode "220 hi\r\n")],
            [.sends (Utf8.encode "550 no\r\n")]] }] }
  standing := ({} : Standing).add "/src/tests/basic/welcome.yaml" [.helo "me"]
    (DecisionPattern.expectation { code := 250 })

theorem hastyBench_untried : hastyBench.Untried where
  toFresh := ⟨rfl, rfl, rfl, rfl, rfl, rfl, rfl, rfl, rfl, rfl⟩
  ready := by simp [hastyBench, Standing.add]
  unfailed := rfl
  unflagged := rfl
  unreported := rfl

/-- What the program has printed is never shown, although a case has failed. -/
theorem late_failure_undumped : During hastyBench hastyBench.runCases ∧
    hastyBench.runCases.status? = some .failed ∧
    hastyBench.runCases.exit = some ⟨some 0, none, "bye", none, false⟩ ∧
    hastyBench.runCases.HasFailed ∧
    hastyBench.runCases.dirRecords (.from .debug) = [] := by
  refine ⟨during_runCases hastyBench_untried, ?_, ?_, ?_, List.eq_nil_of_length_eq_zero ?_⟩
  all_goals decide +kernel

end Bench

end FilterBench
