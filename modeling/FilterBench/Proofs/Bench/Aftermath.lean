import FilterBench.Proofs.Bench.Stopping

/-!
# What a start leaves behind

A start that was skipped has left nothing running: its program has ended, and this was recorded.
There are two ways for this. The program ended in the grace period and was let go; or somebody asked
to stop and the start waited until that was settled, as one does that gives up the wait for the port.
A start that fails in another way has left nothing running either, unless no deadline could be set for
the wait: whoever runs the cases stops the program then.
-/
namespace FilterBench

namespace Custody

/-- The start has succeeded, or nothing is launched any more. -/
def Decided (c : Custody) : Prop := c.startup.phase = .ready ∨ c.startup.phase = .closed

/-- No program is held, and none goes on. -/
structure Idle (c : Custody) : Prop where
  decided : c.Decided
  released : c.running = false
  ended : c.program = none ∨ c.exit.isSome = true

/-- A start that was skipped has left nothing running. -/
def Tidy (c : Custody) : Prop := ∀ t, c.startup = .failed t → t.isSkip = true → c.Idle

variable {lax : Prop} {c c' : Custody}

theorem Decided.not (h : c.Decided) {p : Phase} (phase : c.startup.phase = p) :
    p = .ready ∨ p = .closed := by
  rw [← phase]
  exact h

theorem Step.decided (h : Step lax c c') (decided : c.Decided) : c'.Decided := by
  cases h with
  | prepares s preparing _ => simpa using decided.not preparing
  | clears preparing _ => simpa using decided.not preparing
  | launches line p finish cleared _ _ => simpa using decided.not cleared
  | goesOn s waiting _ => simpa using decided.not waiting
  | endsEarly e t waiting _ => exact .inr rfl
  | abandons t waiting => exact .inr rfl
  | givesUp s _ _ closed => exact .inr closed
  | rests s _ closed => exact .inr closed
  | stops now force =>
    rw [Custody.stop]
    split
    · exact decided
    · split <;> exact decided
  | _ => exact decided

theorem Step.idle (h : Step lax c c') (idle : c.Idle) : c'.Idle := by
  have decided := h.decided idle.decided
  cases h with
  | launches line p finish cleared _ _ => simpa using idle.decided.not cleared
  | endsEarly e t waiting _ => simpa using idle.decided.not waiting
  | stops now force =>
    rw [Custody.stop]
    split
    · exact idle
    · split
      · rename_i held
        rw [idle.released] at held
        cases held
      · exact { idle with }
  | sees p e _ _ => exact ⟨decided, idle.released, .inr rfl⟩
  | _ => exact ⟨decided, idle.released, idle.ended⟩

theorem Steps.decided (h : Steps lax c c') (decided : c.Decided) : c'.Decided := by
  induction h with
  | refl => exact decided
  | step _ step ih => exact step.decided ih

theorem Steps.idle (h : Steps lax c c') (idle : c.Idle) : c'.Idle := by
  induction h with
  | refl => exact idle
  | step _ step ih => exact step.idle ih

end Custody

namespace Bench

/-- The start has succeeded or failed. -/
def StartOver (b : Bench) : Prop := b.startup = .started ∨ ∃ t, b.startup = .failed t

variable {b b' : Bench}

theorem StartOver.decided (h : b.StartOver) : b.custody.Decided := by
  rcases h with started | ⟨t, failed⟩
  · left
    rw [custody, started]
    rfl
  · right
    rw [custody, failed]
    rfl

/-- A start that fails before it has launched a program. -/
theorem idle_of_preparing (valid : b.custody.Valid) (preparing : b.startup.phase = .preparing)
    (t : Thrown) : (b.failStart t).custody.Idle := by
  have unlaunched := valid.early (.inl preparing)
  constructor
  · exact .inr rfl
  · exact (valid.absent unlaunched).1
  · exact .inl unlaunched

/-- Stopping is settled once the program has ended, and was launched no more. -/
theorem idle_of_settled (stoppable : b.custody.Stoppable)
    (decided : b.stopping ≠ .no → b.custody.Decided) (settled : b.stopSettled = true) :
    b.custody.Idle := by
  have asked := asked_of_settled settled
  obtain ⟨w, stopping⟩ := exists_asked asked
  have awaited : w = b.program.isSome := stoppable.awaited w stopping
  constructor
  · exact decided asked
  · exact stoppable.idle asked
  · rw [stopSettled_eq stopping, awaited] at settled
    cases program : b.program with
    | none => exact .inl program
    | some p =>
      rw [program] at settled
      exact .inr settled

theorem tidy_of_unfailed (unfailed : ∀ t, b.startup ≠ .failed t) : b.custody.Tidy :=
  fun t failed _ => absurd failed (unfailed t)

theorem tidy_proceedTo (b : Bench) {next : Startup} (unfailed : ∀ t, next ≠ .failed t) :
    (b.proceedTo next).custody.Tidy := by
  apply tidy_of_unfailed
  intro t
  unfold proceedTo
  split
  · exact unfailed t
  · simp

theorem tidy_finishBuild (valid : b.custody.Valid) (preparing : b.startup.phase = .preparing)
    (result : Except Thrown Unit) : (b.finishBuild result).custody.Tidy := by
  unfold finishBuild
  split
  · intro t _ _
    exact idle_of_preparing valid preparing _
  · exact tidy_proceedTo b (by simp)

theorem tidy_beginBuild (b : Bench) : b.beginBuild.custody.Tidy := by
  apply tidy_of_unfailed
  intro t
  unfold beginBuild
  split
  · simp [did]
  · simp only []
    split <;> simp

theorem tidy_judgeGrace (b : Bench) : b.judgeGrace.custody.Tidy := by
  unfold judgeGrace
  split
  · rename_i e exit
    intro t _ _
    constructor
    · exact .inr rfl
    · rfl
    · right
      show b.exit.isSome = true
      rw [exit]
      rfl
  · split
    · -- The program is left running, but not for a skip.
      rintro t ⟨⟩ skip
      cases skip
    · exact tidy_of_unfailed (by simp)

theorem tidy_finishWait (tidy : b.custody.Tidy) : b.finishWait.custody.Tidy := by
  unfold finishWait
  split
  · exact tidy_proceedTo b (by simp)
  · exact tidy_proceedTo b (by simp)
  · exact tidy

theorem tidy_abortWait (tidy : b.custody.Tidy) (reason : AbortReason) :
    (b.abortWait reason).custody.Tidy := by
  unfold abortWait
  split
  · exact tidy_finishWait (b := { b with ports := b.ports.map (PortWait.abort · b.now reason) }) tidy
  · exact tidy

theorem tidy_recordExit (tidy : b.custody.Tidy) (e : Exit) : (b.recordExit e).custody.Tidy := by
  have noted : (b.noteExit e).custody.Tidy := by
    rw [custody_noteExit]
    intro t failed skip
    have idle := tidy t failed skip
    exact ⟨idle.decided, idle.released, .inr rfl⟩
  rw [recordExit_eq]
  split
  · exact tidy_proceedTo _ (by simp)
  · exact tidy_abortWait noted _

/-- A start that waited for a stop fails once this is settled. -/
theorem tidy_of_settled (stoppable : b.custody.Stoppable) (closed : b.startup.phase = .closed)
    (settled : b.stopSettled = true) (t : Thrown) : (b.failStart t).custody.Tidy := by
  have idle := idle_of_settled stoppable (fun _ => .inr closed) settled
  intro _ _ _
  exact ⟨.inr rfl, idle.released, idle.ended⟩

theorem tidy_resumeStart (valid : b.custody.Valid) (stoppable : b.custody.Stoppable)
    (h : b.resumeStart? = some b') : b'.custody.Tidy := by
  cases StartMove.of_resume h with
  | unmade making _ =>
    intro t _ _
    exact idle_of_preparing valid (by rw [making]; rfl) _
  | builds => exact tidy_beginBuild b
  | built built => exact tidy_finishBuild valid (by rw [built]; rfl) _
  | launches => exact tidy_of_unfailed (by simp [launch])
  | judges => exact tidy_judgeGrace b
  | succeeds => exact tidy_of_unfailed (by simp)
  | givesUp => exact tidy_of_unfailed (by simp)
  | gaveUp givingUp settled => exact tidy_of_settled stoppable (by rw [givingUp]; rfl) settled _
  | halted halting settled => exact tidy_of_settled stoppable (by rw [halting]; rfl) settled _

theorem tidy_happen (valid : b.custody.Valid) (tidy : b.custody.Tidy) {h : Happening}
    (other : h ≠ .sessionEnds) : (b.happen h).custody.Tidy := by
  cases h with
  | buildEnds =>
    simp only [happen]
    split
    · rename_i building
      exact tidy_finishBuild valid (by rw [building]; rfl) _
    · exact tidy
  | programEnds =>
    simp only [happen]
    split
    · exact tidy_recordExit tidy _
    · exact tidy
  | graceEnds => exact tidy_proceedTo b (by simp)
  | deadlinePasses => exact tidy_abortWait (b := { b with deadline := none }) tidy .deadline
  | portAnswers => exact tidy_finishWait (b := { b with ports := b.ports.map PortWait.proceed }) tidy
  | sessionEnds => exact absurd rfl other

/-! ## A start that has failed stays so -/

theorem failed_recordExit {t : Thrown} (failed : b.startup = .failed t) (e : Exit) :
    (b.recordExit e).startup = .failed t := by
  have noted : (b.noteExit e).startup = .failed t :=
    (congrArg Custody.startup (custody_noteExit b e)).trans failed
  rw [recordExit_eq, noted]
  simp only [abortWait, noted]

theorem failed_happen {t : Thrown} {time : ℕ} {h : Happening} (failed : b.startup = .failed t)
    (due : (time, h) ∈ b.dues) (other : h ≠ .sessionEnds) : (b.happen h).startup = .failed t := by
  cases h with
  | buildEnds => simp [happen, failed]
  | programEnds =>
    simp only [happen]
    split
    · exact failed_recordExit failed _
    · exact failed
  | graceEnds =>
    have waiting := due_graceEnds due
    rw [failed] at waiting
    cases waiting
  | deadlinePasses => simp [happen, abortWait, failed]
  | portAnswers => simp [happen, finishWait, failed]
  | sessionEnds => exact absurd rfl other

end Bench

end FilterBench
