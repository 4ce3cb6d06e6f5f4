import FilterBench.Proofs.Bench.Outcome
import FilterBench.Proofs.Bench.Stages

/-!
# The trail of a run

The trail of a bench keeps from its history what cases and the stop have done, in the order in which
it was done: connections that were opened and closed, and kills. A start leaves the trail as it is,
unless it gives up the wait for the port, which is the end of it; of all moves that the run has no part
in, this is the only one that adds to the trail (`SideMove.trail`).
-/
namespace FilterBench

inductive Milestone where
  | opened | closed | killed
  deriving DecidableEq, Repr

def Deed.milestone? : Deed → Option Milestone
  | .connected _ _ => some .opened
  | .disconnected => some .closed
  | .killed _ _ _ => some .killed
  | _ => none

/-- So many sessions, each closed before the next one is opened. -/
def sessions (n : ℕ) : List Milestone := (List.replicate n [.opened, .closed]).flatten

theorem sessions_succ (n : ℕ) : sessions (n + 1) = sessions n ++ [.opened, .closed] := by
  simp [sessions, List.replicate_succ']

namespace Custody

variable {lax : Prop} {c c' : Custody}

/-- A start that launches nothing any more does not come back to it. -/
theorem Step.closed (h : Step lax c c') (closed : c.startup.phase = .closed) :
    c'.startup.phase = .closed := by
  cases h with
  | prepares s preparing _ => cases closed.symm.trans preparing
  | clears preparing _ => cases closed.symm.trans preparing
  | launches line p finish cleared _ _ => cases closed.symm.trans cleared
  | goesOn s waiting _ => cases closed.symm.trans waiting
  | endsEarly e t waiting _ => rfl
  | abandons t waiting => rfl
  | givesUp s _ _ phase => exact phase
  | rests s _ phase => exact phase
  | stops now force =>
    rw [Custody.stop]
    split
    · exact closed
    · split <;> exact closed
  | _ => exact closed

theorem Steps.closed (h : Steps lax c c') (closed : c.startup.phase = .closed) :
    c'.startup.phase = .closed := by
  induction h with
  | refl => exact closed
  | step _ step ih => exact step.closed ih

end Custody

namespace Bench

variable {b b' : Bench}

def trail (b : Bench) : List Milestone := b.history.filterMap fun d => d.2.milestone?

theorem trail_did (b : Bench) (d : Deed) : (b.did d).trail = b.trail ++ d.milestone?.toList := by
  rw [trail, did, List.filterMap_append, trail, List.append_cancel_left_eq]
  cases milestone : d.milestone? <;> simp [milestone]

theorem trail_stop_held (unasked : b.stopping = .no) (held : b.running = true) :
    b.stop.trail = b.trail ++ [.killed] := by
  rw [stop_held unasked held]
  exact trail_did _ _

theorem trail_stop_released (released : b.running = false) : b.stop.trail = b.trail := by
  unfold stop
  split
  · rfl
  · rw [if_neg (by simp [released])]
    rfl

/-- A stop leaves no second kill on the trail. -/
theorem trail_stop (unkilled : b.stopping = .no → b.trail = [])
    (trail : b.trail = [] ∨ b.trail = [.killed]) :
    b.stop.trail = [] ∨ b.stop.trail = [.killed] := by
  cases stopping : b.stopping with
  | asked w =>
    rw [stop, stopping]
    exact trail
  | no =>
    cases held : b.running with
    | true =>
      rw [trail_stop_held stopping held, unkilled stopping]
      exact .inr rfl
    | false =>
      rw [trail_stop_released held]
      exact trail

/-! ## What the start does -/

theorem trail_proceedTo (b : Bench) (next : Startup) : (b.proceedTo next).trail = b.trail := by
  unfold proceedTo
  split <;> rfl

theorem trail_finishBuild (b : Bench) (result : Except Thrown Unit) :
    (b.finishBuild result).trail = b.trail := by
  unfold finishBuild
  split
  · rfl
  · exact trail_proceedTo b .checkedBuild

theorem trail_nextJob (b : Bench) (line : CommandLine) : (b.nextJob line).1.trail = b.trail :=
  (trail_did _ _).trans (List.append_nil _)

theorem trail_beginBuild (b : Bench) : b.beginBuild.trail = b.trail := by
  unfold beginBuild
  split
  · exact (trail_did _ _).trans (List.append_nil _)
  · have ran := trail_nextJob b (Build.command b.settings.build b.path b.executable)
    simp only []
    split <;> exact ran

theorem trail_judgeGrace (b : Bench) : b.judgeGrace.trail = b.trail := by
  obtain ⟨_, _, _, _, judged⟩ := exists_judgeGrace b
  rw [judged]
  rfl

theorem trail_finishWait (b : Bench) : b.finishWait.trail = b.trail := by
  unfold finishWait
  split
  · exact trail_proceedTo b _
  · exact trail_proceedTo b _
  · rfl

theorem trail_abortWait (b : Bench) (reason : AbortReason) :
    (b.abortWait reason).trail = b.trail := by
  unfold abortWait
  split
  · exact trail_finishWait _
  · rfl

theorem trail_recordExit (b : Bench) (e : Exit) : (b.recordExit e).trail = b.trail := by
  obtain ⟨notices, noted⟩ := exists_noteExit b e
  have same : (b.noteExit e).trail = b.trail := by
    rw [noted]
    exact (trail_did _ (.sawExit e)).trans (List.append_nil _)
  rw [recordExit_eq]
  split
  · exact (trail_proceedTo _ _).trans same
  · exact (trail_abortWait _ _).trans same

theorem trail_happen {h : Happening} (other : h ≠ .sessionEnds) (b : Bench) :
    (b.happen h).trail = b.trail := by
  cases h with
  | buildEnds =>
    simp only [happen]
    split
    · exact trail_finishBuild b _
    · rfl
  | programEnds =>
    simp only [happen]
    split
    · exact trail_recordExit b _
    · rfl
  | graceEnds => exact trail_proceedTo b _
  | deadlinePasses => exact trail_abortWait _ _
  | portAnswers => exact trail_finishWait _
  | sessionEnds => exact absurd rfl other

/-- The start gives up: the program is killed if nobody asked to stop before. -/
structure GivesUp (b b' : Bench) : Prop where
  waited : b.startup.phase = .waiting
  closed : b'.startup.phase = .closed
  stopped : b'.trail = b.stop.trail
  asked : b'.stopping ≠ .no

theorem trail_resumeStart (h : b.resumeStart? = some b') :
    b'.trail = b.trail ∨ b.GivesUp b' := by
  cases StartMove.of_resume h with
  | unmade => exact .inl rfl
  | builds => exact .inl (trail_beginBuild b)
  | built => exact .inl (trail_finishBuild b _)
  | launches => exact .inl (trail_nextJob b _)
  | judges => exact .inl (trail_judgeGrace b)
  | succeeds => exact .inl rfl
  | givesUp unready => exact .inr ⟨by rw [unready]; rfl, rfl, rfl, b.stopping_stop⟩
  | gaveUp => exact .inl rfl
  | halted => exact .inl rfl

/-- Of all moves that the run has no part in, only a start that gives up adds to the trail. -/
theorem SideMove.trail (move : SideMove b b') : b'.trail = b.trail ∨ b.GivesUp b' := by
  cases move with
  | sees => exact .inl (trail_recordExit b _)
  | goesOn resumed => exact trail_resumeStart resumed
  | happens _ other => exact .inl (trail_happen other _)
  | waits => exact .inl rfl

end Bench

end FilterBench
