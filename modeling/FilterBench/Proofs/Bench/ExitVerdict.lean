import FilterBench.Proofs.Bench.Course

/-!
# The verdict on the end of a program

An end that nobody asked for is told when it is recorded, but the start error of the bench judges
it again whenever it is read, with what has happened since. The two verdicts part in one case only:
the program was ended by `SIGTERM` before anybody asked to stop it, and is signalled by a later
stop. Then the start error is gone, and a run whose cases all passed ends well.
-/
namespace FilterBench

namespace Custody

/-- A launched program that can still be in use is signalled by the first stop. -/
def Held (c : Custody) : Prop :=
  c.startup.phase = .closed ∨ c.stopping = .no ∧ c.running = true ∨ c.killed = true

variable {lax : Prop} {c c' : Custody}

theorem Valid.held_of_unasked (h : c.Valid) (launched : c.program ≠ none)
    (unasked : c.stopping = .no) : c.Held := by
  cases phase : c.startup.phase with
  | preparing => exact absurd (h.early (.inl phase)) launched
  | cleared => exact absurd (h.early (.inr phase)) launched
  | waiting => exact .inr (.inl ⟨unasked, h.held unasked (.inl phase)⟩)
  | ready => exact .inr (.inl ⟨unasked, h.held unasked (.inr phase)⟩)
  | closed => exact .inl phase

theorem Held.stop (h : c.Held) (now force : ℕ) : (c.stop now force).Held := by
  rw [Custody.stop]
  split
  · exact h
  · rename_i unasked
    split
    · exact .inr (.inr rfl)
    · rename_i idle
      rcases h with closed | ⟨-, running⟩ | killed
      · exact .inl closed
      · exact absurd running idle
      · exact .inr (.inr killed)

/-- A move of a start that is not over. -/
theorem Held.move (h : c.Held) {s : Startup} (going : c.startup.phase ≠ .closed) :
    ({ c with startup := s } : Custody).Held :=
  .inr (h.resolve_left going)

theorem Step.held (h : Step lax c c') (valid : c.Valid) (launched : c.program ≠ none)
    (held : c.Held) : c'.Held := by
  -- A launched program leaves no way back to the steps before its launch.
  cases h with
  | prepares s preparing _ => exact absurd (valid.early (.inl preparing)) launched
  | clears preparing _ => exact absurd (valid.early (.inl preparing)) launched
  | launches line p finish cleared _ _ => exact absurd (valid.early (.inr cleared)) launched
  | goesOn s waiting _ => exact held.move (by simp [waiting])
  | endsEarly e t _ _ => exact .inl rfl
  | abandons t _ => exact .inl rfl
  | givesUp s _ _ closed => exact .inl closed
  | rests s _ closed => exact .inl closed
  | stops now force => exact held.stop now force
  | _ => exact held

theorem Later.launched (h : Later c c') (launched : c.program ≠ none) : c'.program ≠ none := by
  obtain ⟨p, program⟩ := Option.ne_none_iff_exists'.1 launched
  obtain ⟨p', program', -⟩ := h.program p program
  rw [program']
  simp

theorem Steps.held (h : Steps lax c c') (valid : c.Valid) (launched : c.program ≠ none)
    (held : c.Held) : c'.Held := by
  induction h with
  | refl => exact held
  | step steps step ih =>
    exact step.held (steps.valid valid) ((steps.later valid).launched launched) ih

theorem Held.killed (h : c.Held) (started : c.startup = .started) (asked : c.stopping ≠ .no) :
    c.killed = true := by
  rcases h with closed | ⟨unasked, -⟩ | killed
  · rw [started] at closed
    cases closed
  · exact absurd unasked asked
  · exact killed

end Custody

namespace Bench

variable {b b₀ b' : Bench} {e : Exit}

theorem Course.valid (h : Course b b') (valid : b.custody.Valid) : b'.custody.Valid :=
  h.custody.valid valid

/-- An exit code without a meaning is excused by the signal of a stop only. -/
theorem isExpected_eq_of_code (clean : e.code ≠ some b.settings.exitCodes.clean)
    (skip : e.code ≠ some b.settings.exitCodes.skip) :
    b.isExpected e = (b.killed && e.signal == some "SIGTERM") := by
  simp [isExpected, clean, skip]

theorem startError_isSome (exit : b.exit = some e) :
    b.startError.isSome = !b.isExpected e := by
  simp only [startError, exit]
  cases b.isExpected e <;> rfl

/-- Judged anew, an end that was not expected is the same error, or none. -/
theorem startError_eq (exit : b.exit = some e) (unexpected : b.isExpected e = false)
    (exit' : b'.exit = some e) :
    b'.startError = if b'.isExpected e then none else b.startError := by
  simp only [startError, exit, exit', unexpected]
  cases b'.isExpected e <;> rfl

/-- The status that the last run ended with. -/
def status? (b : Bench) : Option Status :=
  match b.run with
  | .finished (.ok o) => some o.status
  | _ => none

/-- What a run that has played its cases comes to once the program was signalled. -/
theorem status_of_played (played : b.run = .closing (.ok ())) (settled : b.stopSettled = true)
    (verdict : b.startError.isSome = !(e.signal == some "SIGTERM")) :
    ∃ b', b.resumeRun? = some b' ∧ b'.status? =
      some (if b.standing.failed = true ∨ e.signal ≠ some "SIGTERM" then .failed else .ok) := by
  refine ⟨b.finishRun (.ok (b.outcome b.finalStatus none)), ?_, ?_⟩
  · simp only [resumeRun?, played, settled, if_true]
  · show some b.finalStatus = _
    rw [finalStatus, verdict]
    cases b.standing.failed <;> by_cases signal : e.signal = some "SIGTERM" <;> simp [signal]

/-- An end with no meaning that was recorded before anybody asked to stop: it is told, and from then
on it is the start error, except while the program has been signalled since and its end was that
signal's. A run that has played its cases after a start that succeeded has signalled the program. -/
theorem unasked_exit_verdict (fresh : b₀.Fresh) (before : Course b₀ b) (exit : b.exit = some e)
    (unasked : b.stopping = .no) (clean : e.code ≠ some b.settings.exitCodes.clean)
    (skip : e.code ≠ some b.settings.exitCodes.skip) (after : Course b b') :
    b'.exit = some e ∧ .unexpectedExit e ∈ b'.notices ∧ b.startError.isSome = true ∧
      b'.startError =
        (if b'.killed = true ∧ e.signal = some "SIGTERM" then none else b.startError) ∧
      (b.startup = .started → (b'.killed = true ↔ b'.stopping ≠ .no)) ∧
      (b'.run = .closing (.ok ()) → ∃ b'', b'.resumeRun? = some b'' ∧ b''.status? =
        some (if b'.standing.failed = true ∨ e.signal ≠ some "SIGTERM" then .failed else .ok)) := by
  have valid := before.valid fresh.valid
  have valid' := after.valid valid
  have later := after.custody.later valid
  have unkilled : b.killed = false := valid.unkilled unasked
  have unexpected : b.isExpected e = false := by
    rw [isExpected_eq_of_code clean skip, unkilled, Bool.false_and]
  have codes : b'.settings.exitCodes = b.settings.exitCodes := later.codes
  have expected' : b'.isExpected e = (b'.killed && e.signal == some "SIGTERM") :=
    isExpected_eq_of_code (by rwa [codes]) (by rwa [codes])
  have exit' : b'.exit = some e := later.exit e exit
  have held : b'.custody.Held := by
    obtain ⟨p, program, -⟩ := valid.ended e exit
    have launched : b.custody.program ≠ none := by
      rw [program]
      simp
    exact after.custody.held valid launched (valid.held_of_unasked launched unasked)
  have told : .unexpectedExit e ∈ b'.notices := by
    apply mem_notices_of_told
    rcases valid.told e exit with expected | ⟨told, -⟩
    · exact absurd (unexpected.symm.trans expected) (by decide)
    · exact later.told e told
  have fault : b.startError.isSome = true := by
    rw [startError_isSome exit, unexpected]
    rfl
  refine ⟨exit', told, fault, ?_, ?_, ?_⟩
  · rw [startError_eq exit unexpected exit', expected']
    simp
  · intro started
    exact ⟨valid'.asked, held.killed (later.started started)⟩
  · intro played
    obtain ⟨started, asked⟩ := valid'.closing (.ok ()) played
    have killed : b'.killed = true := held.killed started asked
    obtain ⟨w, stopping⟩ := exists_asked asked
    have settled : b'.stopSettled = true := by
      rw [stopSettled_eq stopping, exit', Option.isSome_some, Bool.or_true]
    have verdict : b'.startError.isSome = !(e.signal == some "SIGTERM") := by
      rw [startError_isSome exit', expected', killed, Bool.true_and]
    exact status_of_played played settled verdict

/-- A bench whose program is ended by somebody else while its only case is played. -/
def strayBench : Bench where
  settings := { startupGrace := 10 }
  world :=
    { builder := some {}, port := FilterPort.script { openAt := some 0 } 7044
      jobs := [{ exitAfter := some 500, result := { signal := some (some "SIGTERM") } }]
      peers :=
        [{ turns := [[.waits 900, .sends (Utf8.encode "220 hi\r\n")],
            [.sends (Utf8.encode "550 no\r\n")]] }] }
  standing := ({} : Standing).add "/src/tests/basic/refused.yaml" [.helo "me"]
    (DecisionPattern.expectation { code := 550 })

/-- The end of the stray program has been recorded, and the case is still played. -/
def strayEnded : Bench := strayBench.beginRun.advance 600

/-- The case has been played and the run is over. -/
def strayClosed : Bench := strayEnded.advance 400

theorem strayBench_fresh : strayBench.Fresh :=
  ⟨rfl, rfl, rfl, rfl, rfl, rfl, rfl, rfl, rfl, rfl⟩

theorem course_strayEnded : Course strayBench strayEnded :=
  (Course.one (.runs (.inl rfl))).trans (course_advance _ 600)

theorem exit_strayEnded : strayEnded.exit = some ⟨none, some "SIGTERM", "", none, false⟩ ∧
    strayEnded.stopping = .no := by
  decide +kernel

/-- The stray end was told and was the start error while the case was played, yet the run ends
well. -/
theorem stray_exit_excused :
    strayBench.Fresh ∧ Course strayBench strayEnded ∧
      strayEnded.exit = some ⟨none, some "SIGTERM", "", none, false⟩ ∧
      strayEnded.startup.phase = .ready ∧ strayEnded.stopping = .no ∧
      strayEnded.startError.isSome = true ∧ Course strayEnded strayClosed ∧
      strayClosed.startError = none ∧ strayClosed.status? = some .ok := by
  refine ⟨strayBench_fresh, course_strayEnded, exit_strayEnded.1, ?_, exit_strayEnded.2, ?_,
    course_advance _ 400, ?_, ?_⟩
  all_goals decide +kernel

theorem unasked_exit_verdict_stray :
    .unexpectedExit ⟨none, some "SIGTERM", "", none, false⟩ ∈ strayClosed.notices ∧
      strayClosed.startError = none := by
  have killed : strayClosed.killed = true := by decide +kernel
  obtain ⟨-, told, -, verdict, -⟩ := unasked_exit_verdict strayBench_fresh course_strayEnded
    exit_strayEnded.1 exit_strayEnded.2 (by decide) (by decide) (course_advance _ 400)
  exact ⟨told, verdict.trans (if_pos ⟨killed, rfl⟩)⟩

end Bench

end FilterBench
