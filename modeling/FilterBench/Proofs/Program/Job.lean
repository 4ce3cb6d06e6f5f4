import FilterBench.Program.Job
import Mathlib.Data.Nat.Notation

/-!
# The end of a job

A job whose process goes on can be killed, and then its end is settled: its own end if that comes
first, else the one that the kill brings about (`kill_cases`). Killing changes nothing else of a job,
and nothing at all of one whose process has ended, although its end may not be known yet.
-/
namespace FilterBench.Job

variable {j : Job} {command : String} {script : JobScript} {now force time : ℕ} {e : Exit}

theorem kill_eq (gone : j.alive now = false) : j.kill now force = j := by
  simp only [kill, gone, Bool.false_eq_true, if_false]

/-- A kill settles how the process ends, and nothing else. -/
theorem exists_kill (j : Job) (now force : ℕ) :
    ∃ ending, j.kill now force = { j with ending := ending } := by
  rw [kill]
  split
  · split <;> exact ⟨_, rfl⟩
  · exact ⟨_, rfl⟩

theorem ended_kill (j : Job) (now force : ℕ) : (j.kill now force).ended = j.ended := by
  obtain ⟨ending, killed⟩ := j.exists_kill now force
  rw [killed]

theorem held_kill (j : Job) (now force : ℕ) : (j.kill now force).held = j.held := by
  obtain ⟨ending, killed⟩ := j.exists_kill now force
  rw [killed]

/-- A process that was killed ends. -/
theorem ending_kill (ending : j.ended = true → j.ending.isSome = true) (now force : ℕ) :
    (j.kill now force).ending.isSome = true := by
  cases goes : j.alive now with
  | true =>
    simp only [kill, goes, if_true]
    split <;> rfl
  | false =>
    rw [kill_eq goes]
    cases ended : j.ended with
    | true => exact ending ended
    | false =>
      cases own : j.ending with
      | none => simp [alive, ended, own] at goes
      | some _ => rfl

theorem killedBy_soon (j : Job) (now force : ℕ) :
    (j.killedBy now force).1 ≤ now + force ∧ now ≤ (j.killedBy now force).1 := by
  rw [killedBy]
  split
  · split
    · exact ⟨by simp only []; omega, Nat.le_add_right _ _⟩
    · exact ⟨Nat.le_refl _, Nat.le_add_right _ _⟩
  · exact ⟨Nat.le_refl _, Nat.le_add_right _ _⟩

/-- Killing a job whose end is not known settles the end of its process: its own end if that comes
first, else the end that the kill brings about. -/
theorem kill_cases (going : j.ended = false) (now force : ℕ) :
    ∃ time e, (j.kill now force).ending = some (time, e) ∧ time ≤ now + force ∧
      (j.ending = some (time, e) ∨ (time, e) = j.killedBy now force ∧ now ≤ time) := by
  have soon := j.killedBy_soon now force
  cases goes : j.alive now with
  | true =>
    simp only [kill, goes, if_true]
    split
    · rename_i own ending
      by_cases first : own.1 ≤ (j.killedBy now force).1
      · simp only [first, if_true]
        exact ⟨own.1, own.2, rfl, Nat.le_trans first soon.1, .inl ending⟩
      · simp only [first, if_false]
        exact ⟨_, _, rfl, soon.1, .inr ⟨rfl, soon.2⟩⟩
    · exact ⟨_, _, rfl, soon.1, .inr ⟨rfl, soon.2⟩⟩
  | false =>
    -- Its process has ended before.
    rw [kill_eq goes]
    cases own : j.ending with
    | none => simp [alive, going, own] at goes
    | some last =>
      simp only [alive, going, own, Bool.not_false, Bool.true_and, Option.all_some,
        decide_eq_false_iff_not] at goes
      exact ⟨last.1, last.2, rfl, by omega, .inl rfl⟩

/-! ## What is told of the end -/

theorem report?_of_ending (ending : j.ending = some (time, e)) :
    j.report? = some (time + j.held, e) := by
  rw [report?, ending]
  rfl

/-- The end of a job that is killed is known once its output is over. -/
theorem report?_kill (going : j.ended = false)
    (h : (j.kill now force).report? = some (time, e)) : time ≤ now + force + j.held := by
  obtain ⟨t, e', ending, soon, -⟩ := kill_cases going now force
  rw [report?_of_ending ending, held_kill, Option.some.injEq, Prod.mk.injEq] at h
  omega

/-- A command that has ended as it is run was rejected, and any other has its end ahead. -/
theorem begin_cases (h : (begin command script now).report? = some (time, e)) :
    now ≤ time ∧ ((begin command script now).ended = true → time = now) := by
  unfold begin at h ⊢
  split at h
  · simp only [report?, Option.map_some, Option.some.injEq, Prod.mk.injEq] at h
    omega
  · obtain ⟨⟨t, e'⟩, own, same⟩ := Option.map_eq_some_iff.1 h
    obtain ⟨ms, -, later⟩ := Option.map_eq_some_iff.1 own
    simp only [Prod.mk.injEq] at same later
    refine ⟨by omega, ?_⟩
    simp

theorem begin_report (ended : (begin command script now).ended = true) :
    ∃ e, (begin command script now).report? = some (now, e) := by
  unfold begin at ended ⊢
  split at ended
  · exact ⟨_, rfl⟩
  · cases ended

end FilterBench.Job
