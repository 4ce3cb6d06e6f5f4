import FilterBench.Proofs.Bench.Course
import Mathlib.Logic.Basic

/-!
# What marks a case

The ending of a session makes one mark of a case (`Case.judge`): a fault fails it, a decision is
left to its expectation. Whoever marks a case changes its state, the flags above it and the notices,
and nothing else (`Bench.conclude_ok`); a case that is marked already stays as it is.
-/
namespace FilterBench

def Verdict.mark : Verdict → Mark
  | .ok => .ok
  | .skip => .skipped
  | .fail => .failed

/-- What the ending of a session makes of a case, unless its expectation breaks. -/
def Case.judge (c : Case) : Ending → Except Thrown Mark
  | .error _ => .ok .failed
  | .ok d => (c.expectation.evaluate d).map fun e => e.verdict.mark

theorem Case.judge_ok {c : Case} {ending : Ending} (h : c.judge ending = .ok .ok) :
    ∃ d e, ending = .ok d ∧ c.expectation.evaluate d = .ok e ∧ e.verdict = .ok := by
  cases ending with
  | error t => cases h
  | ok d =>
    rcases evaluated : c.expectation.evaluate d with t | e
    · rw [judge, evaluated] at h
      cases h
    · rw [judge, evaluated] at h
      refine ⟨d, e, rfl, evaluated, ?_⟩
      cases verdict : e.verdict with
      | ok => rfl
      | _ => simp [Except.map, Verdict.mark, verdict] at h

/-- A decision passes if its code is the expected one, its stage and the expected one do not
contradict each other, and its message has the expected part. -/
theorem DecisionPattern.evaluate_ok {p : DecisionPattern} {d : Decision} :
    (p.evaluate d).verdict = .ok ↔ p.skipReason = none ∧ d.code = p.code ∧
      (p.stage = .any ∨ d.stage = .any ∨ d.stage = p.stage) ∧
      ∀ part, p.messagePart = some part → occursIn part.toList d.message.toList = true := by
  rw [evaluate]
  cases p.skipReason with
  | some reason => simp
  | none =>
    by_cases code : d.code = p.code
    · by_cases stage : p.stage ≠ .any ∧ d.stage ≠ .any ∧ d.stage ≠ p.stage
      · simp [code, stage]
      · have fits : p.stage = .any ∨ d.stage = .any ∨ d.stage = p.stage := by
          simpa only [not_and_or, not_not] using stage
        rw [if_neg (not_not.2 code), if_neg stage]
        cases p.messagePart with
        | none => simp [code, fits]
        | some part =>
          by_cases occurs : occursIn part.toList d.message.toList = true
          · simp [occurs, code, fits]
          · simp [occurs]
    · simp [code]

/-- The cases after one of them was marked. -/
def Standing.marked (s : Standing) (i : ℕ) (c : Case) (m : Mark) : Standing where
  cases := s.cases.set i { c with state := some m }
  failed := s.failed || m == .failed

theorem Standing.mark_ok {s s' : Standing} {i : ℕ} {m : Mark} {c : Case} (present : s.cases[i]? = some c)
    (h : s.mark i m = .ok s') : c.state = none ∧ s' = s.marked i c m := by
  rw [Standing.mark, present] at h
  obtain ⟨c', marked, same⟩ := ok_of_bind_eq_ok h
  rw [Case.mark] at marked
  split at marked
  · rename_i ready
    cases marked
    cases same
    exact ⟨ready, rfl⟩
  · cases marked

namespace Bench

variable {b b' : Bench} {i : ℕ} {m : Mark} {c : Case} {message : String}

/-- A bench with one more case marked, and something told about it. -/
def marked (b : Bench) (i : ℕ) (c : Case) (m : Mark) (notices : List Notice) : Bench :=
  { b with
    standing := b.standing.marked i c m
    serverFailed := b.serverFailed || m == .failed
    notices := notices }

theorem mark_ok (present : b.standing.cases[i]? = some c) (h : b.mark i m = .ok b') :
    c.state = none ∧ b' = b.marked i c m b.notices := by
  rw [mark] at h
  split at h
  · cases h
  · rename_i s marked
    cases h
    obtain ⟨ready, rfl⟩ := Standing.mark_ok present marked
    exact ⟨ready, rfl⟩

theorem markFailed_ok (present : b.standing.cases[i]? = some c)
    (h : b.markFailed i message = .ok b') :
    c.state = none ∧ ∃ notices, b' = b.marked i c .failed notices := by
  obtain ⟨d, marked, told⟩ := ok_of_bind_eq_ok h
  obtain ⟨ready, rfl⟩ := mark_ok present marked
  refine ⟨ready, ?_⟩
  split at told
  · cases told
    exact ⟨_, rfl⟩
  · cases told
    exact ⟨_, rfl⟩

theorem markTold_ok (present : b.standing.cases[i]? = some c)
    (h : b.markTold i m message = .ok b') :
    c.state = none ∧ ∃ notices, b' = b.marked i c m notices := by
  obtain ⟨d, marked, told⟩ := ok_of_bind_eq_ok h
  obtain ⟨ready, rfl⟩ := mark_ok present marked
  cases told
  exact ⟨ready, _, rfl⟩

/-- A case is marked by the ending of its session, if it was ready and its expectation judges the
ending. -/
theorem conclude_ok {ending : Ending} (present : b.standing.cases[i]? = some c)
    (h : b.conclude i ending = .ok b') : c.state = none ∧ ∃ m notices,
      c.judge ending = .ok m ∧ b' = b.marked i c m notices := by
  rw [conclude, present] at h
  cases ending with
  | error t =>
    obtain ⟨ready, notices, same⟩ := markFailed_ok present h
    exact ⟨ready, .failed, notices, rfl, same⟩
  | ok d =>
    obtain ⟨e, evaluated, told⟩ := ok_of_bind_eq_ok h
    have judged : c.judge (.ok d) = .ok e.verdict.mark := by
      rw [Case.judge, evaluated]
      rfl
    rw [judged]
    split at told
    · rename_i verdict
      obtain ⟨ready, notices, same⟩ := markTold_ok present told
      exact ⟨ready, .ok, notices, by rw [verdict]; rfl, same⟩
    · rename_i verdict
      obtain ⟨ready, notices, same⟩ := markTold_ok present told
      exact ⟨ready, .skipped, notices, by rw [verdict]; rfl, same⟩
    · rename_i verdict
      obtain ⟨ready, notices, same⟩ := markFailed_ok present told
      exact ⟨ready, .failed, notices, by rw [verdict]; rfl, same⟩

/-! ## Ready cases -/

theorem mark_ready (present : b.standing.cases[i]? = some c) (ready : c.state = none) (m : Mark) :
    b.mark i m = .ok (b.marked i c m b.notices) := by
  simp only [mark, Standing.mark, present, Case.mark, ready]
  rfl

theorem markTold_ready (present : b.standing.cases[i]? = some c) (ready : c.state = none) (m : Mark)
    (message : String) : b.markTold i m message =
      .ok (b.marked i c m (b.notices ++ [.caseTold message])) := by
  rw [markTold, mark_ready present ready m]
  rfl

theorem markFailed_ready {t : Thrown} (present : b.standing.cases[i]? = some c)
    (ready : c.state = none) : b.markFailed i message ≠ .error t := by
  intro h
  simp only [markFailed, mark_ready present ready .failed, bind, Except.bind] at h
  split at h
  · cases h
  · cases h

/-- Nothing but an expectation that breaks keeps a ready case from being marked. -/
theorem conclude_error {ending : Ending} {t : Thrown} (present : b.standing.cases[i]? = some c)
    (ready : c.state = none) (h : b.conclude i ending = .error t) :
    ∃ d, ending = .ok d ∧ c.expectation.evaluate d = .error t := by
  rw [conclude, present] at h
  cases ending with
  | error t' =>
    exact absurd h (markFailed_ready present ready)
  | ok d =>
    refine ⟨d, rfl, ?_⟩
    cases evaluated : c.expectation.evaluate d with
    | error t' =>
      simp only [evaluated, bind, Except.bind] at h
      cases h
      rfl
    | ok e =>
      simp only [evaluated, bind, Except.bind] at h
      split at h
      · cases (markTold_ready present ready _ _).symm.trans h
      · cases (markTold_ready present ready _ _).symm.trans h
      · exact absurd h (markFailed_ready present ready)

/-- Cases that are ready are skipped one after another, and nothing fails by that. -/
theorem skipCases_ready {done rest : List Case} (cases : b.standing.cases = done ++ rest)
    (ready : ∀ c ∈ rest, c.state = none) : ∃ notices, b.skipCases done.length rest =
      ({ b with
        standing := { b.standing with
          cases := done ++ rest.map fun c => { c with state := some .skipped } }
        notices := notices }, none) := by
  induction rest generalizing b done with
  | nil =>
    refine ⟨b.notices, ?_⟩
    rw [skipCases, List.map_nil, ← cases]
  | cons c rest ih =>
    have present : b.standing.cases[done.length]? = some c := by
      rw [cases, List.getElem?_append_right (Nat.le_refl _), Nat.sub_self]
      rfl
    have told := markTold_ready present (ready c List.mem_cons_self) .skipped
      ("SKIP " ++ c.filename ++ ": directory skipped")
    let skipped : Case := { c with state := some .skipped }
    have next : (b.standing.marked done.length c .skipped).cases = (done ++ [skipped]) ++ rest := by
      rw [Standing.marked, cases, List.set_append_right _ _ (Nat.le_refl _), Nat.sub_self,
        List.append_assoc]
      rfl
    obtain ⟨notices, same⟩ := ih (b := b.marked done.length c .skipped _) next
      fun c' mem => ready c' (List.mem_cons_of_mem c mem)
    refine ⟨notices, ?_⟩
    rw [skipCases, told]
    rw [List.length_append] at same
    refine same.trans ?_
    simp [marked, Standing.marked, skipped]

end Bench

end FilterBench
