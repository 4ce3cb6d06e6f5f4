import FilterBench.Proofs.Bench.Marking

/-!
# Marks, statement by statement

`Acts` are statements that are done one after another: what was done before one of them throws stays
done. A case is marked by taking it out of ready, then flagging its directory and telling why.
It can only throw at the first of these, so that a mark is made whole or not at all (`run_marks`), and
so is the mark that completes a run of a case (`run_concludes`).
-/
namespace FilterBench

/-- What a case throws that is marked already. -/
def Case.alreadyMarked (c : Case) (s m : Mark) : Thrown :=
  .fault
    { code := .stateAlreadySet
      message := c.filename ++ " is already " ++ s.name ++ ", cannot mark it " ++ m.name }

/-- What the completed run of a case throws that is marked already. -/
def Case.thrownBy (c : Case) (s : Mark) (ending : Ending) : Thrown :=
  match c.judge ending with
  | .ok m => c.alreadyMarked s m
  | .error t => t

namespace Bench

abbrev Acts := EStateM Thrown Bench Unit

namespace Acts

/-- Goes on with a case. There is nothing to do for a number that no case has. -/
def withCase (i : ℕ) (acts : Case → Acts) : Acts := do
  match (← get).standing.cases[i]? with
  | none => pure ()
  | some c => acts c

/-- Takes a case out of ready, or throws. -/
def transition (i : ℕ) (m : Mark) : Acts :=
  withCase i fun c => do
    match c.state with
    | some s => throw (c.alreadyMarked s m)
    | none =>
      modify fun b => { b with standing := { b.standing with
        cases := b.standing.cases.set i { c with state := some m } } }

def flags : Acts := modify Bench.flag

def tells (n : Notice) : Acts := modify (Bench.tell · n)

def fails (i : ℕ) (message : String) : Acts :=
  withCase i fun c => do
    transition i .failed
    flags
    tells (.caseFailed c.expectation.description message)
    tells (.caseTranscript (String.join c.transcript))

def marks (i : ℕ) (m : Mark) (message : String) : Acts :=
  match m with
  | .failed => fails i message
  | m => withCase i fun _ => do
    transition i m
    tells (.caseTold message)

/-- What a run of a case does when its session has ended. -/
def concludes (i : ℕ) (ending : Ending) : Acts :=
  withCase i fun c => do
    match ending with
    | .error t =>
      fails i ("FAIL " ++ c.filename ++ ": session error" ++ stageText t ++ ": " ++ t.message)
    | .ok decision =>
      match c.expectation.evaluate decision with
      | .error t => throw t
      | .ok e =>
        match e.verdict with
        | .ok => marks i .ok ("OK " ++ c.filename ++ ": " ++ e.reason)
        | .skip => marks i .skipped ("SKIP " ++ c.filename ++ ": " ++ e.reason)
        | .fail => fails i ("FAIL " ++ c.filename ++ ": " ++ e.reason)

end Acts

variable {b : Bench} {i : ℕ} {c : Case} {s : Mark} {message : String}

/-! ## Cases that are marked already -/

theorem mark_marked (present : b.standing.cases[i]? = some c) (marked : c.state = some s)
    (m : Mark) : b.mark i m = .error (c.alreadyMarked s m) := by
  simp only [mark, Standing.mark, present, Case.mark, marked]
  rfl

theorem markFailed_marked (present : b.standing.cases[i]? = some c) (marked : c.state = some s) :
    b.markFailed i message = .error (c.alreadyMarked s .failed) := by
  rw [markFailed, mark_marked present marked]
  rfl

theorem markTold_marked (present : b.standing.cases[i]? = some c) (marked : c.state = some s)
    (m : Mark) : b.markTold i m message = .error (c.alreadyMarked s m) := by
  rw [markTold, mark_marked present marked]
  rfl

theorem markAs_marked (present : b.standing.cases[i]? = some c) (marked : c.state = some s)
    (m : Mark) : b.markAs i m message = .error (c.alreadyMarked s m) := by
  cases m with
  | failed => exact markFailed_marked present marked
  | _ => exact markTold_marked present marked _

theorem conclude_marked (present : b.standing.cases[i]? = some c) (marked : c.state = some s)
    (ending : Ending) : b.conclude i ending = .error (c.thrownBy s ending) := by
  rw [conclude, present, Case.thrownBy, Case.judge.eq_def]
  cases ending with
  | error t => exact markFailed_marked present marked
  | ok decision =>
    cases evaluated : c.expectation.evaluate decision with
    | error t => simp only [evaluated, bind, Except.bind, Except.map]
    | ok e =>
      simp only [evaluated, bind, Except.bind, Except.map]
      cases e.verdict with
      | ok => exact markTold_marked present marked .ok
      | skip => exact markTold_marked present marked .skipped
      | fail => exact markFailed_marked present marked

theorem markAs_ready (present : b.standing.cases[i]? = some c) (ready : c.state = none) (m : Mark)
    (message : String) : ∃ notices, b.markAs i m message = .ok (b.marked i c m notices) := by
  cases marked : b.markAs i m message with
  | error t =>
    cases m with
    | failed => exact absurd marked (markFailed_ready present ready)
    | _ => cases (markTold_ready present ready _ message).symm.trans marked
  | ok b' =>
    cases m with
    | failed =>
      obtain ⟨-, notices, rfl⟩ := markFailed_ok present marked
      exact ⟨notices, rfl⟩
    | _ =>
      obtain ⟨-, notices, rfl⟩ := markTold_ok present marked
      exact ⟨notices, rfl⟩

/-! ## Statement by statement -/

/-- A bench after something was done with it whole, or not at all. -/
def whole (b : Bench) : Except Thrown Bench → EStateM.Result Thrown Bench Unit
  | .ok b' => .ok () b'
  | .error t => .error t b

theorem run_withCase_eq (b : Bench) (i : ℕ) (acts : Case → Acts) : (Acts.withCase i acts).run b =
    match b.standing.cases[i]? with
    | none => .ok () b
    | some c => (acts c).run b := by
  show EStateM.run (match b.standing.cases[i]? with
    | none => pure ()
    | some c => acts c) b = _
  split <;> rfl

theorem run_withCase (present : b.standing.cases[i]? = some c) (acts : Case → Acts) :
    (Acts.withCase i acts).run b = (acts c).run b := by
  rw [run_withCase_eq, present]

theorem run_withCase_absent (absent : b.standing.cases[i]? = none) (acts : Case → Acts) :
    (Acts.withCase i acts).run b = .ok () b := by
  rw [run_withCase_eq, absent]

theorem run_then (x y : Acts) (b : Bench) : (do x; y : Acts).run b =
    match x.run b with
    | .ok () b' => y.run b'
    | .error t b' => .error t b' := by
  simp only [EStateM.run, bind, EStateM.bind]
  cases x b with
  | ok => rfl
  | error => rfl

theorem run_transition_marked (present : b.standing.cases[i]? = some c)
    (marked : c.state = some s) (m : Mark) :
    (Acts.transition i m).run b = .error (c.alreadyMarked s m) b := by
  rw [Acts.transition, run_withCase present, marked]
  rfl

theorem run_transition_ready (present : b.standing.cases[i]? = some c) (ready : c.state = none)
    (m : Mark) : (Acts.transition i m).run b = .ok () { b with standing := { b.standing with
      cases := b.standing.cases.set i { c with state := some m } } } := by
  rw [Acts.transition, run_withCase present, ready]
  rfl

theorem run_fails (present : b.standing.cases[i]? = some c) (message : String) :
    (Acts.fails i message).run b = b.whole (b.markFailed i message) := by
  rw [Acts.fails, run_withCase present, run_then]
  cases state : c.state with
  | some s =>
    rw [run_transition_marked present state, markFailed_marked present state]
    rfl
  | none =>
    have below : i < b.standing.cases.length := (List.getElem?_eq_some_iff.1 present).choose
    have now : (b.marked i c .failed b.notices).standing.cases[i]? =
        some { c with state := some .failed } := List.getElem?_set_self below
    have flagged : b.marked i c .failed b.notices = Bench.flag { b with standing := { b.standing with
        cases := b.standing.cases.set i { c with state := some .failed } } } := by
      simp [Bench.marked, Standing.marked, Bench.flag, Standing.flag]
    rw [run_transition_ready present state, markFailed, mark_ready present state]
    simp only [bind, Except.bind, now]
    rw [flagged]
    rfl

theorem run_marks (present : b.standing.cases[i]? = some c) (m : Mark) (message : String) :
    (Acts.marks i m message).run b = b.whole (b.markAs i m message) := by
  have told (m : Mark) (harmless : (m == .failed) = false) : (Acts.withCase i fun _ => do
      Acts.transition i m
      Acts.tells (.caseTold message)).run b = b.whole (b.markTold i m message) := by
    rw [run_withCase present, run_then]
    cases state : c.state with
    | some s =>
      rw [run_transition_marked present state, markTold_marked present state]
      rfl
    | none =>
      have unflagged : b.marked i c m b.notices = { b with standing := { b.standing with
          cases := b.standing.cases.set i { c with state := some m } } } := by
        simp [Bench.marked, Standing.marked, harmless]
      rw [run_transition_ready present state, markTold, mark_ready present state, unflagged]
      rfl
  cases m with
  | ok => exact told .ok rfl
  | skipped => exact told .skipped rfl
  | failed => exact run_fails present message

/-- A run of a case that has ended marks it whole, or throws and leaves it as it was. -/
theorem run_concludes (present : b.standing.cases[i]? = some c) (ending : Ending) :
    (Acts.concludes i ending).run b = b.whole (b.conclude i ending) := by
  rw [Acts.concludes, run_withCase present, conclude, present]
  cases ending with
  | error t => exact run_fails present _
  | ok decision =>
    cases evaluated : c.expectation.evaluate decision with
    | error t =>
      simp only [evaluated]
      rfl
    | ok e =>
      simp only [evaluated, bind, Except.bind]
      cases e.verdict with
      | ok => exact run_marks present .ok _
      | skip => exact run_marks present .skipped _
      | fail => exact run_fails present _

end Bench

end FilterBench
