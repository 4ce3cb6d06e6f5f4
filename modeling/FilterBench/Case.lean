import FilterBench.Session.Basic
import FilterBench.Expectation
import FilterBench.Path

/-!
# Cases and their standing

A case is a script with an expectation. It is ready until it is marked, and it is marked once.
The cases of one directory stand together: the directory is flagged as soon as one of them is
marked failed, and so is the mail server that they are played against.
-/
namespace FilterBench

inductive Mark where
  | ok | skipped | failed
  deriving DecidableEq, Repr, Inhabited

def Mark.name : Mark → String
  | .ok => "ok"
  | .skipped => "skipped"
  | .failed => "failed"

/-- `none` while a case is ready. -/
abbrev CaseState := Option Mark

namespace CaseState

def name : CaseState → String
  | none => "ready"
  | some m => m.name

end CaseState

structure Case where
  index : Nat
  path : String
  script : Script
  expectation : Expectation
  /-- All that was said in the sessions of this case. -/
  transcript : List String := []
  state : CaseState := none

namespace Case

def filename (c : Case) : String := Path.base c.path

/-- Marks a case that is ready. -/
def mark (c : Case) (m : Mark) : Except Fault Case :=
  match c.state with
  | none => .ok { c with state := some m }
  | some s =>
    .error { code := .stateAlreadySet
             message := c.filename ++ " is already " ++ s.name ++ ", cannot mark it " ++ m.name }

end Case

/-- The cases of a directory and its flag. -/
structure Standing where
  cases : List Case := []
  failed : Bool := false

namespace Standing

/-- Adds a case; it is ready. -/
def add (s : Standing) (path : String) (script : Script) (e : Expectation) : Standing :=
  { s with cases := s.cases ++
      [{ index := s.cases.length, path := path, script := script, expectation := e }] }

/-- Marks one case, and flags the directory with a failure. -/
def mark (s : Standing) (i : Nat) (m : Mark) : Except Fault Standing :=
  match s.cases[i]? with
  | none => .ok s
  | some c => do
    let c ← c.mark m
    pure { cases := s.cases.set i c, failed := s.failed || m == .failed }

def flag (s : Standing) : Standing := { s with failed := true }

/-- Adds what a session of a case said. -/
def hear (s : Standing) (i : Nat) (chunks : List String) : Standing :=
  { s with cases := s.cases.modify i fun c => { c with transcript := c.transcript ++ chunks } }

end Standing

end FilterBench
