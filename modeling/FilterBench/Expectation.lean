import FilterBench.Fault

/-!
# Judging decisions

An `Expectation` judges the decision that a session ended with. The usual one asks for an exact
code, for the stage of the decision, where `any` on either side fits every stage, and for a part
of the message; it may instead say that the case does not apply.
-/
namespace FilterBench

inductive Verdict where
  | ok | skip | fail
  deriving DecidableEq, Repr, Inhabited

def Verdict.name : Verdict → String
  | .ok => "ok"
  | .skip => "skip"
  | .fail => "fail"

structure Evaluation where
  verdict : Verdict
  reason : String
  deriving DecidableEq, Repr, Inhabited

/-- What a case expects: how it judges a decision, which may itself go wrong, and its text. -/
structure Expectation where
  evaluate : Decision → Except Thrown Evaluation
  description : String

/-- Whether `part` stands somewhere in `text`. -/
def occursIn (part : List Char) : List Char → Bool
  | [] => part.isEmpty
  | c :: rest => part.isPrefixOf (c :: rest) || occursIn part rest

structure DecisionPattern where
  code : Int
  stage : Stage := .any
  messagePart : Option String := none
  /-- Why the case does not apply to the server being driven, when it does not. -/
  skipReason : Option String := none
  deriving DecidableEq, Repr, Inhabited

namespace DecisionPattern

/-- A decision as a verdict tells it. -/
def told (d : Decision) : String :=
  Numeral.intText d.code ++ " " ++ d.message ++ " @" ++ d.stage.name

/-- Judges a decision; the first of code, stage and message that does not fit is the reason. -/
def evaluate (p : DecisionPattern) (d : Decision) : Evaluation :=
  match p.skipReason with
  | some reason => ⟨.skip, reason⟩
  | none =>
    if d.code ≠ p.code then
      ⟨.fail, "expected code " ++ Numeral.intText p.code ++ ", got " ++ told d⟩
    else if p.stage ≠ .any ∧ d.stage ≠ .any ∧ d.stage ≠ p.stage then
      ⟨.fail, "expected decision at " ++ p.stage.name ++ ", got " ++ told d⟩
    else match p.messagePart with
      | none => ⟨.ok, told d⟩
      | some part =>
        if occursIn part.toList d.message.toList then ⟨.ok, told d⟩
        else ⟨.fail, "expected message containing \"" ++ part ++ "\", got " ++ told d⟩

def description (p : DecisionPattern) : String :=
  let part := match p.messagePart with
    | some part => " \"" ++ part ++ "\""
    | none => ""
  Numeral.intText p.code ++ " @" ++ p.stage.name ++ part

def expectation (p : DecisionPattern) : Expectation :=
  ⟨fun d => .ok (p.evaluate d), p.description⟩

end DecisionPattern

end FilterBench
