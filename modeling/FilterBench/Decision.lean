/-!
# Decisions

What a mail server decided about a scripted session: a reply code with its message, attributed to
the stage of the protocol at which it came.
-/
namespace FilterBench

inductive Stage where
  | any | helo | from | to | data | eom
  deriving DecidableEq, Repr, Inhabited

def Stage.name : Stage → String
  | .any => "any"
  | .helo => "helo"
  | .from => "from"
  | .to => "to"
  | .data => "data"
  | .eom => "eom"

structure Decision where
  code : Int
  message : String
  stage : Stage
  deriving DecidableEq, Repr, Inhabited

namespace Decision

/-- The message was accepted. -/
def queued : Decision := ⟨250, "OK: queued", .eom⟩

end Decision

end FilterBench
