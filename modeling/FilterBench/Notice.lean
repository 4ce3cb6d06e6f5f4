import FilterBench.Log
import FilterBench.Program.Exit

/-!
# Notices

What the bench tells while a directory is run. A notice has a level, a message and sometimes
further fields; a record of it also names the directory.
-/
namespace FilterBench

inductive Notice where
  | unexpectedExit (e : Exit)
  /-- All that the test program printed. -/
  | outputDump (path output : String)
  | skipRequested
  | startFailed (t : Thrown)
  | caseFailed (expected message : String)
  | caseTranscript (text : String)
  | caseTold (message : String)

structure Record where
  level : Level
  message : String
  fields : List (String × Value) := []

namespace Notice

/-- An error as a field of a record. -/
def errorField (t : Thrown) : Value :=
  let code : List (String × Value) := match t with
    | .fault f => [("code", .text f.code.name)]
    | .session _ f => [("code", .text f.code.name)]
    | .refusal r => [("code", .number (.ofInt r.code))]
    | .other e => match e.code with
      | some c => [("code", .text c)]
      | none => []
    | .value _ => []
  .table ([("type", .text t.sort), ("message", .text t.message)] ++ code)

def record : Notice → Record
  | .unexpectedExit e =>
    { level := .debug, message := "test program " ++ e.describe
      fields :=
        [("exitCode", match e.code with
          | some n => .number (.ofInt n)
          | none => .null),
        ("signal", match e.signal with
          | some s => .text s
          | none => .null)] }
  | .outputDump path output => { level := .debug, message := "DIR " ++ path ++ "\n" ++ output }
  | .skipRequested => { level := .info, message := "test program asked to be skipped" }
  | .startFailed t =>
    { level := .error, message := "could not start test program"
      fields := [("err", errorField t)] }
  | .caseFailed expected message =>
    { level := .trace, message := message, fields := [("expected", .text expected)] }
  | .caseTranscript text => { level := .trace, message := "SMTP transaction:\n" ++ text }
  | .caseTold message => { level := .trace, message := message }

end Notice

end FilterBench
