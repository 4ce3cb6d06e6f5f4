import FilterBench.Numeral.Shortest

/-!
# How programs end

`End` is what the operating system reports of a program that was run, with any part missing;
`Exit` is what the bench keeps of it. A program whose report has no exit code and says nothing of a
signal was never started, and the report's own message says why.
-/
namespace FilterBench

structure Exit where
  code : Option Int
  signal : Option String
  /-- All that the program printed. -/
  output : String
  /-- Why it could not be started. -/
  startError : Option String := none
  timedOut : Bool := false
  deriving DecidableEq, Repr, Inhabited

structure End where
  code : Option Int := none
  /-- The report can say outright that there was no signal. -/
  signal : Option (Option String) := none
  output : Option String := none
  timedOut : Bool := false
  message : Option String := none
  deriving DecidableEq, Repr, Inhabited

namespace Exit

/-- The exit of a command that printed `printed` unless its report says otherwise. -/
def ofEnd (command printed : String) (e : End) : Exit :=
  let started := e.code.isSome || e.signal.isSome
  { code := e.code, signal := e.signal.join, output := e.output.getD printed, timedOut := e.timedOut
    startError := if started then none else some (e.message.getD ("failed to spawn " ++ command)) }

/-- The exit of a command that was not even tried. -/
def ofRejection (message : String) : Exit :=
  { code := none, signal := none, output := "", startError := some message }

/-- The exit in words: a failed start before a signal, a signal before a code. -/
def describe (e : Exit) : String :=
  match e.startError, e.signal with
  | some why, _ => "failed to start: " ++ why
  | none, some signal => "terminated by " ++ signal
  | none, none => "exit status " ++ (match e.code with
    | some n => Numeral.intText n
    | none => "null")

end Exit

end FilterBench
