import FilterBench.Program.Exit

/-!
# Scripted jobs

A job is a command that was run. Its process goes on until its own end, or until it ends because it
was killed: on the signal after a while, or else by force. Whichever end comes first is its end. What
is told of the end is told later if others hold the output of the job open, such as children that it
has left behind: only when the output is over is the end known.
-/
namespace FilterBench

/-- What a command will do when it is run. -/
structure JobScript where
  output : String := ""
  /-- When it ends by itself, if it does. -/
  exitAfter : Option Nat := none
  result : End := { code := some 0 }
  /-- How long after a signal it ends, and how. -/
  onKill : Option (Nat × End) := none
  /-- How long after its end others still hold its output open. -/
  held : Nat := 0
  /-- Running it fails at once, with this message. -/
  rejection : Option String := none
  deriving DecidableEq, Repr, Inhabited

/-- A program that is not there. -/
def JobScript.missing : JobScript :=
  { exitAfter := some 0, result := { message := some "no such program" } }

structure Job where
  command : String
  script : JobScript
  /-- The time and the result of the end of its process that comes first so far. -/
  ending : Option (Nat × Exit)
  /-- How long after that its output is still held open. -/
  held : Nat := 0
  /-- Its end is known. -/
  ended : Bool := false
  deriving DecidableEq, Repr, Inhabited

namespace Job

/-- Runs a command. One that is rejected has ended at once. -/
def begin (command : String) (script : JobScript) (now : Nat) : Job :=
  match script.rejection with
  | some why =>
    { command := command, script := script, ending := some (now, .ofRejection why), ended := true }
  | none =>
    { command := command, script := script, held := script.held
      ending := script.exitAfter.map fun ms =>
        (now + ms, .ofEnd command script.output script.result) }

/-- When its output is over and its end is known, and what is then told of it. -/
def report? (j : Job) : Option (Nat × Exit) :=
  j.ending.map fun (time, e) => (time + j.held, e)

/-- When its end will be known, if that is settled and yet to come. -/
def due? (j : Job) : Option Nat := if j.ended then none else j.report?.map (·.1)

/-- Whether its process goes on at a time. One that ends at that very time still does. -/
def alive (j : Job) (now : Nat) : Bool := !j.ended && j.ending.all (now ≤ ·.1)

/-- The end that a signal brings about, or force when the job does not heed it in time. -/
def killedBy (j : Job) (now force : Nat) : Nat × Exit :=
  match j.script.onKill with
  | some (after, e) =>
    if after < force then (now + after, .ofEnd j.command j.script.output e) else byForce
  | none => byForce
where
  byForce : Nat × Exit :=
    (now + force, .ofEnd j.command j.script.output { signal := some (some "SIGKILL") })

/-- Kills the job: by a signal, and by force when the timer for that goes off, after `force`
milliseconds. A process that has ended is past that, even if its output is still held open. -/
def kill (j : Job) (now force : Nat) : Job :=
  if j.alive now then
    let killed := j.killedBy now force
    match j.ending with
    | some own => { j with ending := some (if own.1 ≤ killed.1 then own else killed) }
    | none => { j with ending := some killed }
  else j

def finish (j : Job) : Job := { j with ended := true }

end Job

end FilterBench
