import FilterBench.Case
import FilterBench.Notice
import FilterBench.PortWait
import FilterBench.Program.Build
import FilterBench.Program.Job

/-!
# The bench

A bench runs the cases of one directory: it builds and starts the directory's test program, waits
until the program's filter port accepts connections, plays the cases against a mail server and
stops the program. A `Bench` is all of that at one moment, together with the world around it, of
which everything that will happen is given beforehand: the clock, the jobs, the port and the
mail servers. What the bench has done is kept in its history, what it has told in its notices.
-/
namespace FilterBench

structure MailServer where
  name : String := "mta"
  /-- Words that the test program is told about the server. -/
  tags : List String := []
  smtpPort : Nat := 2525
  deriving DecidableEq, Repr, Inhabited

/-- A port of a filter that accepts connections from some time on until another one: what it does
otherwise, and how long either takes. -/
structure FilterPort where
  openAt : Option Nat := none
  closeAt : Option Nat := none
  silent : Bool := false
  latency : Nat := 0
  deriving DecidableEq, Repr, Inhabited

namespace FilterPort

def isOpen (p : FilterPort) (time : Nat) : Bool :=
  (match p.openAt with
  | some t => decide (t ≤ time)
  | none => false) &&
  (match p.closeAt with
  | some t => decide (time < t)
  | none => true)

/-- How a probe turns out that starts at a time. -/
def answer (p : FilterPort) (port time : Nat) : Attempt :=
  if p.isOpen time then .settles p.latency none
  else if p.silent then .never
  else .settles p.latency (some ("connect ECONNREFUSED 127.0.0.1:" ++ Numeral.intText port))

/-- How all its probes turn out. -/
def script (p : FilterPort) (port : Nat) : PortScript := fun _ time => p.answer port time

end FilterPort

theorem isSkip_of_ok (t : Thrown) (h : Except.ok () = Except.error t) : t.isSkip = false := nomatch h

/-- What builds a test program instead of the build command. Only the program itself can ask to be
left out, so that a build never fails for that. -/
structure Builder where
  ms : Nat := 0
  result : Except Thrown Unit := .ok ()
  earnest : ∀ t, result = .error t → t.isSkip = false := by exact isSkip_of_ok

/-- What will happen around a bench. -/
structure World where
  /-- Making the scratch directory fails with this. -/
  scratchError : Option OtherError := none
  /-- What the commands do that are run, in the order in which they are run. -/
  jobs : List JobScript := []
  /-- How the probes of the filter's port turn out. -/
  port : PortScript := fun _ _ => .never
  /-- The mail server's side of the sessions, in their order. -/
  peers : List Peer := []
  /-- What makes the program, when it is not made by the build command. -/
  builder : Option Builder := none
  deriving Inhabited

inductive Deed where
  | madeScratch (path : String)
  | built (source output : String)
  | ran (c : CommandLine)
  | killed (signal : String) (forceAfter : Nat) (alive : Bool)
  | connected (host : String) (port : Nat)
  | disconnected
  /-- The end of the test program was recorded. -/
  | sawExit (e : Exit)
  deriving DecidableEq, Repr

/-- Where the start of the test program stands. The steps named for something that was checked
come right after a check that nobody asked to stop, before what the check allows. -/
inductive Startup where
  | idle
  | makingScratch
  /-- The build ends at a time, if it does, with a result. -/
  | building (due : Option Nat) (result : Except Thrown Unit)
  | built (result : Except Thrown Unit)
  | checkedBuild
  | grace (pause : Pause)
  | checkedGrace
  | probing
  | checkedReady
  | checkedUnready (e : OtherError)
  /-- The port was not ready: the program is being stopped. -/
  | givingUp (e : OtherError)
  /-- Somebody asked to stop: the start fails once the program has ended. -/
  | halting
  | started
  | failed (t : Thrown)

/-- Whether the bench was asked to stop, and whether stopping has to wait for the program to end. -/
inductive Stopping where
  | no
  | asked (awaitsExit : Bool)
  deriving DecidableEq, Repr, Inhabited

inductive Status where
  | ok | failed | skipped | error
  deriving DecidableEq, Repr, Inhabited

def Status.name : Status → String
  | .ok => "ok"
  | .failed => "failed"
  | .skipped => "skipped"
  | .error => "error"

/-- What a run of the directory comes to. -/
structure RunOutcome where
  path : String
  status : Status
  cases : List (Nat × String × CaseState)
  error : Option String := none

/-- Where a run of all cases stands. -/
inductive Run where
  | none
  /-- Waits for the start; a start that was refused fails it at once. -/
  | starting (refused : Option Thrown)
  | playing (i : Nat)
  /-- The start has failed, and the program is being stopped. -/
  | aborting (t : Thrown)
  /-- The cases are done, or one of them broke off the run; the program is being stopped. -/
  | closing (result : Except Thrown Unit)
  | finished (outcome : Except Thrown RunOutcome)

/-- A session that is being played: when it ends, or when nothing more happens in it. -/
structure OpenSession where
  due : Option Nat
  report : SessionReport

structure Bench where
  index : Nat := 0
  path : String := "/src/tests/basic"
  settings : Settings := {}
  timers : Timers := .limited
  server : MailServer := {}
  world : World := {}
  now : Nat := 0
  startup : Startup := .idle
  /-- The test program that was launched, if one was. -/
  program : Option Job := none
  /-- The bench holds a program that it would have to stop. -/
  running : Bool := false
  /-- The end of the program, once it is recorded. -/
  exit : Option Exit := none
  stopping : Stopping := .no
  /-- The program was killed. -/
  killed : Bool := false
  /-- When the wait for the port is to be broken off. -/
  deadline : Option Nat := none
  ports : Option PortWait := none
  standing : Standing := {}
  serverFailed : Bool := false
  run : Run := .none
  session : Option OpenSession := none
  reports : List SessionReport := []
  /-- When nothing more happens on the connections of past sessions. -/
  calm : Nat := 0
  history : List (Nat × Deed) := []
  notices : List Notice := []

namespace Bench

def tell (b : Bench) (n : Notice) : Bench := { b with notices := b.notices ++ [n] }

def did (b : Bench) (d : Deed) : Bench := { b with history := b.history ++ [(b.now, d)] }

def scratchDir (b : Bench) : String :=
  Path.join b.settings.scratchDir ("test-" ++ Numeral.intText b.index)

def executable (b : Bench) : String := Path.join b.scratchDir "test.exe"

/-- An end that needs no excuse: an exit code with a meaning, or the signal of a stop. -/
def isExpected (b : Bench) (e : Exit) : Bool :=
  e.code == some b.settings.exitCodes.clean || e.code == some b.settings.exitCodes.skip ||
    (b.killed && e.signal == some "SIGTERM")

/-- The end of the program as a fault, when it has ended in a way that was not expected. -/
def startError (b : Bench) : Option Fault :=
  match b.exit with
  | none => none
  | some e =>
    if b.isExpected e then none
    else some
      { code := .launchFailed, message := "test program " ++ e.describe
        details := some
          [("exitCode", match e.code with
            | some n => .number (.ofInt n)
            | none => .null),
          ("signal", match e.signal with
            | some s => .text s
            | none => .null)] }

def stopSettled (b : Bench) : Bool :=
  match b.stopping with
  | .no => false
  | .asked awaitsExit => !awaitsExit || b.exit.isSome

/-- Marks the directory and its mail server as having a failure. -/
def flag (b : Bench) : Bench := { b with standing := b.standing.flag, serverFailed := true }

end Bench

end FilterBench
