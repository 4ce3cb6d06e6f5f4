import FilterBench.Bench.Basic

/-!
# Starting and stopping the test program

`start` makes the scratch directory, builds the program, launches it, gives it a grace period to
end early, and waits for its port. `stop` may be called at any moment: it kills the program that
the bench holds at that moment, once, and settles when the end of the program has been recorded.
`resume?` is what a start does next when nothing has to happen first; the steps named `finish…`
are what it does when something did.
-/
namespace FilterBench.Bench

/-- Goes on with a start unless somebody asked to stop. -/
def proceedTo (b : Bench) (next : Startup) : Bench :=
  match b.stopping with
  | .no => { b with startup := next }
  | .asked _ => { b with startup := .halting }

def failStart (b : Bench) (t : Thrown) : Bench := { b with startup := .failed t }

def fault (code : FaultCode) (message : String) (details : List (String × Value)) : Thrown :=
  .fault { code := code, message := message, details := some details }

/-- What a start that was refused is told. -/
def alreadyUsed (b : Bench) : Thrown :=
  .fault { code := .launchFailed, message := b.path ++ " was already started or stopped" }

def stoppedWhileStarting (b : Bench) : Thrown :=
  fault .launchFailed (b.path ++ " was stopped while starting") [("dir", .text b.path)]

def skipped (b : Bench) : Thrown := fault .testSkipped "test skipped" [("dir", .text b.path)]

def endedEarly (b : Bench) (e : Exit) : Thrown :=
  fault .launchFailed ("test program " ++ e.describe)
    [("dir", .text b.path), ("output", .text e.output)]

def neverReady (b : Bench) (e : OtherError) : Thrown :=
  fault .readinessFailed
    ("port " ++ toString b.settings.milterPort ++ " never became ready: " ++ e.message)
    [("dir", .text b.path),
      ("exit", match b.exit with
        | some x => .text x.describe
        | none => .null)]

/-- Begins a start, or refuses it: a bench starts one program, and none after it was stopped. -/
def start (b : Bench) : Except Thrown Bench :=
  match b.startup, b.stopping with
  | .idle, .no => .ok ({ b with startup := .makingScratch }.did (.madeScratch b.scratchDir))
  | _, _ => .error b.alreadyUsed

/-- The next command that is run does what the world has next. -/
def nextJob (b : Bench) (c : CommandLine) : Bench × Job :=
  let script := b.world.jobs.headD .missing
  let world := { b.world with jobs := b.world.jobs.tail }
  ({ b with world := world }.did (.ran c), .begin c.program script b.now)

/-- Begins the build. A build command that is rejected has its result at once. -/
def beginBuild (b : Bench) : Bench :=
  match b.world.builder with
  | some builder =>
    { b with startup := .building (some (b.now + builder.ms)) builder.result }.did
      (.built b.path b.executable)
  | none =>
    let (b, p) := b.nextJob (Build.command b.settings.build b.path b.executable)
    let result (e : Exit) : Except Thrown Unit :=
      (Build.outcome b.settings.build b.path b.executable e).mapError .fault
    match p.report?, p.ended with
    | some (_, e), true => { b with startup := .built (result e) }
    | some (time, e), false => { b with startup := .building (some time) (result e) }
    | none, _ => { b with startup := .building none (.ok ()) }

/-- The build has its result. -/
def finishBuild (b : Bench) (result : Except Thrown Unit) : Bench :=
  match result with
  | .error t => b.failStart t
  | .ok () => b.proceedTo .checkedBuild

/-- The arguments of the test program: where its filter listens, and the words about the server. -/
def programArguments (b : Bench) : List String :=
  ["-network", "tcp", "-address", ":" ++ toString b.settings.milterPort,
    "-tags", String.intercalate " " b.server.tags]

/-- Launches the test program and begins the grace period. -/
def launch (b : Bench) : Bench :=
  let (b, p) := b.nextJob { program := b.executable, arguments := b.programArguments }
  let pause := Pause.begin b.timers b.now b.settings.startupGrace
  { b with program := some p, running := true, startup := .grace pause }

/-- The grace period is over: a program whose end is known by now is skipped or has failed, and for
any other the wait for its port begins. If the time for that is more than a deadline can be ahead, the
start fails at once, and the program goes on. -/
def judgeGrace (b : Bench) : Bench :=
  match b.exit with
  | some e =>
    let b := { b with running := false }
    b.failStart (if e.code = some b.settings.exitCodes.skip then b.skipped else b.endedEarly e)
  | none =>
    match b.timers.refusal? b.settings.readinessTimeout with
    | some e => b.failStart (.other e)
    | none =>
      { b with startup := .probing
               deadline := some (b.now + b.timers.delay b.settings.readinessTimeout)
               ports := some (.start b.timers b.world.port 100 b.now none) }

/-- Goes on once the wait for the port has ended. -/
def finishWait (b : Bench) : Bench :=
  match b.startup, b.ports.bind PortWait.result? with
  | .probing, some (.ok ()) => b.proceedTo .checkedReady
  | .probing, some (.error e) => b.proceedTo (.checkedUnready e)
  | _, _ => b

/-- How long a program may take to heed the signal to end. -/
def killDelay (b : Bench) : Nat := b.timers.delay b.settings.killTimeout

/-- Asks the program to end, unless that was done before. -/
def stop (b : Bench) : Bench :=
  match b.stopping with
  | .asked _ => b
  | .no =>
    let b' :=
      if b.running then
        let alive := b.program.any (Job.alive · b.now)
        { b with running := false, killed := true
                 program := b.program.map (Job.kill · b.now b.killDelay) }.did
          (.killed "SIGTERM" b.settings.killTimeout alive)
      else b
    { b' with stopping := .asked b.program.isSome }

/-- A start that gave up is skipped if the program, once it has ended, asked for that. -/
def judgeGivenUp (b : Bench) (e : OtherError) : Thrown :=
  if (b.exit.bind (·.code)) = some b.settings.exitCodes.skip then b.skipped else b.neverReady e

/-- What the start does next, if it does not wait for anything. -/
def resumeStart? (b : Bench) : Option Bench :=
  match b.startup with
  | .makingScratch =>
    match b.world.scratchError with
    | some e => some (b.failStart (.other e))
    | none => some b.beginBuild
  | .built result => some (b.finishBuild result)
  | .checkedBuild => some b.launch
  | .checkedGrace => some b.judgeGrace
  | .checkedReady => some { b with startup := .started }
  | .checkedUnready e => some { b.stop with startup := .givingUp e }
  | .givingUp e => if b.stopSettled then some (b.failStart (b.judgeGivenUp e)) else none
  | .halting => if b.stopSettled then some (b.failStart b.stoppedWhileStarting) else none
  | _ => none

/-- Breaks off a wait for the port. -/
def abortWait (b : Bench) (reason : AbortReason) : Bench :=
  match b.startup with
  | .probing => { b with ports := b.ports.map (PortWait.abort · b.now reason) }.finishWait
  | _ => b

/-- Records the end of the program: it is told when it was not expected, the program's output is
told then or when a case has failed, and whatever waits for the program goes on. -/
def recordExit (b : Bench) (e : Exit) : Bench :=
  let b := { b with exit := some e, program := b.program.map Job.finish }.did (.sawExit e)
  let unexpected := !b.isExpected e
  let b := if unexpected then b.tell (.unexpectedExit e) else b
  let b := if unexpected || b.standing.failed then b.tell (.outputDump b.path e.output) else b
  match b.startup with
  | .grace _ => b.proceedTo .checkedGrace
  | _ => b.abortWait .default

/-- The end of a program that was rejected when it was launched. -/
def pendingExit? (b : Bench) : Option Exit :=
  match b.exit, b.program with
  | none, some p => if p.ended then p.report?.map (·.2) else none
  | _, _ => none

end FilterBench.Bench
