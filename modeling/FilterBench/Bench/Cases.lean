import FilterBench.Bench.Startup

/-!
# Playing the cases of a directory

A case is played in one session; its expectation judges the decision, and the case is marked. The
cases of a run are played one after another. However the playing ends, the program is stopped
before the run is over.
-/
namespace FilterBench.Bench

/-- Marks a case; a failure flags the directory and its mail server. -/
def mark (b : Bench) (i : Nat) (m : Mark) : Except Thrown Bench :=
  match b.standing.mark i m with
  | .error f => .error (.fault f)
  | .ok s => .ok { b with standing := s, serverFailed := b.serverFailed || m == .failed }

/-- Marks a case as failed and tells what was expected and what was said. -/
def markFailed (b : Bench) (i : Nat) (message : String) : Except Thrown Bench := do
  let b ← b.mark i .failed
  match b.standing.cases[i]? with
  | none => pure b
  | some c =>
    pure ((b.tell (.caseFailed c.expectation.description message)).tell
      (.caseTranscript (String.join c.transcript)))

/-- Marks a case as passed or skipped and tells why. -/
def markTold (b : Bench) (i : Nat) (m : Mark) (message : String) : Except Thrown Bench := do
  let b ← b.mark i m
  pure (b.tell (.caseTold message))

def markAs (b : Bench) (i : Nat) (m : Mark) (message : String) : Except Thrown Bench :=
  match m with
  | .failed => b.markFailed i message
  | m => b.markTold i m message

def stageText : Thrown → String
  | .session stage _ => " at " ++ stage.name
  | _ => ""

/-- Marks a case according to the ending of its session. -/
def conclude (b : Bench) (i : Nat) (ending : Ending) : Except Thrown Bench :=
  match b.standing.cases[i]? with
  | none => .ok b
  | some c =>
    match ending with
    | .error t =>
      b.markFailed i
        ("FAIL " ++ c.filename ++ ": session error" ++ stageText t ++ ": " ++ t.message)
    | .ok decision => do
      let e ← c.expectation.evaluate decision
      match e.verdict with
      | .ok => b.markTold i .ok ("OK " ++ c.filename ++ ": " ++ e.reason)
      | .skip => b.markTold i .skipped ("SKIP " ++ c.filename ++ ": " ++ e.reason)
      | .fail => b.markFailed i ("FAIL " ++ c.filename ++ ": " ++ e.reason)

def route (b : Bench) : Route :=
  { host := b.settings.smtp.host, port := b.server.smtpPort
    timeout := { ms := b.settings.smtp.commandTimeout, timers := b.timers } }

/-- Plays a session of a case with the next peer. Its report is kept and the case hears it. -/
def openSession (b : Bench) (i : Nat) (script : Script) : Bench × SessionReport :=
  let peer := b.world.peers.headD .absent
  let report := Session.run b.route b.settings.accounts script peer
  let b := b.did (.connected b.route.host b.route.port)
  ({ b with
      world := { b.world with peers := b.world.peers.tail }
      standing := b.standing.hear i report.transcript
      reports := b.reports ++ [report]
      calm := max b.calm (b.now + report.quiet) }, report)

/-- Plays one case by itself, on the clock of the bench. There is no result when the session never
ends. -/
def runCase (b : Bench) (i : Nat) : Bench × Option (Except Thrown CaseState) :=
  match b.standing.cases[i]? with
  | none => (b, none)
  | some c =>
    let (b, report) := b.openSession i c.script
    let b := { b with now := b.now + report.elapsed }
    match report.ending with
    | none => (b, none)
    | some ending =>
      let b := b.did .disconnected
      match b.conclude i ending with
      | .error t => (b, some (.error t))
      | .ok b => (b, some (.ok (b.standing.cases[i]?.bind (·.state))))

/-- Ends a run with the program being stopped. -/
def closeRun (b : Bench) (result : Except Thrown Unit) : Bench :=
  { b.stop with run := .closing result }

/-- Begins the session of the next case, or ends the run after the last one. -/
def playCase (b : Bench) (i : Nat) : Bench :=
  match b.standing.cases[i]? with
  | none => b.closeRun (.ok ())
  | some c =>
    let (b, report) := b.openSession i c.script
    let session : OpenSession := { due := some (b.now + report.elapsed), report := report }
    { b with run := .playing i, session := some session }

/-- The session of a case has ended, or nothing more will happen in it. -/
def finishSession (b : Bench) (i : Nat) (s : OpenSession) : Bench :=
  match s.report.ending with
  | none => { b with session := some { s with due := none } }
  | some ending =>
    let b := { b with session := none }.did .disconnected
    match b.conclude i ending with
    | .error t => b.closeRun (.error t)
    | .ok b => b.playCase (i + 1)

def outcome (b : Bench) (status : Status) (error : Option String) : RunOutcome :=
  { path := b.path, status := status, error := error
    cases := b.standing.cases.map fun c => (c.index, c.filename, c.state) }

/-- What a run that has played all its cases comes to. -/
def finalStatus (b : Bench) : Status :=
  if b.standing.failed || b.startError.isSome then .failed else .ok

/-- Marks all cases from a number on as skipped, up to the first that cannot be marked. -/
def skipCases (b : Bench) : Nat → List Case → Bench × Option Thrown
  | _, [] => (b, none)
  | i, c :: rest =>
    match b.markTold i .skipped ("SKIP " ++ c.filename ++ ": directory skipped") with
    | .error t => (b, some t)
    | .ok b => b.skipCases (i + 1) rest

def finishRun (b : Bench) (outcome : Except Thrown RunOutcome) : Bench :=
  { b with run := .finished outcome }

/-- The start of a run has failed: its cases are skipped if the program asked for that, else the
program is stopped. -/
def startFailed (b : Bench) (t : Thrown) : Bench :=
  if t.isSkip then
    let b := b.tell .skipRequested
    match b.skipCases 0 b.standing.cases with
    | (b, none) => b.finishRun (.ok (b.outcome .skipped none))
    | (b, some t) => b.finishRun (.error t)
  else { (b.tell (.startFailed t)).stop with run := .aborting t }

/-- Begins a run of all cases. -/
def beginRun (b : Bench) : Bench :=
  match b.start with
  | .ok b => { b with run := .starting none }
  | .error t => { b with run := .starting (some t) }

/-- What the run does next, if it does not wait for anything. -/
def resumeRun? (b : Bench) : Option Bench :=
  match b.run with
  | .starting (some t) => some (b.startFailed t)
  | .starting none =>
    match b.startup with
    | .started => some (b.playCase 0)
    | .failed t => some (b.startFailed t)
    | _ => none
  | .playing i =>
    match b.session with
    | some s =>
      if s.report.ending.isSome ∧ s.due = some b.now then some (b.finishSession i s) else none
    | none => none
  | .aborting t =>
    if b.stopSettled then some (b.finishRun (.ok (b.outcome .error (some t.message)))) else none
  | .closing (.error t) => if b.stopSettled then some (b.finishRun (.error t)) else none
  | .closing (.ok ()) =>
    if b.stopSettled then some (b.finishRun (.ok (b.outcome b.finalStatus none))) else none
  | _ => none

end FilterBench.Bench
