import FilterBench.Bench.Cases

/-!
# The passing of time on a bench

Time passes only when nothing is left to do at the present moment. `resume?` does one thing that
needs no time; `tick?` goes to the next moment at which something happens by itself. Of two things
that are due together the one that was settled earlier happens first.
-/
namespace FilterBench.Bench

/-- Does one thing that needs no time. -/
def resume? (b : Bench) : Option Bench :=
  match b.pendingExit? with
  | some e => some (b.recordExit e)
  | none => b.resumeStart? <|> b.resumeRun?

/-- What can happen by itself. -/
inductive Happening where
  | buildEnds | programEnds | graceEnds | deadlinePasses | portAnswers | sessionEnds
  deriving DecidableEq, Repr

/-- All that is due, with its time, what was settled earlier first. -/
def dues (b : Bench) : List (Nat × Happening) :=
  let building := match b.startup with
    | .building due _ => due
    | _ => none
  let grace := match b.startup with
    | .grace pause => some pause.finish
    | _ => none
  let port := match b.startup with
    | .probing => b.ports.bind PortWait.due?
    | _ => none
  [(building, Happening.buildEnds), (b.program.bind Job.due?, .programEnds),
    (grace, .graceEnds), (b.deadline, .deadlinePasses), (port, .portAnswers),
    (b.session.bind (·.due), .sessionEnds)].filterMap fun (due, h) => due.map fun t => (t, h)

/-- The earliest of some things that are due. -/
def earliest : List (Nat × Happening) → Option (Nat × Happening)
  | [] => none
  | d :: rest =>
    match earliest rest with
    | none => some d
    | some e => some (if d.1 ≤ e.1 then d else e)

def next? (b : Bench) : Option (Nat × Happening) := earliest b.dues

/-- Something happens. -/
def happen (b : Bench) : Happening → Bench
  | .buildEnds =>
    match b.startup with
    | .building _ result => b.finishBuild result
    | _ => b
  | .programEnds =>
    match b.program.bind Job.report? with
    | some (_, e) => b.recordExit e
    | none => b
  | .graceEnds => b.proceedTo .checkedGrace
  | .deadlinePasses => { b with deadline := none }.abortWait .deadline
  | .portAnswers => { b with ports := b.ports.map PortWait.proceed }.finishWait
  | .sessionEnds =>
    match b.run, b.session with
    | .playing i, some s => b.finishSession i s
    | _, _ => b

/-- Goes to the next moment at which something happens, unless that is after `limit`. -/
def tick? (b : Bench) (limit : Option Nat) : Option Bench :=
  match b.next? with
  | none => none
  | some (time, h) =>
    if limit.all (time ≤ ·) then some ({ b with now := max b.now time }.happen h) else none

/-- Does what needs no time until nothing of it is left; at most `fuel` things. -/
def settle : Nat → Bench → Bench
  | 0, b => b
  | fuel + 1, b =>
    match b.resume? with
    | some b => settle fuel b
    | none => b

/-- More than the number of things that can be done at one moment. -/
def momentBound (b : Bench) : Nat := 32 + 2 * b.standing.cases.length

/-- Lets time pass up to a limit, or until nothing happens any more; at most `fuel` moments. -/
def passTime (limit : Option Nat) : Nat → Bench → Bench
  | 0, b => b
  | fuel + 1, b =>
    let b := settle b.momentBound b
    match b.tick? limit with
    | some b => passTime limit fuel b
    | none => b

/-- More than the number of moments at which something can happen: a probe and a pause for each
tenth of a second of the wait for the port, and a few for each case. -/
def timeBound (b : Bench) : Nat :=
  32 + 2 * (b.settings.readinessTimeout / 100 + 2) + 2 * b.standing.cases.length

/-- Does everything that needs no time. -/
def settled (b : Bench) : Bench := settle b.momentBound b

/-- Lets `ms` milliseconds pass. -/
def advance (b : Bench) (ms : Nat) : Bench :=
  let limit := b.now + ms
  let b := passTime (some limit) b.timeBound b
  settled { b with now := limit }

/-- Whether a run is over. -/
def isOver (b : Bench) : Bool :=
  match b.run with
  | .finished _ => true
  | _ => false

/-- Lets time pass until a run is over, or until nothing happens any more. -/
def runToEnd : Nat → Bench → Bench
  | 0, b => b
  | fuel + 1, b =>
    let b := b.settled
    if b.isOver then b
    else match b.tick? none with
      | some b => runToEnd fuel b
      | none => b

/-- Runs all cases, to the end or until nothing happens any more, on old connections neither. -/
def runCases (b : Bench) : Bench :=
  let b := runToEnd b.timeBound b.beginRun
  if b.isOver then b else { b with now := max b.now b.calm }

end FilterBench.Bench
