import FilterBench.Pause
import FilterBench.Peer

/-!
# Waiting for a port

A port is probed until it accepts a connection: after a probe has failed there is a pause, then
the next probe starts. Every probe opens a socket and closes it when its outcome is known. The
wait can be aborted at any time; it then ends with the last error of a probe, where a probe that
the abort itself cuts short counts as failed for the reason of the abort.
-/
namespace FilterBench

/-- Why a wait is aborted: with an error, or with something that is none. -/
abbrev AbortReason := Option OtherError

namespace AbortReason

def default : AbortReason := some { kind := "AbortError", message := "This operation was aborted" }

def deadline : AbortReason :=
  some { kind := "TimeoutError", message := "The operation was aborted due to timeout" }

/-- The error that a wait without one of its own ends with. -/
def error (r : AbortReason) : OtherError := r.getD { message := "port wait aborted" }

end AbortReason

structure Probe where
  start : Nat
  closed : Option Nat := none
  deriving DecidableEq, Repr, Inhabited

namespace PortWait

inductive Phase where
  /-- A socket is open. Its outcome comes at a time, with an error if it fails, or never. -/
  | probing (outcome : Option (Nat × Option String))
  | pausing
  | settled (result : Except OtherError Unit)
  deriving Repr

end PortWait

/-- How the probe of a number that starts at a time turns out. -/
abbrev PortScript := Nat → Nat → Attempt

structure PortWait where
  timers : Timers
  /-- How long the pause after a failed probe is set to be. -/
  interval : Nat := 100
  script : PortScript
  /-- All probes so far, the first one first. -/
  probes : List Probe := []
  lastError : Option OtherError := none
  /-- The pause that goes on, if one does. -/
  pause : Option Pause := none
  phase : PortWait.Phase

namespace PortWait

def startProbe (w : PortWait) (now : Nat) : PortWait :=
  let outcome := match w.script w.probes.length now with
    | .never => none
    | .settles after error => some (now + after, error)
  { w with probes := w.probes ++ [{ start := now }], phase := .probing outcome }

/-- Closes the socket of the last probe. -/
def closeSocket (w : PortWait) (now : Nat) : PortWait :=
  match w.probes.getLast? with
  | some p => { w with probes := w.probes.dropLast ++ [{ p with closed := some now }] }
  | none => w

def settle (w : PortWait) (result : Except OtherError Unit) : PortWait :=
  { w with phase := .settled result }

/-- Ends an aborted wait. -/
def giveUp (w : PortWait) (reason : AbortReason) : PortWait :=
  w.settle (.error (w.lastError.getD reason.error))

/-- Begins a wait, unless it is aborted already. -/
def start (timers : Timers) (script : PortScript) (interval now : Nat)
    (aborted : Option AbortReason) : PortWait :=
  let w : PortWait := { timers := timers, interval := interval, script := script, phase := .pausing }
  match aborted with
  | some reason => w.giveUp reason
  | none => w.startProbe now

/-- When something happens by itself. -/
def due? (w : PortWait) : Option Nat :=
  match w.phase with
  | .probing outcome => outcome.map (·.1)
  | .pausing => w.pause.map (·.finish)
  | .settled _ => none

/-- What is due happens: a probe succeeds or fails, or a pause is over. -/
def proceed (w : PortWait) : PortWait :=
  match w.phase with
  | .probing (some (time, none)) => (w.closeSocket time).settle (.ok ())
  | .probing (some (time, some message)) =>
    { w.closeSocket time with
      lastError := some { message := message }, phase := .pausing
      pause := some (.begin w.timers time w.interval) }
  | .probing none => w
  | .pausing =>
    match w.pause with
    | some p => { w with pause := none }.startProbe p.finish
    | none => w
  | .settled _ => w

def abort (w : PortWait) (now : Nat) (reason : AbortReason) : PortWait :=
  match w.phase with
  | .probing _ => ({ w.closeSocket now with lastError := some reason.error }).giveUp reason
  | .pausing => { w with pause := none }.giveUp reason
  | .settled _ => w

def result? (w : PortWait) : Option (Except OtherError Unit) :=
  match w.phase with
  | .settled r => some r
  | _ => none

/-- A wait on a clock of its own, aborted at a time if at all, before anything else that is due
then; at most `fuel` things happen. The number is the time at which it ended, or at which nothing
was left to happen. -/
def run (abortion : Option (Nat × AbortReason)) : Nat → Nat → PortWait → Nat × PortWait
  | 0, now, w => (now, w)
  | fuel + 1, now, w =>
    match w.phase with
    | .settled _ => (now, w)
    | _ =>
      match w.due?, abortion with
      | some t, some (a, reason) =>
        if a ≤ t then (a, w.abort a reason) else run abortion fuel t w.proceed
      | some t, none => run abortion fuel t w.proceed
      | none, some (a, reason) => (a, w.abort a reason)
      | none, none => (now, w)

end PortWait

end FilterBench
