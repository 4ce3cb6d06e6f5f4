import FilterBench.Client.Commands

/-!
# Scripted sessions

A script is a list of steps that one SMTP session carries out in order. A reply that a step does
not accept is the decision of the session at the stage of that step; anything else that goes
wrong is a fault at that stage. Only a body whose final reply accepts the message ends a session
well, and what happens when taking leave does not count.
-/
namespace FilterBench
open Utf8

inductive Step where
  | helo (name : String)
  | startTls
  | login (name : String)
  | sender (address : String)
  | recipient (address : String)
  | reset
  | header (content : Bytes)
  | body (content : Bytes)
  /-- A step of a kind that no session knows. -/
  | unknown (kind : String)
  deriving DecidableEq, Repr, Inhabited

abbrev Script := List Step

/-- How a session ends: with a decision, or with something thrown at a stage. -/
abbrev Ending := Except Thrown Decision

namespace Session

/-- The part of a session after the greeting; its exception is an ending reached early. -/
abbrev Play := ExceptT Ending (StateT Introduction Dialogue)

/-- What a setback at a stage makes of the session. -/
def endingOf (stage : Stage) : Setback → Ending
  | .refused r =>
    let refusal := Setback.refusal r
    .ok { code := refusal.code, message := refusal.message, stage := stage }
  | s => .error (s.thrown.inSession stage)

/-- Carries out a part of a step on behalf of a stage. -/
def during {α : Type} (stage : Stage) (x : Exchange α) : Play α :=
  ExceptT.adapt (endingOf stage) x

def faulty {α : Type} (stage : Stage) (code : FaultCode) (message : String) : Play α :=
  throw (.error (.session stage { code := code, message := message }))

/-- Writes content to the open stream. -/
def writeContent (stream : Option Stuffing) (content : Bytes) : Play Stuffing :=
  match stream with
  | none => during .any (throw .noStream)
  | some s => do
    let (s, out) := s.encode content
    during .any (Client.write out)
    pure s

/-- Takes leave after the message was accepted; that this fails is only remarked. -/
def takeLeave : Exchange Unit :=
  try Client.quit
  catch s =>
    let remark := "# QUIT after queued message failed: " ++ s.message ++ "\n"
    (liftM (Dialogue.request (.note remark)) : Exchange Unit)

/-- Plays the steps of a script with the stream that the last header opened. -/
def playSteps (accounts : Accounts) : Script → Option Stuffing → Play Decision
  | [], _ => faulty .eom .incompleteInput "incomplete input sequence"
  | .helo name :: rest, stream => do
    during .helo (Client.hello name)
    playSteps accounts rest stream
  | .startTls :: rest, stream => do
    during .any Client.startTls
    playSteps accounts rest stream
  | .login name :: rest, stream => do
    during .any (Client.login (Plain.mechanism ⟨"", name, accounts.passwordFor name⟩))
    playSteps accounts rest stream
  | .sender address :: rest, stream => do
    during .from (Client.mail address)
    playSteps accounts rest stream
  | .recipient address :: rest, stream => do
    during .to (Client.recipient address)
    playSteps accounts rest stream
  | .reset :: rest, stream => do
    during .any Client.reset
    playSteps accounts rest stream
  | .header content :: rest, _ => do
    during .data Client.data
    let stream ← writeContent (some {}) content
    playSteps accounts rest (some stream)
  | .body content :: _, stream => do
    let stream ← writeContent stream content
    during .eom (Client.endData stream.finish.2)
    during .any takeLeave
    pure .queued
  | .unknown kind :: _, _ => faulty .any .unknownStep ("unknown step " ++ kind)

/-- The ending that a play comes to, whether early or not. -/
def ending : Except Ending Decision → Ending
  | .ok d => .ok d
  | .error e => e

/-- A whole session on a fresh connection. A refused greeting is a fault, not a decision. -/
def dialogue (accounts : Accounts) (script : Script) : Dialogue Ending := do
  let (greeted, introduction) ← Client.greeting.run.run none
  match greeted with
  | .error s => pure (.error (s.thrown.inSession .any))
  | .ok _ =>
    let (result, _) ← (playSteps accounts script none).run.run introduction
    let _ ← Dialogue.request .close
    pure (ending result)

end Session

/-- What there is to tell of a session: how it ended, if it did, and when; when nothing more
happens on the connection; what happened there, and whether the connection is over. -/
structure SessionReport where
  ending : Option Ending
  elapsed : Nat
  quiet : Nat
  history : List Event
  closed : Bool

def SessionReport.sent (r : SessionReport) : List Bytes := r.history.filterMap Event.sent?

def SessionReport.transcript (r : SessionReport) : List String :=
  r.history.filterMap Event.shown?

/-- How a client reaches a mail server. -/
structure Route where
  host : String := "127.0.0.1"
  port : Nat := 2525
  /-- How long to wait for each reply. -/
  timeout : Timeout := { ms := 30000 }
  deriving DecidableEq, Repr, Inhabited

namespace Session

/-- What is left of a connection when the world has nothing more to happen on it. -/
def report (r : Connection × Option Ending) : SessionReport :=
  let (c, ending) := r
  { ending := ending
    elapsed := c.now, quiet := c.lastTime
    history := c.history, closed := c.isClosed }

/-- Connects to a peer and plays a script. -/
def run (route : Route) (accounts : Accounts) (script : Script) (peer : Peer) : SessionReport :=
  match peer.connect route.host route.port route.timeout with
  | .never => ⟨none, 0, 0, [], false⟩
  | .failed after s => ⟨some (.error (s.thrown.inSession .any)), after, after, [], true⟩
  | .connected c => report (c.run (dialogue accounts script))

end Session

end FilterBench
