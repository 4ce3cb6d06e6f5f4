import FilterBench.Connection.Event
import FilterBench.Connection.Inbox
import FilterBench.Connection.Schedule
import FilterBench.Timers

/-!
# An SMTP connection to a scripted server

A `Connection` joins the client's inbox to a scripted peer on a clock of milliseconds. Writing
plays the next turn of the peer, waiting for a reply plays what is due later, and a TLS handshake
replaces the channel: nothing of the old channel is heard any more, though what the peer does
there still takes its time, and still can end the connection. What happens is recorded in order.
-/
namespace FilterBench
open Utf8

structure Connection where
  /-- How long to wait for a reply. -/
  timeout : Timeout := { ms := 0 }
  now : Nat := 0
  inbox : Inbox := {}
  /-- The client hears the channel that it writes to. -/
  listening : Bool := true
  /-- The client gave up the channel that it writes to. -/
  dropped : Bool := false
  /-- The peer ended the connection. -/
  ended : Bool := false
  /-- The last handshake failed, and the channel that it was to secure was given up. -/
  spoiled : Bool := false
  turns : List Turn := []
  handshakes : List Attempt := []
  /-- What is left to be played of earlier turns. -/
  upcoming : Schedule := []
  history : List Event := []

namespace Connection

def record (c : Connection) (e : Event) : Connection := { c with history := c.history ++ [e] }

/-- The octets of each write. -/
def sent (c : Connection) : List Bytes := c.history.filterMap Event.sent?

/-- What both sides said, and remarks. -/
def transcript (c : Connection) : List String := c.history.filterMap Event.shown?

/-- Nothing can be said on the channel any more. -/
def isOver (c : Connection) : Bool := c.dropped || c.ended

/-- The newest channel was given up by the client or ended by the peer. -/
def isClosed (c : Connection) : Bool := c.isOver || c.spoiled

def fail (c : Connection) (s : Setback) : Connection := { c with inbox := c.inbox.fail s }

/-- The channel is over; a client that hears it learns why. -/
def finish (c : Connection) (heard : Bool) (s : Setback) : Connection :=
  if heard then c.fail s else c

/-- A chunk arrives. Octets that give no text are not shown. -/
def hear (c : Connection) (chunk : Bytes) : Connection :=
  let (decoder, text) := c.inbox.decoder.read chunk
  let inbox := { c.inbox with decoder := decoder }
  if text = [] then { c with inbox := inbox }
  else
    let (inbox, givenUp) := inbox.readText text
    { c with inbox := inbox, dropped := c.dropped || givenUp }.record (.heard text)

/-- The peer does one thing, unless the channel is over. -/
def act (heard : Bool) (c : Connection) (a : PeerAct) : Connection :=
  if c.isOver then c
  else match a with
    | .sends chunk => if heard then c.hear chunk else c
    | .closes => { c with ended := true }.finish heard .closed
    | .breaksDown message => { c with ended := true }.finish heard (.brokenDown message)
    | .failsWrite _ => c
    | .waits _ => c

/-- What is left of a part once it was played: nothing if the channel is over by then. -/
def left? (c : Connection) (p : Part) : Option Part := if c.isOver then none else p.next?

/-- Plays a part up to its first wait. -/
def play (c : Connection) (p : Part) : Connection :=
  p.turn.prompt.foldl (act (c.listening && !p.stale)) { c with now := max c.now p.due }

/-- Plays parts in their order as long as one is wanted. -/
def playWhile (wanted : Connection → Part → Bool) : Schedule → Connection → Connection
  | [], c => { c with upcoming := [] }
  | p :: rest, c =>
    if wanted c p then playWhile wanted (Schedule.add? ((c.play p).left? p) rest) (c.play p)
    else { c with upcoming := p :: rest }
termination_by s => Schedule.weight s
decreasing_by
  apply Schedule.weight_add?_lt
  intro q h
  simp only [left?] at h
  split at h
  · simp at h
  · exact Part.weight_next? h

/-- Plays what is due until a time, or all that is left. -/
def playUntil (c : Connection) (limit : Option Nat) : Connection :=
  playWhile (fun _ p => limit.all (p.due ≤ ·)) c.upcoming c

/-- The peer does one thing in answer to a write; it may come to fail the write. -/
def answer (r : Connection × Option String) (a : PeerAct) : Connection × Option String :=
  match a with
  | .failsWrite message => if r.1.isOver then r else (r.1, some message)
  | a => (r.1.act r.1.listening a, r.2)

/-- Begins the next turn of the peer: plays what is prompt, which may fail the write that the turn
answers, and schedules the rest. -/
def respond (c : Connection) : Connection × Option String :=
  match c.turns with
  | [] => (c, none)
  | turn :: turns =>
    let (c', error) := turn.prompt.foldl answer ({ c with turns := turns }, none)
    let rest := c'.left? { due := c.now, turn := turn }
    ({ c' with upcoming := Schedule.add? rest c'.upcoming }, error)

/-- Writes octets. A recorded failure refuses the write, and nothing is said then; on a channel
that is over nothing is sent. A write is complete at once: however much is written, the peer takes it
all, and no write is held up by one that does not read. -/
def write (c : Connection) (data : Bytes) : Connection × Except Setback Unit :=
  match c.inbox.failure with
  | some s => (c, .error s)
  | none =>
    if c.isOver then (c.record (.lost data), .error (.writeFailed "socket is closed"))
    else
      match (c.record (.wrote data)).respond with
      | (c, some message) => (c, .error (.writeFailed message))
      | (c, none) => (c, .ok ())

/-- The wait is over: nobody is reading any more. -/
def stopWaiting (c : Connection) : Connection :=
  { c with inbox := { c.inbox with waiter := .idle } }

/-- No reply came in time: the failure is recorded and the channel given up. -/
def expire (c : Connection) (deadline : Nat) : Connection × Option (Except Setback Reply) :=
  let s := Setback.timedOut c.timeout.ms
  let c := c.stopWaiting
  ({ c with now := deadline, dropped := true, inbox := c.inbox.fail s }, some (.error s))

/-- A reader waits, and the part comes before its deadline. -/
def awaits (c : Connection) (p : Part) : Bool :=
  match c.inbox.waiter with
  | .waiting deadline => deadline.all p.isBefore
  | _ => false

/-- Plays what is due, part after part, until the waiting reader has its answer or its deadline
has come. The answer is `none` when there is nothing left to wait for. -/
def settle (c : Connection) : Connection × Option (Except Setback Reply) :=
  let c := playWhile awaits c.upcoming c
  match c.inbox.waiter with
  | .answered a => (c.stopWaiting, some a)
  | .waiting (some deadline) => c.expire deadline
  | _ => (c, none)

/-- Takes a queued reply, or waits for one. -/
def answered (c : Connection) : Connection × Option (Except Setback Reply) :=
  match c.inbox.take? with
  | some (answer, inbox) => ({ c with inbox := inbox }, some answer)
  | none =>
    let inbox := { c.inbox with waiter := .waiting (c.timeout.deadline c.now) }
    { c with inbox := inbox, upcoming := c.upcoming.settled }.settle

/-- Waits for a reply. -/
def await (c : Connection) : Connection × Option (Except Setback Reply) :=
  match c.answered with
  | (c, some (.ok r)) => (c.record (.took r), some (.ok r))
  | unanswered => unanswered

/-- What is left of earlier turns is not heard any more, and does nothing on a channel that the
client gave up. -/
def forsaken (c : Connection) : Schedule :=
  c.upcoming.settled.map fun p =>
    { p with stale := true, turn := if c.dropped then [] else p.turn }

/-- Replaces the channel by a secure one. From here on nothing of the old channel is heard, and
text is read afresh once the handshake has succeeded. After one that failed the client is left
with the old channel, which it does not hear. -/
def secure (c : Connection) : Connection × Option (Except Setback Unit) :=
  let attempt := c.handshakes.headD (.settles 0 none)
  let c := { c with listening := false, handshakes := c.handshakes.tail, upcoming := c.forsaken }
  match attempt with
  | .never => ({ c with dropped := false, spoiled := false }.playUntil none, none)
  | .settles after error =>
    let finish := c.now + after
    let c := { playWhile (fun _ p => p.isBefore finish) c.upcoming c with now := finish }
    match error with
    | some cause => ({ c with spoiled := true }, some (.error (.handshakeFailed cause)))
    | none =>
      ({ c with listening := true, dropped := false, spoiled := false
                inbox := c.inbox.renewed }.record .secured, some (.ok ()))

/-- The client gives the channel up. -/
def close (c : Connection) : Connection :=
  { c with dropped := true }.finish c.listening .closed

/-- Adds a remark to the transcript. -/
def note (c : Connection) (text : String) : Connection := c.record (.remarked text)

/-- Lets some time pass while nobody waits. -/
def advance (c : Connection) (ms : Nat) : Connection :=
  { c.playUntil (some (c.now + ms)) with now := c.now + ms }

/-- The time at which all that is scheduled has passed. -/
def lastTime (c : Connection) : Nat := (c.playUntil none).now

end Connection

/-- What came of connecting: a connection whose peer is about to greet, a failure, or nothing. -/
inductive Arrival where
  | connected (c : Connection)
  | failed (after : Nat) (s : Setback)
  | never

/-- Connects to a peer. Its first turn is played once the client waits for the greeting. -/
def Peer.connect (p : Peer) (host : String) (port : Nat) (timeout : Timeout) : Arrival :=
  match p.arrival with
  | .never => .never
  | .settles after (some cause) => .failed after (.connectFailed host port cause)
  | .settles after none =>
    .connected
      { timeout := timeout, now := after, turns := p.turns.tail, handshakes := p.handshakes
        upcoming := [{ due := after, turn := p.turns.headD [] }] }

end FilterBench
