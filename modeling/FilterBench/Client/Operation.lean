import FilterBench.Client.Commands

/-!
# Operations of a client, one after another

A caller drives a client by single operations and may go on after one has failed. Each accepted
`DATA` opens a content stream with an encoder of its own; a stream can be written to until it is
ended, and ending it counts whether or not the server accepts the message.
-/
namespace FilterBench
open Utf8

structure ContentStream where
  encoder : Stuffing := {}
  isOpen : Bool := true
  deriving DecidableEq, Repr, Inhabited

inductive Operation where
  | hello (name : String)
  | startTls
  | login (m : Mechanism)
  | mail (sender : String)
  | recipient (address : String)
  | reset
  | data
  | write (stream : Nat) (chunk : Bytes)
  | endData (stream : Nat)
  | quit
  | close
  deriving Repr

/-- What a caller keeps between operations. -/
structure Caller where
  introduction : Introduction := none
  streams : List ContentStream := []

namespace Operation

/-- Writes to a stream that is open. The encoder moves on even if the write fails. -/
def writeTo (s : ContentStream) (chunk : Bytes) : ContentStream × Exchange Unit :=
  if s.isOpen then
    let (encoder, out) := s.encoder.encode chunk
    ({ s with encoder := encoder }, Client.write out)
  else (s, throw .streamClosed)

/-- Ends a stream that is open. -/
def endStream (s : ContentStream) : ContentStream × Exchange Unit :=
  if s.isOpen then
    let (encoder, mark) := s.encoder.finish
    ({ encoder := encoder, isOpen := false }, Client.endData mark)
  else (s, throw .streamClosed)

/-- The streams before the exchange ends, and the exchange of an operation. -/
def begin (streams : List ContentStream) : Operation → List ContentStream × Exchange Unit
  | .hello name => (streams, Client.hello name)
  | .startTls => (streams, Client.startTls)
  | .login m => (streams, Client.login m)
  | .mail sender => (streams, Client.mail sender)
  | .recipient address => (streams, Client.recipient address)
  | .reset => (streams, Client.reset)
  | .data => (streams, Client.data)
  | .write i chunk =>
    match streams[i]? with
    | some s => let (s, x) := writeTo s chunk; (streams.set i s, x)
    | none => (streams, throw .noStream)
  | .endData i =>
    match streams[i]? with
    | some s => let (s, x) := endStream s; (streams.set i s, x)
    | none => (streams, throw .noStream)
  | .quit => (streams, Client.quit)
  | .close => (streams, Client.close)

/-- Only an accepted `DATA` opens a stream. -/
def opens : Operation → Bool
  | .data => true
  | _ => false

/-- The whole operation. -/
def dialogue (op : Operation) (caller : Caller) : Dialogue (Except Setback Unit × Caller) := do
  let (streams, exchange) := op.begin caller.streams
  let (outcome, introduction) ← exchange.run.run caller.introduction
  let streams := match outcome with
    | .ok _ => if op.opens then streams ++ [{}] else streams
    | .error _ => streams
  pure (outcome, { introduction := introduction, streams := streams })

end Operation

end FilterBench
