import FilterBench.Fault
import FilterBench.Reply.Status
import FilterBench.Text.Quoted

/-!
# What can end a client operation

Every way in which an operation of the SMTP client can end early, by its cause, and how each is
told: a refused reply as a refusal with the text of the reply, all others as faults.
-/
namespace FilterBench

inductive Setback where
  /-- The server's reply has a code that the command does not accept. -/
  | refused (reply : Reply)
  | timedOut (ms : Nat)
  | malformed (line : List Char)
  | connectFailed (host : String) (port : Nat) (cause : String)
  | handshakeFailed (cause : String)
  | writeFailed (cause : String)
  | brokenDown (cause : String)
  | closed
  /-- The server asks for more during a login that has nothing more to say. -/
  | challenged (mechanism : String)
  | streamClosed
  | noStream
  deriving DecidableEq, Repr, Inhabited

namespace Setback

/-- A fault of the transport, with the message of its cause. -/
def transport (what cause : String) : Thrown :=
  .fault { code := .smtpTransport, message := what ++ ": " ++ cause
           details := some [("cause", .text cause)] }

def protocol (message : String) : Thrown := .fault { code := .smtpProtocol, message := message }

def refusal (r : Reply) : Refusal :=
  let (status, message) := r.split
  { code := r.code, message := String.ofList message, status := status.map String.ofList }

def thrown : Setback → Thrown
  | .refused r => .refusal (refusal r)
  | .timedOut ms =>
    .fault { code := .smtpTimeout
             message := "No reply from server within " ++ Numeral.intText ms ++ "ms" }
  | .malformed line => protocol ("Malformed SMTP reply line: " ++ String.ofList (Quoted.encode line))
  | .connectFailed host port cause =>
    transport ("connect to " ++ host ++ ":" ++ Numeral.intText port) cause
  | .handshakeFailed cause => transport "TLS negotiation failed" cause
  | .writeFailed cause => transport "write failed" cause
  | .brokenDown cause => transport "connection error" cause
  | .closed => .fault { code := .smtpTransport, message := "connection closed" }
  | .challenged mechanism => protocol ("Unexpected server challenge during AUTH " ++ mechanism)
  | .streamClosed => protocol "DATA stream already closed"
  | .noStream => protocol "no DATA stream open: BODY needs a preceding HEADER step"

def message (s : Setback) : String := s.thrown.message

end Setback

end FilterBench
