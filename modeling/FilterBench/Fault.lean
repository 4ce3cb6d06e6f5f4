import FilterBench.Value
import FilterBench.Decision

/-!
# Faults

A `Fault` is the bench's own kind of error: a code, a message, and details when there are any.
`Thrown` is whatever can end an activity early: a fault, a fault of a session with the stage at
which it struck, a server's refusal, some other error, or a bare value. Every one of them has a
message and can be told as a fault.
-/
namespace FilterBench

inductive FaultCode where
  | configInvalid | buildFailed | launchFailed | testSkipped | readinessFailed
  | smtpTransport | smtpProtocol | smtpTimeout | unknownStep | incompleteInput | stateAlreadySet
  deriving DecidableEq, Repr, Inhabited

namespace FaultCode

def name : FaultCode → String
  | .configInvalid => "CONFIG_INVALID"
  | .buildFailed => "BUILD_FAILED"
  | .launchFailed => "LAUNCH_FAILED"
  | .testSkipped => "TEST_SKIPPED"
  | .readinessFailed => "READINESS_FAILED"
  | .smtpTransport => "SMTP_TRANSPORT"
  | .smtpProtocol => "SMTP_PROTOCOL"
  | .smtpTimeout => "SMTP_TIMEOUT"
  | .unknownStep => "UNKNOWN_STEP"
  | .incompleteInput => "INCOMPLETE_INPUT"
  | .stateAlreadySet => "STATE_ALREADY_SET"

def all : List FaultCode :=
  [.configInvalid, .buildFailed, .launchFailed, .testSkipped, .readinessFailed, .smtpTransport,
    .smtpProtocol, .smtpTimeout, .unknownStep, .incompleteInput, .stateAlreadySet]

def ofName? (name : String) : Option FaultCode := all.find? fun c => c.name == name

end FaultCode

structure Fault where
  code : FaultCode
  message : String
  details : Option (List (String × Value)) := none
  deriving Repr, Inhabited

/-- A reply whose code the command did not accept. -/
structure Refusal where
  code : Int
  message : String
  status : Option String := none
  deriving DecidableEq, Repr, Inhabited

/-- An error of some other kind, with the name of its kind and a code of its own if it has one. -/
structure OtherError where
  kind : String := "Error"
  code : Option String := none
  message : String
  deriving DecidableEq, Repr, Inhabited

inductive Thrown where
  | fault (f : Fault)
  | session (stage : Stage) (f : Fault)
  | refusal (r : Refusal)
  | other (e : OtherError)
  | value (v : Value)
  deriving Repr, Inhabited

namespace Thrown

def message : Thrown → String
  | .fault f => f.message
  | .session _ f => f.message
  | .refusal r => r.message
  | .other e => e.message
  | .value v => v.shown

/-- Whether it says that the test program asked to be left out. -/
def isSkip : Thrown → Bool
  | .fault f => f.code == .testSkipped
  | .session _ f => f.code == .testSkipped
  | _ => false

/-- Tells anything thrown as a fault: a refusal breaks the protocol, all else the transport. -/
def toFault : Thrown → Fault
  | .fault f => f
  | .session _ f => f
  | .refusal r =>
    { code := .smtpProtocol, message := r.message
      details := some [("replyCode", .number (.ofInt r.code))] }
  | t => { code := .smtpTransport, message := t.message }

/-- The same, as the fault of a session. -/
def inSession (t : Thrown) (stage : Stage) : Thrown := .session stage t.toFault

/-- The name of its sort, as a log shows it. -/
def sort : Thrown → String
  | .fault _ => "RunnerError"
  | .session _ _ => "SessionError"
  | .refusal _ => "SmtpReplyError"
  | .other e => e.kind
  | .value _ => "thrown"

end Thrown

end FilterBench
