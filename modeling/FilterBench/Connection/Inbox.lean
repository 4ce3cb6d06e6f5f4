import FilterBench.Setback
import FilterBench.Reply.Reader
import FilterBench.Text.Utf8

/-!
# What a client has received

The receiving half of a connection: the decoder and the reply reader, the replies nobody has
asked for yet, the one reader that may be waiting for a reply, and the first failure. A reply goes
to the waiting reader, else to the end of the queue; a failure is recorded once and ends a wait.
-/
namespace FilterBench
open Utf8

/-- A reader of replies: none, one that waits until a deadline if there is one, or one that has
its answer. -/
inductive Waiter where
  | idle
  | waiting (deadline : Option Nat)
  | answered (answer : Except Setback Reply)

structure Inbox where
  decoder : Decoder := {}
  reader : Reply.Reader := {}
  queued : List Reply := []
  waiter : Waiter := .idle
  failure : Option Setback := none

namespace Inbox

/-- Hands a reply to the waiting reader, or keeps it. -/
def deliver (b : Inbox) (r : Reply) : Inbox :=
  match b.waiter with
  | .waiting _ => { b with waiter := .answered (.ok r) }
  | _ => { b with queued := b.queued ++ [r] }

/-- Records a failure unless there is one, and ends the wait with it. -/
def fail (b : Inbox) (s : Setback) : Inbox :=
  match b.failure with
  | some _ => b
  | none =>
    match b.waiter with
    | .waiting _ => { b with failure := some s, waiter := .answered (.error s) }
    | _ => { b with failure := some s }

/-- Reads decoded text: its replies are delivered, or a malformed line is the failure, and then
the flag says that the connection has to be given up. -/
def readText (b : Inbox) (text : List Char) : Inbox × Bool :=
  match b.reader.push text with
  | (reader, .ok replies) => (replies.foldl deliver { b with reader := reader }, false)
  | (reader, .error line) => ({ b with reader := reader }.fail (.malformed line), true)

/-- Takes the reply that has been queued longest, or says why there will be none; `none` means
that one has to wait. -/
def take? (b : Inbox) : Option (Except Setback Reply × Inbox) :=
  match b.queued with
  | r :: rest => some (.ok r, { b with queued := rest })
  | [] => b.failure.map fun s => (.error s, b)

/-- What a new secure channel starts from: its text is read afresh. -/
def renewed (b : Inbox) : Inbox := { b with decoder := {}, reader := {} }

end Inbox

end FilterBench
