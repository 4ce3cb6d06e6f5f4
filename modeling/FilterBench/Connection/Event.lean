import FilterBench.Reply.Basic
import FilterBench.Text.Utf8

/-!
# What happens on a connection

The history of a connection as the client sees it: what it wrote, what it heard as text, which
replies it took, and when the channel became a secure one. The transcript shows the words of both
sides, and remarks, in their order.
-/
namespace FilterBench
open Utf8

inductive Event where
  | wrote (data : Bytes)
  /-- The client said this to a channel that was over, so that it was not sent. -/
  | lost (data : Bytes)
  | heard (text : List Char)
  /-- A reply was handed to the reader that asked for one. -/
  | took (reply : Reply)
  | secured
  | remarked (text : String)
  deriving DecidableEq, Repr

namespace Event

def sent? : Event → Option Bytes
  | .wrote data => some data
  | _ => none

/-- The chunk of the transcript that shows it, if one does. -/
def shown? : Event → Option String
  | .wrote data => some (String.ofList (decode data))
  | .lost data => some (String.ofList (decode data))
  | .heard text => some (String.ofList text)
  | .remarked text => some text
  | _ => none

end Event

end FilterBench
