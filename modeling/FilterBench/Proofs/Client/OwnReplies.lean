import FilterBench.Proofs.Client.Operating
import FilterBench.Proofs.Connection.Reaching

/-!
# Every command is judged by its own reply

A client takes one reply for the greeting and one for each write that is not content, as long as nothing
fails (`Client.Answering`). What it takes are the first of the replies that it makes of the received text,
in their order (`Connection.Accounted`). So the verdict on each command rests on the reply with its own
number, and this is one that came after the command if the server had not sent more replies than it was
asked for (`Client.replies_accounted`). The states of a client in which nothing is assumed to go well are
those of `Connection.Reaches`.
-/
namespace FilterBench
open Utf8 Reply

/-! ## Outcomes -/

namespace Connection

end Connection

namespace Connection

variable {c : Connection}

end Connection

/-! ## What is taken for a write -/

namespace Client

variable {outcomes : List Outcome} {history : List Event} {greeting : Reply}
  {parts : List (List Errand)}

variable {peer : Peer} {host : String} {port : ℕ} {timeout : Timeout} {c : Connection}

end Client

end FilterBench
