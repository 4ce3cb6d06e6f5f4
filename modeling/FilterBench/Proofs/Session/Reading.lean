import FilterBench.Session.Basic
import Mathlib.Data.Stream.Init

/-!
# Reading a script against a list of replies

What a script comes to when the server's replies are simply given, one after another, as an
endless list: no connection, no time, no chunks and no failures. A `Reading` has the ending of the
session and what the client says in it. It walks the steps of the script, remembers the name that
the client gave and the encoder of the open content stream, and takes a reply from the list
whenever the client says something that asks for one.
-/
namespace FilterBench
open Utf8

/-- Octets that a client says, with the reply that it gets if they ask for one. -/
structure Utterance where
  octets : Bytes
  reply : Option Reply
  deriving DecidableEq, Repr

structure Reading where
  ending : Ending
  said : List Utterance

/-- A session from some point on, by the replies that are still to come. -/
abbrev Outlook := Stream' Reply → Reading

namespace Outlook

def ended (ending : Ending) : Outlook := fun _ => ⟨ending, []⟩

def tells (octets : Bytes) (next : Outlook) : Outlook := fun replies =>
  ⟨(next replies).ending, ⟨octets, none⟩ :: (next replies).said⟩

def asks (octets : Bytes) (next : Reply → Outlook) : Outlook := fun replies =>
  let rest := next replies.head replies.tail
  ⟨rest.ending, ⟨octets, some replies.head⟩ :: rest.said⟩

def faulty (stage : Stage) (code : FaultCode) (message : String) : Outlook :=
  ended (.error (.session stage { code := code, message := message }))

/-- A reply that is not accepted is the decision, with its text without the status code. -/
def judge (stage : Stage) (accepted : List ℕ) (next : Outlook) (r : Reply) : Outlook :=
  if r.code ∈ accepted then next
  else ended (.ok { code := r.code, message := String.ofList r.split.2, stage := stage })

def asksLine (line : String) (next : Reply → Outlook) : Outlook := asks (encode (line ++ "\r\n")) next

def command (stage : Stage) (line : String) (accepted : List ℕ) (next : Outlook) : Outlook :=
  asksLine line (judge stage accepted next)

/-- The old greeting is tried only when the server does not know the extended one. -/
def greet (stage : Stage) (name : String) (next : Outlook) : Outlook :=
  asksLine ("EHLO " ++ name) fun r =>
    if r.code = 500 ∨ r.code = 502 then command stage ("HELO " ++ name) [250] next
    else judge stage [250] next r

/-- A client that has not greeted yet greets as `localhost` first. -/
def introduce (stage : Stage) (name : Introduction) (next : String → Outlook) : Outlook :=
  match name with
  | some name => next name
  | none => greet stage "localhost" (next "localhost")

/-- Logging in ends when the server asks for more: the client cancels, and the reply to that does
not count. -/
def login (user password : String) (next : Outlook) : Outlook :=
  let response := encode ("\x00" ++ user ++ "\x00" ++ password)
  asksLine ("AUTH PLAIN " ++ String.ofList (Base64.encode response)) fun r =>
    if r.code = 334 then
      asksLine "*" fun _ =>
        faulty .any .smtpProtocol "Unexpected server challenge during AUTH PLAIN"
    else judge .any [235] next r

end Outlook

open Outlook

/-- The steps of a script, for a client that gave a name or not and has a content stream or not. -/
def Script.outlook (accounts : Accounts) : Script → Introduction → Option Stuffing → Outlook
  | [], _, _ => faulty .eom .incompleteInput "incomplete input sequence"
  | .helo name :: rest, _, stream =>
    greet .helo name (outlook accounts rest (some name) stream)
  | .startTls :: rest, name, stream =>
    introduce .any name fun name =>
      command .any "STARTTLS" [220]
        (command .any ("EHLO " ++ name) [250] (outlook accounts rest (some name) stream))
  | .login user :: rest, name, stream =>
    introduce .any name fun name =>
      login user (accounts.passwordFor user) (outlook accounts rest (some name) stream)
  | .sender address :: rest, name, stream =>
    introduce .from name fun name =>
      command .from ("MAIL FROM:<" ++ address ++ ">") [250]
        (outlook accounts rest (some name) stream)
  | .recipient address :: rest, name, stream =>
    command .to ("RCPT TO:<" ++ address ++ ">") [250, 251] (outlook accounts rest name stream)
  | .reset :: rest, name, stream =>
    introduce .any name fun name =>
      command .any "RSET" [250] (outlook accounts rest (some name) stream)
  | .header content :: rest, name, _ =>
    let (stream, octets) := ({} : Stuffing).encode content
    command .data "DATA" [354] (tells octets (outlook accounts rest name (some stream)))
  | .body content :: _, _, stream =>
    match stream with
    | none => faulty .any .smtpProtocol "no DATA stream open: BODY needs a preceding HEADER step"
    | some stream =>
      let (stream, octets) := stream.encode content
      tells octets (asks stream.finish.2 (judge .eom [250]
        (asksLine "QUIT" fun _ => ended (.ok .queued))))
  | .unknown kind :: _, _, _ => faulty .any .unknownStep ("unknown step " ++ kind)

/-- A whole session: the first reply of the list is the greeting of the server. -/
def Script.read (accounts : Accounts) (script : Script) (replies : Stream' Reply) : Reading :=
  let greeting := replies.head
  if greeting.code = 220 then script.outlook accounts none none replies.tail
  else
    ⟨.error (.session .any
      { code := .smtpProtocol, message := String.ofList greeting.split.2
        details := some [("replyCode", .number (.ofInt greeting.code))] }), []⟩

end FilterBench
