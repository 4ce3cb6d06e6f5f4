import FilterBench.Dialogue
import FilterBench.Credentials
import FilterBench.Message.Stuffing

/-!
# The commands of the SMTP client

Each command is an `Exchange`: a dialogue that gives a value or a setback and keeps the name by
which the client last introduced itself. A command line is sent and its reply judged by its code;
a code that the command does not accept is a setback that carries the reply.
-/
namespace FilterBench
open Utf8

/-- The name that the client last gave in a greeting, if it gave one. -/
abbrev Introduction := Option String

abbrev Exchange := ExceptT Setback (StateT Introduction Dialogue)

namespace Client

/-- The name a client greets with when it was told none. -/
def defaultName : String := "localhost"

/-- A dialogue whose answer may be a setback. -/
def attempt {α : Type} (d : Dialogue (Except Setback α)) : Exchange α :=
  ExceptT.mk (liftM d)

def write (data : Bytes) : Exchange Unit := attempt (.request (.write data))

def reply : Exchange Reply := attempt (.request .await)

def secure : Exchange Unit := attempt (.request .secure)

def close : Exchange Unit := liftM (Dialogue.request .close)

/-- Refuses a reply whose code is not accepted. -/
def expect (accepted : Int → Bool) (r : Reply) : Exchange Unit :=
  if accepted r.code then pure () else throw (.refused r)

def writeLine (line : String) : Exchange Unit := write (encode (line ++ "\r\n"))

/-- Sends a command line and judges its reply. -/
def command (line : String) (accepted : Int → Bool) : Exchange Unit := do
  writeLine line
  expect accepted (← reply)

/-- The greeting of the server; without it the client gives up. -/
def greeting : Exchange Unit :=
  try
    expect (· == 220) (← reply)
  catch s =>
    close
    throw s

def extendedHello : Exchange Unit := do
  let name := (← get).getD defaultName
  command ("EHLO " ++ name) (· == 250)

/-- Replies by which a server says that it does not know the extended greeting. -/
def unknownGreeting : Setback → Bool
  | .refused r => r.code == 500 || r.code == 502
  | _ => false

/-- Greets with the extended greeting, and with the old one if the server does not know it. -/
def hello (name : String) : Exchange Unit := do
  set (some name)
  try
    extendedHello
  catch s =>
    if unknownGreeting s then command ("HELO " ++ name) (· == 250) else throw s

def ensureHello : Exchange Unit := do
  match ← get with
  | some _ => pure ()
  | none => hello defaultName

/-- Changes to a secure channel and greets anew. -/
def startTls : Exchange Unit := do
  ensureHello
  command "STARTTLS" (· == 220)
  secure
  extendedHello

/-- Logs in. A server that asks for more is told that nothing more will come. -/
def login (m : Mechanism) : Exchange Unit := do
  ensureHello
  writeLine ("AUTH " ++ m.name ++ " " ++ m.initial)
  let r ← reply
  if r.code = 334 then
    writeLine "*"
    discard reply
    throw (.challenged m.name)
  expect (· == 235) r

def mail (sender : String) : Exchange Unit := do
  ensureHello
  command ("MAIL FROM:<" ++ sender ++ ">") (· == 250)

def recipient (address : String) : Exchange Unit :=
  command ("RCPT TO:<" ++ address ++ ">") fun code => code == 250 || code == 251

def reset : Exchange Unit := do
  ensureHello
  command "RSET" (· == 250)

/-- Asks to send content. -/
def data : Exchange Unit := command "DATA" (· == 354)

/-- Sends the end mark of the content and judges the server's answer to the message. -/
def endData (mark : Bytes) : Exchange Unit := do
  write mark
  expect (· == 250) (← reply)

/-- Takes leave, and gives the channel up whatever the answer. -/
def quit : Exchange Unit := do
  try
    command "QUIT" (· == 221)
  catch s =>
    close
    throw s
  close

end Client

end FilterBench
