import FilterBench.Connection.Basic

/-!
# Dialogues of a client with a connection

A `Dialogue` is what a client does, as a tree: it ends with a value, or makes a request to the
connection and goes on according to the answer. Every branch of it is finite. `Connection.run`
carries a dialogue out on a connection; there is no value when the client waits for ever.
-/
namespace FilterBench
open Utf8

inductive Request where
  | write (data : Bytes)
  | await
  | secure
  | close
  | note (text : String)
  deriving DecidableEq, Repr

/-- What a request is answered with. -/
abbrev Request.Answer : Request → Type
  | .write _ => Except Setback Unit
  | .await => Except Setback Reply
  | .secure => Except Setback Unit
  | .close => Unit
  | .note _ => Unit

inductive Dialogue (α : Type) where
  | done (value : α)
  | ask (q : Request) (next : q.Answer → Dialogue α)

namespace Dialogue

variable {α β : Type}

def bind : Dialogue α → (α → Dialogue β) → Dialogue β
  | done a, f => f a
  | ask q next, f => ask q fun answer => (next answer).bind f

instance : Monad Dialogue where
  pure := done
  bind := bind

/-- The dialogue that makes one request. -/
def request (q : Request) : Dialogue q.Answer := ask q done

end Dialogue

namespace Connection

/-- Answers one request. -/
def perform (c : Connection) : (q : Request) → Connection × Option q.Answer
  | .write data => let (c, a) := c.write data; (c, some a)
  | .await => c.await
  | .secure => c.secure
  | .close => (c.close, some ())
  | .note text => (c.note text, some ())

/-- Carries out a dialogue. -/
def run {α : Type} : Dialogue α → Connection → Connection × Option α
  | .done a, c => (c, some a)
  | .ask q next, c =>
    match c.perform q with
    | (c, some answer) => run (next answer) c
    | (c, none) => (c, none)

end Connection

end FilterBench
