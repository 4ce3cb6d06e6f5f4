import FilterBench.Text.Utf8

/-!
# Scripted mail servers

The other end of an SMTP connection, given by what it will do: how connecting to it turns out,
what it does after each write of the client (before the first: after it accepted the connection),
and how each TLS handshake turns out. A turn is played at once up to its first wait; what follows
the wait is played later, again up to a wait.
-/
namespace FilterBench
open Utf8

/-- How connecting or a handshake turns out: never, or after some milliseconds, with an error or
without. -/
inductive Attempt where
  | never
  | settles (after : Nat) (error : Option String)
  deriving DecidableEq, Repr, Inhabited

inductive PeerAct where
  | sends (chunk : Bytes)
  | closes
  | breaksDown (message : String)
  /-- The write that the turn answers fails. -/
  | failsWrite (message : String)
  | waits (ms : Nat)
  deriving DecidableEq, Repr

abbrev Turn := List PeerAct

namespace Turn

/-- What is played at once. -/
def prompt (turn : Turn) : Turn := turn.takeWhile fun
  | .waits _ => false
  | _ => true

/-- How long the first wait is, and what follows it. -/
def later? : Turn → Option (Nat × Turn)
  | [] => none
  | .waits ms :: rest => some (ms, rest)
  | _ :: rest => later? rest

theorem length_of_later? {turn rest : Turn} {ms : Nat} (h : turn.later? = some (ms, rest)) :
    rest.length < turn.length := by
  induction turn with
  | nil => simp [later?] at h
  | cons a turn ih =>
    cases a <;> simp only [later?, List.length_cons] at h ⊢
    case waits => simp_all
    all_goals exact Nat.lt_succ_of_lt (ih h)

end Turn

structure Peer where
  arrival : Attempt := .settles 0 none
  turns : List Turn := []
  handshakes : List Attempt := []
  deriving Repr, Inhabited

/-- Nobody listens there. -/
def Peer.absent : Peer := { arrival := .settles 0 (some "connect ECONNREFUSED") }

end FilterBench
