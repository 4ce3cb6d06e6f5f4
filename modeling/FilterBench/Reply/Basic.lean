/-!
# SMTP replies and their lines

A reply has a three-digit code and one or more lines of text. On the wire every line repeats the
code; a hyphen after it says that more lines follow. `Line.parse?` reads one line and `render`
writes a whole reply.
-/
namespace FilterBench

structure Reply where
  code : Nat
  lines : List (List Char)
  deriving DecidableEq, Repr, Inhabited

namespace Reply

/-- One line of a reply: its code, whether another line follows, and its text. -/
structure Line where
  code : Nat
  continued : Bool
  text : List Char
  deriving DecidableEq, Repr

/-- Line separators, which no line of a reply may hold. -/
def isSeparator (c : Char) : Bool :=
  c == '\n' || c == '\r' || c == '\u2028' || c == '\u2029'

def digit? (c : Char) : Option Nat := if c.isDigit then some (c.toNat - 48) else none

/-- The separator and text after the code: nothing at all, or a space or hyphen with a text. -/
def Line.ofTail? (code : Nat) : List Char → Option Line
  | [] => some ⟨code, false, []⟩
  | c :: text =>
    if (c = ' ' ∨ c = '-') ∧ ¬ text.any isSeparator then some ⟨code, c = '-', text⟩ else none

/-- Reads a line that has lost its line end. -/
def Line.parse? : List Char → Option Line
  | a :: b :: c :: tail => do
    let x ← digit? a
    let y ← digit? b
    let z ← digit? c
    Line.ofTail? (100 * x + 10 * y + z) tail
  | _ => none

/-- The three digits of a code. -/
def codeDigits (code : Nat) : List Char :=
  [Nat.digitChar (code / 100 % 10), Nat.digitChar (code / 10 % 10), Nat.digitChar (code % 10)]

/-- Writes the lines of a reply, each ended by `ending`. -/
def renderLines (ending : List Char) (code : Nat) : List (List Char) → List Char
  | [] => []
  | [last] => codeDigits code ++ ' ' :: last ++ ending
  | text :: more => codeDigits code ++ '-' :: text ++ ending ++ renderLines ending code more

def render (ending : List Char) (r : Reply) : List Char := renderLines ending r.code r.lines

/-- Adds a line to the reply that is being collected. The code of the first line counts. -/
def extend (group : Option Reply) (l : Line) : Reply :=
  match group with
  | some r => { r with lines := r.lines ++ [l.text] }
  | none => ⟨l.code, [l.text]⟩

end Reply

end FilterBench
