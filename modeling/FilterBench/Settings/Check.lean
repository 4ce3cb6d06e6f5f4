import FilterBench.Settings.Basic
import FilterBench.Value

/-!
# Checking values

A check reads a value of the wanted sort from a document or lists what is wrong with it, each issue
with the path at which it stands. The issues of several parts are listed together, in the order of
the parts.
-/
namespace FilterBench

structure Issue where
  path : List String
  message : String
  deriving DecidableEq, Repr, Inhabited

def Issue.text (i : Issue) : String := String.intercalate "." i.path ++ ": " ++ i.message

/-- A checked value; there is one exactly if there are no issues. -/
abbrev Checked (α : Type) := Except (List Issue) α

namespace Checked

variable {α β : Type}

/-- Both values, or the issues of both. -/
def both : Checked α → Checked β → Checked (α × β)
  | .ok a, .ok b => .ok (a, b)
  | .error is, .ok _ => .error is
  | .ok _, .error js => .error js
  | .error is, .error js => .error (is ++ js)

def map (f : α → β) : Checked α → Checked β
  | .ok a => .ok (f a)
  | .error is => .error is

def issue (path : List String) (message : String) : Checked α := .error [⟨path, message⟩]

/-- A value of another sort than the one expected. -/
def wrongKind (path : List String) (expected : String) (v : Value) : Checked α :=
  issue path ("Expected " ++ expected ++ ", received " ++ v.kind)

/-- What is wrong with a number that should be whole and lie between two bounds. -/
def wholeIssues (low high : Option Int) (n : Numeral) : List String :=
  (if n.toInt?.isSome then [] else ["Expected integer, received float"]) ++
    (match low with
    | some l => if n.below l then ["Number must be greater than or equal to " ++ toString l] else []
    | none => []) ++
    (match high with
    | some h => if n.above h then ["Number must be less than or equal to " ++ toString h] else []
    | none => [])

/-- A whole number between two bounds. -/
def whole (low high : Option Int) (path : List String) (v : Value) : Checked Int :=
  match v with
  | .number n =>
    if n = .nan then wrongKind path "number" v
    else match wholeIssues low high n, n.toInt? with
      | [], some i => .ok i
      | messages, _ => .error (messages.map fun m => ⟨path, m⟩)
  | v => wrongKind path "number" v

def text (path : List String) (v : Value) : Checked String :=
  match v with
  | .text s => .ok s
  | v => wrongKind path "string" v

/-- A text that is not empty. -/
def filledText (path : List String) (v : Value) : Checked String :=
  match v with
  | .text s => if s = "" then issue path "String must contain at least 1 character(s)" else .ok s
  | v => wrongKind path "string" v

/-- The items of a list of texts, from an index on. -/
def textsFrom (path : List String) : Nat → List Value → Checked (List String)
  | _, [] => .ok []
  | i, v :: rest =>
    map (fun (s, ss) => s :: ss)
      (both (text (path ++ [toString i]) v) (textsFrom path (i + 1) rest))

/-- A list of texts that is not empty. -/
def filledTexts (path : List String) (v : Value) : Checked (List String) :=
  match v with
  | .list [] => issue path "Array must contain at least 1 element(s)"
  | .list items => textsFrom path 0 items
  | v => wrongKind path "array" v

/-- The part of a table under a key, checked. -/
def part (check : List String → Value → Checked α) (path : List String)
    (fields : List (String × Value)) (key : String) : Checked α :=
  match Value.lookup fields key with
  | some v => check (path ++ [key]) v
  | none => issue (path ++ [key]) "Required"

/-- The fields of a table, checked. -/
def table (check : List String → List (String × Value) → Checked α) (path : List String)
    (v : Value) : Checked α :=
  match v with
  | .table fields => check path fields
  | v => wrongKind path "object" v

end Checked

end FilterBench
