import FilterBench.Yaml.Token

/-!
# The tokens of a document as a tree

A tree says which tokens belong together, and keeps them all: nothing is refused here. The entries
of a collection hold what stands before a key, the key, what stands between it and the value, and
the value. A list has no keys; an entry that has only a start is what follows the last value.
-/
namespace FilterBench.Yaml

structure Entry (α : Type) where
  start : List Token := []
  /-- A mark for keys stands at the start. -/
  marked : Bool := false
  key : Option α := none
  /-- What stands between key and value, once there is a key or a mark for values. -/
  sep : Option (List Token) := none
  value : Option α := none
  deriving Repr, Inhabited

inductive Tree where
  /-- A reference or a scalar that is not a block, and what follows it on its line. -/
  | atom (token : Token) (ending : List Token)
  /-- A block scalar within something indented so far: its header, what follows that on its line,
  and its text. -/
  | block (indent : Nat) (header : Token) (props : List Token) (text : List Char)
  | mapping (offset indent : Nat) (entries : List (Entry Tree))
  | sequence (offset indent : Nat) (entries : List (Entry Tree))
  /-- A bracketed collection, with the closing bracket and what follows it. -/
  | brackets (indent : Nat) (opening : Token) (entries : List (Entry Tree)) (ending : List Token)
  /-- A token that has no place here. -/
  | stray (token : Token)
  deriving Inhabited

namespace Tree

/-- Whether it can stand before a colon on its line: neither a block nor a block collection. -/
def isInline : Tree → Bool
  | .atom .. => true
  | .brackets .. => true
  | _ => false

/-- Whether it is a collection outside of brackets. -/
def isBlockCollection : Tree → Bool
  | .mapping .. => true
  | .sequence .. => true
  | _ => false

/-- How far the line is indented on which it begins. -/
def indent? : Tree → Option Nat
  | .atom token _ => some token.indent
  | .block indent .. => some indent
  | .mapping _ indent _ => some indent
  | .sequence _ indent _ => some indent
  | .brackets indent .. => some indent
  | .stray _ => none

/-- What follows it, if it can be followed by something. -/
def ending? : Tree → Option (List Token)
  | .atom _ [] => none
  | .atom _ ending => some ending
  | .brackets _ _ _ ending => some ending
  | _ => none

/-- Adds to what follows it. -/
def followedBy (ts : List Token) : Tree → Tree
  | .atom token ending => .atom token (ending ++ ts)
  | .brackets indent opening entries ending => .brackets indent opening entries (ending ++ ts)
  | t => t

mutual
/-- Whether it goes over more than one line. -/
def isMultiline : Tree → Bool
  | .atom token ending => token.text.contains '\n' || Token.anyOf .lineBreak ending
  | .brackets _ _ entries _ => anyMultiline entries
  | _ => true

def anyMultiline : List (Entry Tree) → Bool
  | [] => false
  | ⟨start, _, key, sep, value⟩ :: rest =>
    Token.anyOf .lineBreak start || (sep.any (Token.anyOf .lineBreak)) ||
      (match key with
      | some t => t.isMultiline
      | none => false) ||
      (match value with
      | some t => t.isMultiline
      | none => false) || anyMultiline rest
end

end Tree

end FilterBench.Yaml
