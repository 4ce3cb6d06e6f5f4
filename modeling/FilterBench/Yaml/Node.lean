import FilterBench.Yaml.Scalar

/-!
# Nodes of a document

A node is a scalar, a collection or a reference to an anchor, as it is written. A collection with
keys is a mapping unless its tag makes it something else. The anchors of a document are numbered in
the order in which they are written; a reference stands for the last node before it that has an
anchor of its name.
-/
namespace FilterBench.Yaml

structure Anchor where
  name : String
  number : Nat := 0
  deriving DecidableEq, Repr, Inhabited

/-- What a collection with keys is. -/
inductive Keyed where
  | mapping
  /-- A mapping with keys alone. -/
  | set
  /-- A list of pairs, the keys of which differ. -/
  | ordered
  /-- A list of pairs. -/
  | pairs
  deriving DecidableEq, Repr, Inhabited

inductive Node where
  | scalar (anchor : Option Anchor) (leaf : Leaf)
  | sequence (anchor : Option Anchor) (items : List Node)
  | keyed (sort : Keyed) (anchor : Option Anchor) (entries : List (Node × Option Node))
  | reference (name : String) (target : Option Nat)
  deriving Inhabited

/-- Whether two keys are the same: of one sort and of one value. -/
def sameKey : Value → Value → Bool
  | .null, .null => true
  | .bool a, .bool b => a == b
  | .number a, .number b => a.sameValue b
  | .text a, .text b => a == b
  | _, _ => false

/-- Whether two keys have the same place in a container; other than as keys of a mapping that is
written down, two that are no number have it too. -/
def samePlace : Value → Value → Bool
  | .number .nan, .number .nan => true
  | a, b => sameKey a b

namespace Node

def anchor? : Node → Option Anchor
  | .scalar anchor _ => anchor
  | .sequence anchor _ => anchor
  | .keyed _ anchor _ => anchor
  | .reference .. => none

/-- The node with an anchor, if it can have one. -/
def anchored (anchor : Option Anchor) : Node → Node
  | .scalar _ leaf => .scalar anchor leaf
  | .sequence _ items => .sequence anchor items
  | .keyed sort _ entries => .keyed sort anchor entries
  | n => n

/-- The node of a null that nobody wrote. -/
def absent : Node := .scalar none { value := .null }

/-- The value of a scalar. -/
def scalar? : Node → Option Value
  | .scalar _ leaf => some leaf.value
  | _ => none

/-- The node with a comment after it. -/
def remarked : Node → Node
  | .scalar anchor leaf => .scalar anchor { leaf with bare := false }
  | n => n

/-- Whether an entry of a set has no value. -/
def isAbsent : Option Node → Bool
  | none => true
  | some (.scalar _ ⟨.null, _, bare⟩) => bare
  | _ => false

/-- The pair that an item of a list of pairs is: a mapping has one entry at most, and any other item
is a key. -/
def pair? : Node → Option (Node × Option Node)
  | .keyed .mapping _ entries => only entries
  | .keyed .set _ entries => only entries
  | item => some (item, none)
where
  only : List (Node × Option Node) → Option (Node × Option Node)
    | [] => some (absent, none)
    | [entry] => some entry
    | _ => none

/-- Whether no two of some keys are the same. -/
def differ {α : Type} (same : α → α → Bool) : List α → Bool
  | [] => true
  | key :: rest => !rest.any (same key) && differ same rest

/-- A mapping with a tag. -/
def ofEntries (tag : Option String) (entries : List (Node × Option Node)) : Option Node :=
  if tag == some (Scalar.standard ++ "set") then
    if entries.all fun e => isAbsent e.2 then some (.keyed .set none entries) else none
  else some (.keyed .mapping none entries)

/-- A sequence with a tag. -/
def ofItems (tag : Option String) (items : List Node) : Option Node :=
  if tag == some (Scalar.standard ++ "omap") then do
    let entries ← items.mapM pair?
    if differ samePlace (entries.filterMap fun e => e.1.scalar?) then
      some (.keyed .ordered none entries)
    else none
  else if tag == some (Scalar.standard ++ "pairs") then
    (items.mapM pair?).map (.keyed .pairs none)
  else some (.sequence none items)

end Node

end FilterBench.Yaml
