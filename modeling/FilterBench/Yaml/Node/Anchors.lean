import FilterBench.Yaml.Node

/-!
# Anchors and references

The anchors of a document get their numbers, and each reference learns the number of the last anchor
of its name that is written before it. A reference within the node of an anchor may mean this
anchor; so may a later one, until another anchor has the same name.
-/
namespace FilterBench.Yaml

/-- The number of the last anchor of a name, given the names so far, the last one first. -/
def lastNumber? (name : String) : List String → Option Nat
  | [] => none
  | n :: older => if n = name then some older.length else lastNumber? name older

/-- Numbers an anchor, and adds its name to those so far. -/
def Anchor.numbered? (names : List String) : Option Anchor → Option Anchor × List String
  | none => (none, names)
  | some a => (some { a with number := names.length }, a.name :: names)

namespace Node

mutual
/-- The node with its anchors numbered and its references resolved, and the names of the anchors up
to its end. -/
def link (names : List String) : Node → Node × List String
  | .scalar anchor leaf =>
    let (anchor, names) := Anchor.numbered? names anchor
    (.scalar anchor leaf, names)
  | .sequence anchor items =>
    let (anchor, names) := Anchor.numbered? names anchor
    let (items, names) := linkItems names items
    (.sequence anchor items, names)
  | .keyed sort anchor entries =>
    let (anchor, names) := Anchor.numbered? names anchor
    let (entries, names) := linkEntries names entries
    (.keyed sort anchor entries, names)
  | .reference name _ => (.reference name (lastNumber? name names), names)

def linkItems (names : List String) : List Node → List Node × List String
  | [] => ([], names)
  | item :: rest =>
    let (item, names) := link names item
    let (rest, names) := linkItems names rest
    (item :: rest, names)

def linkEntries (names : List String) :
    List (Node × Option Node) → List (Node × Option Node) × List String
  | [] => ([], names)
  | (key, none) :: rest =>
    let (key, names) := link names key
    let (rest, names) := linkEntries names rest
    ((key, none) :: rest, names)
  | (key, some value) :: rest =>
    let (key, names) := link names key
    let (value, names) := link names value
    let (rest, names) := linkEntries names rest
    ((key, some value) :: rest, names)
end

/-- A node under the number of its anchor. -/
def entryOf (n : Node) : List (Nat × Node) :=
  match n.anchor? with
  | some a => [(a.number, n)]
  | none => []

mutual
/-- The nodes with an anchor in a node, each under its number. -/
def anchors : Node → List (Nat × Node)
  | .scalar anchor leaf => entryOf (.scalar anchor leaf)
  | .sequence anchor items => entryOf (.sequence anchor items) ++ anchorsOfItems items
  | .keyed sort anchor entries => entryOf (.keyed sort anchor entries) ++ anchorsOfEntries entries
  | .reference .. => []

def anchorsOfItems : List Node → List (Nat × Node)
  | [] => []
  | item :: rest => anchors item ++ anchorsOfItems rest

def anchorsOfEntries : List (Node × Option Node) → List (Nat × Node)
  | [] => []
  | (key, none) :: rest => anchors key ++ anchorsOfEntries rest
  | (key, some value) :: rest => anchors key ++ anchors value ++ anchorsOfEntries rest
end

mutual
/-- How many nodes a node consists of. -/
def count : Node → Nat
  | .sequence _ items => countItems items + 1
  | .keyed _ _ entries => countEntries entries + 1
  | _ => 1

def countItems : List Node → Nat
  | [] => 0
  | item :: rest => count item + countItems rest

def countEntries : List (Node × Option Node) → Nat
  | [] => 0
  | (key, none) :: rest => count key + countEntries rest
  | (key, some value) :: rest => count key + count value + countEntries rest
end

end Node

end FilterBench.Yaml
