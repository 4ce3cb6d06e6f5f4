import FilterBench.Yaml.Node.Anchors

/-!
# What nodes mean

The value of a node. What has an anchor holds its value from there on, and a reference stands for
the value that is held; a node that holds none yet, because it was only merged, is valued when a
reference asks for it. How often references may repeat a node is bounded. A key that merges takes
in the entries of other mappings under the keys that are not there before it.

A value that refers to itself is unrolled: it is taken several times over, each time with what its
anchors stood for the time before.
-/
namespace FilterBench.Yaml

/-- How often a node may be repeated, each use counted with its weight. -/
def repetitionLimit : Nat := 100

/-- What an anchor stands for. -/
structure Holding where
  value : Value
  /-- Its own place and the references so far. -/
  uses : Nat := 1
  /-- How many nodes a use repeats; 0 if that is not known yet. -/
  weight : Nat := 0
  deriving Repr, Inhabited

/-- Anchors by number, with what they stand for. -/
abbrev Holdings := List (Nat × Holding)

namespace Holdings

def hold (hs : Holdings) (number : Nat) (h : Holding) : Holdings :=
  (number, h) :: hs.filter fun e => e.1 != number

/-- Gives an anchor the value of its node once that is whole. -/
def settle (hs : Holdings) (number : Nat) (v : Value) : Holdings :=
  hs.map fun e => if e.1 == number then (e.1, { e.2 with value := v }) else e

mutual
/-- How much a use of a node repeats: the largest of the references in it, each with its uses. -/
def weightOf (hs : Holdings) : Node → Nat
  | .scalar .. => 1
  | .sequence _ items => weightOfItems hs items
  | .keyed _ _ entries => weightOfEntries hs entries
  | .reference _ target =>
    match target.bind fun number => hs.lookup number with
    | some h => h.uses * h.weight
    | none => 0

def weightOfItems (hs : Holdings) : List Node → Nat
  | [] => 0
  | item :: rest => max (weightOf hs item) (weightOfItems hs rest)

def weightOfEntries (hs : Holdings) : List (Node × Option Node) → Nat
  | [] => 0
  | (key, none) :: rest => max (max (weightOf hs key) 1) (weightOfEntries hs rest)
  | (key, some value) :: rest =>
    max (max (weightOf hs key) (weightOf hs value)) (weightOfEntries hs rest)
end

/-- Follows a reference to a node: its value, and the holdings after this use. -/
def follow? (hs : Holdings) (number : Nat) (n : Node) : Option (Value × Holdings) := do
  let h ← hs.lookup number
  let used := { h with uses := h.uses + 1 }
  let weight := if h.weight = 0 then weightOf (hs.hold number used) n else h.weight
  if repetitionLimit < used.uses * weight then none
  else some (h.value, hs.hold number { used with weight := weight })

end Holdings

/-- The name of a key in a table. -/
def keyName : Value → String
  | .null => ""
  | .list items => "[ " ++ (Value.list items).shown ++ " ]"
  | v => v.shown

/-- A key that keeps its value as it is. Two of them are the same that have one node, or that have
the same place. -/
structure Key where
  value : Value
  /-- The number of the anchor of its node. -/
  origin : Option Nat := none
  deriving Repr, Inhabited

def Key.same (a b : Key) : Bool :=
  (a.origin.isSome && a.origin == b.origin) || samePlace a.value b.value

/-- The key that a node is. -/
def Node.key (n : Node) (v : Value) : Key :=
  match n with
  | .reference _ target => { value := v, origin := target }
  | n => { value := v, origin := n.anchor?.map (·.number) }

/-- An entry of a mapping that is merged. -/
abbrev Merged := Key × Value

/-- Adds a field of a mapping that is merged, if there is none of its name. -/
def offer (fields : List (String × Value)) (entry : Merged) : List (String × Value) :=
  let name := entry.1.value.shown
  if fields.any fun f => f.1 == name then fields else fields ++ [(name, entry.2)]

/-- Adds an entry to those of a mapping that is merged, if its key is not there. -/
def offerEntry (entries : List Merged) (entry : Merged) : List Merged :=
  if entries.any fun e => e.1.same entry.1 then entries else entries ++ [entry]

/-- Writes an entry of a mapping that is merged: in place when its key is there, else at the end. -/
def putEntry (entries : List Merged) (entry : Merged) : List Merged :=
  if entries.any fun e => e.1.same entry.1 then
    entries.map fun e => if e.1.same entry.1 then (e.1, entry.2) else e
  else entries ++ [entry]

/-- The entry that an element of a set is when the set is merged: its first two parts, if it has
parts. -/
def elementEntry? : Value → Option (List Merged)
  | .list (key :: value :: _) => some [({ value := key }, value)]
  | .list _ => some []
  | .text s => match s.toList with
    | a :: b :: _ => some [({ value := .text a.toString }, .text b.toString)]
    | _ => some []
  | .special .octets => some []
  | .special .set => some []
  | .special .orderedMap => some []
  | _ => none

/-- What the values of nodes depend on. -/
structure Links where
  /-- The nodes with anchors, by number. -/
  nodes : List (Nat × Node)
  /-- What the anchors stood for the time before. -/
  earlier : List (Nat × Value)

/-- The node that a node stands for: a reference stands for another one. -/
def Links.resolve? (ls : Links) : Node → Option Node
  | .reference _ target => target.bind fun number => ls.nodes.lookup number
  | n => some n

abbrev Meaning := StateT Holdings Option

/-- Whether a key merges the mappings under it into the mapping around. -/
def Node.merges : Node → Bool
  | .scalar _ leaf => leaf.merges
  | _ => false

/-- The nodes that a merging key takes in. -/
def Links.sources? (ls : Links) (value : Option Node) : Option (List Node) := do
  match ← ls.resolve? (← value) with
  | .sequence _ items => items.mapM ls.resolve?
  | .keyed .ordered _ entries => if entries.isEmpty then some [] else none
  | .keyed .pairs _ entries => if entries.isEmpty then some [] else none
  | n => some [n]

namespace Node

mutual
/-- The value of a node. What has an anchor holds its value, while it is open the one of the time
before. -/
def meaning (ls : Links) : Nat → Node → Meaning Value
  | 0, _ => failure
  | fuel + 1, n => do
    match n.anchor? with
    | some a =>
      let earlier := (ls.earlier.lookup a.number).getD (.table [])
      modify fun hs => hs.hold a.number { value := earlier }
      let v ← content ls fuel n
      modify fun hs => hs.settle a.number v
      return v
    | none => content ls fuel n

/-- The value of a node but for its anchor. -/
def content (ls : Links) : Nat → Node → Meaning Value
  | 0, _ => failure
  | fuel + 1, n => do
    match n with
    | .scalar _ leaf => return leaf.value
    | .sequence _ items => return .list (← items.mapM (meaning ls fuel))
    | .keyed .mapping _ entries => return .table (← entries.foldlM (addField ls fuel) [])
    | .keyed .set _ entries =>
      discard (entries.mapM (element ls fuel))
      return .special .set
    | .keyed .ordered _ entries =>
      let keys ← entries.mapM fun e => do
        let key ← meaning ls fuel e.1
        if let some v := e.2 then discard (meaning ls fuel v)
        return e.1.key key
      if differ Key.same keys then return .special .orderedMap else failure
    | .keyed .pairs _ entries =>
      return .list (← entries.mapM fun e => do return .table (← addField ls fuel [] e))
    | .reference _ target =>
      match target.bind fun number => (ls.nodes.lookup number).map (number, ·) with
      | none => failure
      | some (number, node) =>
        if ((← get).lookup number).isNone then discard (meaning ls fuel node)
        let some (v, hs) := (← get).follow? number node | failure
        set hs
        return v

/-- Adds an entry of a mapping to its table. -/
def addField (ls : Links) :
    Nat → List (String × Value) → Node × Option Node → Meaning (List (String × Value))
  | 0, _, _ => failure
  | fuel + 1, fields, (key, value) => do
    if key.merges then
      let some sources := ls.sources? value | failure
      sources.foldlM (fun fields n => do return (← entriesOf ls fuel n).foldl offer fields) fields
    else
      let name := keyName (← meaning ls fuel key)
      match value with
      | some v => return Value.put fields name (← meaning ls fuel v)
      | none => return Value.put fields name .null

/-- The value of an element of a set. -/
def element (ls : Links) : Nat → Node × Option Node → Meaning Value
  | 0, _ => failure
  | fuel + 1, (key, _) => if key.merges then failure else meaning ls fuel key

/-- The entries of a node that is merged. -/
def entriesOf (ls : Links) : Nat → Node → Meaning (List Merged)
  | 0, _ => failure
  | fuel + 1, n => do
    match n with
    | .keyed .mapping _ entries => entries.foldlM (addEntry ls fuel) []
    | .keyed .set _ entries =>
      let elements ← entries.mapM (element ls fuel)
      let some parts := elements.mapM elementEntry? | failure
      return parts.flatten
    | _ => failure

/-- Adds an entry of a mapping that is merged. -/
def addEntry (ls : Links) :
    Nat → List Merged → Node × Option Node → Meaning (List Merged)
  | 0, _, _ => failure
  | fuel + 1, entries, (key, value) => do
    if key.merges then
      let some sources := ls.sources? value | failure
      sources.foldlM
        (fun entries n => do return (← entriesOf ls fuel n).foldl offerEntry entries) entries
    else
      let k := key.key (← meaning ls fuel key)
      match value with
      | some v => return putEntry entries (k, ← meaning ls fuel v)
      | none => return putEntry entries (k, .null)
end

/-- How deep a value that holds itself is unrolled. -/
def unrolled : Nat := 4

/-- The value of a linked node, taken once more with what its anchors stood for. -/
def rounds (n : Node) (nodes : List (Nat × Node)) (fuel : Nat) :
    Nat → List (Nat × Value) → Option Value
  | 0, earlier => ((n.meaning ⟨nodes, earlier⟩ fuel).run []).map (·.1)
  | more + 1, earlier => do
    let (_, hs) ← (n.meaning ⟨nodes, earlier⟩ fuel).run []
    rounds n nodes fuel more (hs.map fun e => (e.1, e.2.value))

/-- The value of a document that consists of this node. A node is within itself at most once for
each anchor and once merged, which bounds the depth. -/
def value? (n : Node) : Option Value :=
  let n := (n.link []).1
  let nodes := n.anchors
  let fuel := 4 * (n.count + 1) * (nodes.length + 2)
  n.rounds nodes fuel (if nodes.isEmpty then 0 else unrolled) []

end Node

end FilterBench.Yaml
