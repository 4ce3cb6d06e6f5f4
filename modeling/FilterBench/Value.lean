import FilterBench.Numeral.Shortest

/-!
# Data values

The values that a settings document holds and that a fault carries as its details. A table keeps
the order in which its keys were first written.
-/
namespace FilterBench

/-- Values of which only the sort is known: they have neither items nor fields. -/
inductive Value.Special where
  | octets | date | set | orderedMap | symbol
  deriving DecidableEq, Repr, Inhabited

inductive Value where
  | null
  | bool (b : Bool)
  | number (n : Numeral)
  | text (s : String)
  | list (items : List Value)
  | table (fields : List (String × Value))
  | special (sort : Value.Special)
  deriving Repr, Inhabited

namespace Value

/-- What sort of value it is, in one word. -/
def kind : Value → String
  | .null => "null"
  | .bool _ => "boolean"
  | .number .nan => "nan"
  | .number _ => "number"
  | .text _ => "string"
  | .list _ => "array"
  | .table _ => "object"
  | .special .octets => "object"
  | .special .date => "date"
  | .special .set => "set"
  | .special .orderedMap => "map"
  | .special .symbol => "symbol"

/-- The fields of a value that can have some: of a table its own, of most special values none. -/
def fields? : Value → Option (List (String × Value))
  | .table fields => some fields
  | .special .symbol => none
  | .special _ => some []
  | _ => none

/-- The value under a key. -/
def lookup (fields : List (String × Value)) (key : String) : Option Value :=
  (fields.find? fun f => f.1 == key).map (·.2)

/-- Writes a key: in place when it is there, else at the end. -/
def put (fields : List (String × Value)) (key : String) (v : Value) : List (String × Value) :=
  if fields.any fun f => f.1 == key then
    fields.map fun f => if f.1 == key then (key, v) else f
  else fields ++ [(key, v)]

mutual
/-- The value as running text: the items of a list are joined by commas. -/
def shown : Value → String
  | .null => "null"
  | .bool b => if b then "true" else "false"
  | .number n => n.text
  | .text s => s
  | .list items => String.intercalate "," (shownItems items)
  | .table _ => "[object Object]"
  | v => "[" ++ v.kind ++ "]"

/-- The texts of list items, of which `null` has none. -/
def shownItems : List Value → List String
  | [] => []
  | .null :: rest => "" :: shownItems rest
  | v :: rest => v.shown :: shownItems rest
end

end Value

end FilterBench
