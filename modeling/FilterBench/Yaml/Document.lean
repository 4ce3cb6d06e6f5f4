import FilterBench.Yaml.Node.Meaning
import FilterBench.Yaml.Node.Reader
import FilterBench.Yaml.Token.Scanner
import FilterBench.Yaml.Tree.Growth

/-!
# Documents

A text holds one document. Directives may stand before it, followed then by the mark that begins
it; after the mark that ends it only comments and further directives may follow. A text without a
document has the value null.
-/
namespace FilterBench.Yaml

/-- What the parts of a text so far say. -/
structure Reading where
  directives : Directives := {}
  /-- Directives wait for their document. -/
  directed : Bool := false
  content : Option Node := none

namespace Reading

/-- The node of a document, and whether a mark begins it. -/
def node? (d : Directives) (draft : Draft) : Option (Node × Bool) := do
  let lead ← Lead.read
    { mark := .documentStart, next := .of draft.content draft.ending, offset := 0, around := 0
      startsLine := true } draft.start
  let onMarkLine := lead.mark.isSome && !lead.broken
  guard (!(onMarkLine && draft.content.any Tree.isBlockCollection))
  discard (remarkAfter? false draft.ending)
  let (n, _) ← match draft.content with
    | some t => Node.ofTree? d true false lead t
    | none => emptyNode d false lead draft.start
  return (n, lead.mark.isSome)

/-- Takes the next part of a text; `none` if it is malformed. -/
def add (r : Reading) : Part → Option Reading
  | .directive text =>
    (r.directives.add text).map fun d => { r with directives := d, directed := true }
  | .document draft => do
    let (n, marked) ← node? r.directives draft
    if r.content.isSome || (r.directed && !marked) then none
    else some { r with content := some n, directed := false }
  | .ended ending => do
    discard (remarkAfter? true ending)
    if r.content.isSome then some r else none
  | .stray => none

/-- Reads a text. -/
def ofText (text : String) : Option Reading :=
  (Part.ofLexemes (Lexeme.scan text.toList)).foldlM add {}

end Reading

/-- The value of a text; `none` if the text is malformed. -/
def ofText (text : String) : Option Value := do
  let r ← Reading.ofText text
  match r.content with
  | some n => n.value?
  | none => if r.directed then none else some .null

end FilterBench.Yaml
