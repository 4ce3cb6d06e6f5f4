import FilterBench.Yaml.Tree

/-!
# What leads to a node

Before a node stand the mark that announces it, its anchor and its tag, with blanks and comments
between them. A `Lead` is what these tokens say about the node. They are refused if they are
malformed: a mark or a property that is there twice, a mark after a property, a property or a
comment without a space beside it, a tab where a line is indented, or a token of another kind.
-/
namespace FilterBench.Yaml

structure Lead where
  mark : Option Token := none
  comma : Bool := false
  /-- There is a comment. -/
  remarked : Bool := false
  /-- There is a line break. -/
  broken : Bool := false
  anchor : Option Token := none
  tag : Option Token := none
  /-- Where the last line break stands that follows a property. -/
  propBreak : Option Nat := none
  /-- Where the first property stands. -/
  firstProp : Option Nat := none
  finish : Nat := 0
  deriving Repr, Inhabited

namespace Lead

/-- What comes after the tokens of a lead. -/
inductive Next where
  | nothing
  /-- A separator, or a scalar without text. -/
  | gap
  | brackets
  /-- A collection outside of brackets. -/
  | collection
  | other
  deriving DecidableEq, Repr, Inhabited

/-- What separates a property from the token after it. -/
def separates (kind : Lexeme.Kind) : Bool :=
  match kind with
  | .blanks => true
  | .lineBreak => true
  | .comma => true
  | _ => false

def Next.ofTree : Tree → Next
  | .atom t _ => if t.kind == .text && t.text.isEmpty then .gap else .other
  | .mapping .. => .collection
  | .sequence .. => .collection
  | .brackets .. => .brackets
  | _ => .other

def Next.ofTokens : List Token → Next
  | [] => .nothing
  | t :: _ =>
    if separates t.kind || (t.kind == .text && t.text.isEmpty) then .gap else .other

/-- What comes next: a tree if there is one, else the tokens after its place. -/
def Next.of (tree : Option Tree) (after : List Token) : Next :=
  match tree with
  | some t => .ofTree t
  | none => .ofTokens after

/-- Where a lead stands. -/
structure Place where
  /-- The kind of the mark that announces a node here. -/
  mark : Lexeme.Kind
  next : Next
  offset : Nat
  /-- How far the surroundings are indented. -/
  around : Nat
  /-- The lead begins a line, or counts as if it did. -/
  startsLine : Bool
  inBrackets : Bool := false
  deriving Repr, Inhabited

/-- A lead of which some tokens are read. -/
structure Draft extends Lead where
  /-- Only blanks came since the line began. -/
  atLineStart : Bool
  /-- A comment may follow. -/
  spaced : Bool
  /-- A property came last. -/
  owesSpace : Bool := false
  /-- The last token, if it is blanks with a tab that may be where a line is indented. -/
  tab : Option Token := none
  deriving Repr, Inhabited

def Draft.property (d : Draft) (t : Token) : Draft :=
  { d with firstProp := some (d.firstProp.getD t.offset), atLineStart := false, spaced := false
           owesSpace := true }

/-- Reads a token. -/
def Draft.read (p : Place) (d : Draft) (t : Token) : Option Draft :=
  let misplacedTab := d.tab.isSome && d.atLineStart && t.kind != .comment && t.kind != .lineBreak
  if (d.owesSpace && !separates t.kind) || misplacedTab then none
  else
    let d := { d with owesSpace := false, tab := none }
    let tabCounts := !p.inBrackets && (p.mark != .documentStart || p.next != .brackets)
    let hasProperty := d.anchor.isSome || d.tag.isSome
    match t.kind with
    | .blanks =>
      some { d with spaced := true
                    tab := if tabCounts && t.text.contains '\t' then some t else none }
    | .comment => if d.spaced then some { d with remarked := true, atLineStart := false } else none
    | .lineBreak =>
      some { d with atLineStart := true, broken := true, spaced := true
                    propBreak := if hasProperty then some t.offset else d.propBreak }
    | .anchor => if d.anchor.isSome then none else some { d.property t with anchor := some t }
    | .tag => if d.tag.isSome then none else some { d.property t with tag := some t }
    | kind =>
      if kind == p.mark then
        if hasProperty || d.mark.isSome then none
        else
          some { d with mark := some t, atLineStart := kind == .itemMark || kind == .keyMark
                        spaced := false }
      else if kind == .comma && p.inBrackets && !d.comma then
        some { d with comma := true, atLineStart := false, spaced := false }
      else none

/-- Whether the lead may end here. -/
def Draft.isComplete (p : Place) (d : Draft) : Bool :=
  let separated := !d.owesSpace || p.next == .nothing || p.next == .gap
  let indents := d.tab.any fun t =>
    (d.atLineStart && decide (t.indent ≤ p.around)) || p.next == .collection
  separated && !indents

/-- Reads the tokens of a lead; `none` if they are malformed. -/
def read (p : Place) (ts : List Token) : Option Lead := do
  let d ← ts.foldlM (Draft.read p) { atLineStart := p.startsLine, spaced := p.startsLine }
  if d.isComplete p then
    some { d.toLead with finish := (ts.getLast?.map Token.finish).getD p.offset }
  else none

def hasProperty (l : Lead) : Bool := l.anchor.isSome || l.tag.isSome

/-- Where the node begins. -/
def start (l : Lead) : Nat := l.firstProp.getD l.finish

/-- Whether the properties stand on a line of their own. -/
def breaksAfterProps (l : Lead) : Bool :=
  let last := max ((l.anchor.map (·.offset)).getD 0) ((l.tag.map (·.offset)).getD 0)
  !l.hasProperty || l.propBreak.any fun offset => decide (last ≤ offset)

end Lead

/-- What may follow a node on its line: blanks and comments, which in strict places stand apart
from the node. Says whether there is a comment. -/
def remarkAfter? (strict : Bool) (ts : List Token) : Option Bool :=
  (ts.foldlM step (!strict, false)).map (·.2)
where
  step (state : Bool × Bool) (t : Token) : Option (Bool × Bool) :=
    match t.kind with
    | .blanks => some (true, state.2)
    | .lineBreak => some (true, state.2)
    | .comment => if state.1 then some (true, true) else none
    | _ => none

end FilterBench.Yaml
