import FilterBench.Yaml.Directive
import FilterBench.Yaml.Lead
import FilterBench.Yaml.Node
import FilterBench.Yaml.Text

/-!
# Nodes from trees

A tree that is well-formed is a node. Each node is read with its lead, and comes with the place
where it ends, from which the next lead starts. A key that no mark announces is written on one line,
has its colon not too far from its start, and in a mapping outside of brackets begins in the column
of the mapping. Keys that are scalars differ.
-/
namespace FilterBench.Yaml

/-- A node and where it ends. -/
abbrev Placed := Node × Nat

/-- How far the colon may stand from the start of its key. -/
def keyReach : Nat := 1024

/-- Entries that were read, the last one first. -/
structure Gathered where
  /-- The items of a list in brackets. -/
  items : List Node := []
  /-- The entries of a collection with keys. -/
  entries : List (Node × Option Node) := []
  offset : Nat
  /-- Where the comments end that follow the last entry. -/
  remarkEnd : Option Nat := none

namespace Gathered

/-- Whether a key is not there yet. -/
def isNew (g : Gathered) (key : Node) : Bool :=
  match key.scalar? with
  | some v => !(g.entries.filterMap fun e => e.1.scalar?).any (sameKey v)
  | none => true

/-- Where a collection outside of brackets ends; nothing comes after its comments. -/
def finish? (g : Gathered) : Option Nat :=
  match g.remarkEnd with
  | some finish => if finish < g.offset then none else some finish
  | none => some g.offset

/-- Notes that a comment follows the last value. -/
def remarkLast (g : Gathered) : Gathered :=
  match g.entries with
  | (key, some value) :: older => { g with entries := (key, some value.remarked) :: older }
  | _ => g

def addItem (g : Gathered) (item : Node) (finish : Nat) : Gathered :=
  { g with items := item :: g.items, offset := finish }

def addEntry (g : Gathered) (key : Node) (value : Option Node) (finish : Nat) : Gathered :=
  { g with entries := (key, value) :: g.entries, offset := finish }

end Gathered

/-- The lead of a key outside of brackets. -/
def keyPlace (indent offset : Nat) (e : Entry Tree) : Lead.Place :=
  { mark := .keyMark, next := .of e.key (e.sep.getD []), offset := offset, around := indent
    startsLine := true }

/-- The lead of a value outside of brackets. -/
def valuePlace (indent offset : Nat) (e : Entry Tree) : Lead.Place :=
  let keyEndsLine := match e.key with
    | none => true
    | some (.block ..) => true
    | _ => false
  { mark := .valueMark, next := .of e.value [], offset := offset, around := indent
    startsLine := keyEndsLine }

def itemPlace (indent offset : Nat) (e : Entry Tree) : Lead.Place :=
  { mark := .itemMark, next := .of e.value [], offset := offset, around := indent
    startsLine := true }

/-- The lead of an item or a key within brackets. -/
def bracketKeyPlace (indent offset : Nat) (e : Entry Tree) : Lead.Place :=
  { mark := .keyMark, next := .of e.key (e.sep.getD []), offset := offset, around := indent
    startsLine := false, inBrackets := true }

/-- The lead of a value within brackets. -/
def bracketValuePlace (indent offset : Nat) (e : Entry Tree) : Lead.Place :=
  { mark := .valueMark, next := .of e.value [], offset := offset, around := indent
    startsLine := false, inBrackets := true }

/-- A key outside of brackets is well placed. -/
def keyFits (indent : Nat) (lead : Lead) (key : Option Tree) : Bool :=
  match lead.mark, key with
  | some mark, _ => mark.indent == indent
  | none, some (.sequence ..) => false
  | none, some t => t.indent?.all fun n => n == indent
  | none, none => true

/-- A value outside of brackets is well placed after a key that no mark announces. -/
def valueFits (keyLead lead : Lead) (mark : Token) (value : Option Tree) : Bool :=
  let compact := match value with
    | some (.mapping ..) => !lead.broken
    | _ => false
  !compact && decide (mark.offset ≤ keyLead.start + keyReach)

/-- A pair in a list stands on one line up to its colon. -/
def pairFits (keyLead : Lead) (mark : Token) (sep : List Token) : Bool :=
  let before := sep.takeWhile fun t => t.offset != mark.offset
  !Token.anyOf .lineBreak before && decide (mark.offset ≤ keyLead.start + keyReach)

/-- Whether what stands between key and value within brackets fits them: before a value there is a
mark, and a pair in a list has it near. -/
def separatorFits (isMap : Bool) (keyLead lead : Lead) (e : Entry Tree) : Bool :=
  match lead.mark with
  | some mark => isMap || keyLead.mark.isSome || pairFits keyLead mark (e.sep.getD [])
  | none => e.value.isNone

/-- The comma before an entry within brackets is there unless the entry is the first one. -/
def commaFits (isFirst : Bool) (lead : Lead) : Bool := lead.comma != isFirst

/-- What a comment right after a comma says belongs to the entry before. It is the comment itself,
if it has any text. -/
def commentAfterComma (start : List Token) : Option Token :=
  (start.find? fun t => t.kind != .comma && t.kind != .blanks).filter fun t =>
    t.kind == .comment && decide (1 < t.text.length)

/-- A lead without the comment that belongs to the entry before. -/
def withoutFirstComment (lead : Lead) (start : List Token) : Lead :=
  { lead with remarked := decide (1 < (start.filter fun t => t.kind == .comment).length) }

/-- The name of the tag of a node; a node without a tag, or with one that says nothing, has no
name. -/
def tagName? (d : Directives) (lead : Lead) : Option (Option String) :=
  match lead.tag with
  | none => some none
  | some t => (d.tagName? t.text).map fun name => if name.isEmpty then none else some name

/-- The anchor of a node, which has a name. -/
def anchorOf? (lead : Lead) : Option (Option Anchor) :=
  match lead.anchor with
  | none => some none
  | some t =>
    if t.text.length ≤ 1 then none else some (some { name := String.ofList (t.text.drop 1) })

/-- Gives a node the anchor of its lead. -/
def Lead.name? (lead : Lead) (n : Node) : Option Node := (anchorOf? lead).map n.anchored

def leafNode (d : Directives) (isKey : Bool) (lead : Lead) (remarked isPlain : Bool)
    (text : List Char) : Option Node := do
  let leaf ← Scalar.leaf? d.version isKey isPlain (← tagName? d lead) text
  lead.name? (.scalar none { leaf with bare := leaf.bare && !remarked && !lead.remarked })

/-- Where a node stands that is not written: before the blanks and comments at the end, but after
blanks on the line of what comes before. -/
def emptyPosition (offset : Nat) (before : List Token) : Nat :=
  let idle := (before.reverse.takeWhile Token.isIdle).reverse
  let back := offset - width idle
  if idle.length = before.length then back
  else back + width (idle.takeWhile fun t => t.kind == .blanks)
where
  width (ts : List Token) : Nat := ts.foldl (fun n t => n + t.width) 0

/-- The node of a place where nothing is written. -/
def emptyNode (d : Directives) (isKey : Bool) (lead : Lead) (before : List Token) :
    Option Placed := do
  let n ← leafNode d isKey lead false true []
  return (n, if lead.remarked then lead.finish else emptyPosition lead.finish before)

/-- A reference or a scalar that is not a block. -/
def atomNode (d : Directives) (isKey : Bool) (lead : Lead) (token : Token)
    (ending : List Token) : Option Placed := do
  let remarked ← remarkAfter? true ending
  let finish := ending.foldl (fun n t => n + t.width) token.finish
  let leaf (isPlain : Bool) (text : List Char) : Option Placed := do
    return (← leafNode d isKey lead remarked isPlain text, finish)
  match token.kind with
  | .reference =>
    if lead.hasProperty || token.text.length ≤ 1 then none
    else some (.reference (String.ofList (token.text.drop 1)) none, finish)
  | .text => leaf true (← Flow.plain? token.text)
  | .singleQuoted => leaf false (← Flow.singleQuoted? token.text)
  | .doubleQuoted => leaf false (← Flow.doubleQuoted? token.text)
  | _ => none

/-- What may follow the header of a block scalar on its line. -/
def propsFit (props : List Token) : Bool :=
  (props.foldlM step false).isSome
where
  step (spaced : Bool) (t : Token) : Option Bool :=
    match t.kind with
    | .blanks => some true
    | .lineBreak => some spaced
    | .comment => if spaced then some spaced else none
    | _ => none

def blockNode (d : Directives) (atRoot isKey : Bool) (lead : Lead) (indent : Nat) (header : Token)
    (props : List Token) (text : List Char) : Option Placed := do
  let h ← Block.header? header.text
  guard (propsFit props)
  let content ← Block.text? h indent atRoot (Block.linesOf text)
  let n ← leafNode d isKey lead false false content
  return (n, props.foldl (fun n t => n + t.width) header.finish + unitCount text)

/-- The end of brackets, and where the node ends. -/
def bracketsFinish? (opening : Token) : List Token → Option Nat
  | [] => none
  | closing :: rest =>
    let matching : Lexeme.Kind := if opening.kind == .mapStart then .mapEnd else .listEnd
    if closing.kind == matching then
      (remarkAfter? true rest).map fun _ => rest.foldl (fun n t => n + t.width) closing.finish
    else none

namespace Node

mutual
/-- Reads a tree with its lead; `none` if it is malformed. -/
def ofTree? (d : Directives) (atRoot isKey : Bool) (lead : Lead) : Tree → Option Placed
  | .atom token ending => atomNode d isKey lead token ending
  | .block indent header props text => blockNode d atRoot isKey lead indent header props text
  | .mapping offset indent entries => do
    let tag ← tagName? d lead
    let g ← ofMapping? d indent { offset := offset } entries
    let n ← lead.name? (← ofEntries tag g.entries.reverse)
    return (n, ← g.finish?)
  | .sequence offset indent entries => do
    guard lead.breaksAfterProps
    let tag ← tagName? d lead
    let g ← ofSequence? d indent { offset := offset } entries
    let n ← lead.name? (← ofItems tag g.items.reverse)
    return (n, g.remarkEnd.getD g.offset)
  | .brackets indent opening entries ending => do
    let tag ← tagName? d lead
    let isMap := opening.kind == .mapStart
    let g ← ofBrackets? d indent isMap true { offset := opening.finish } entries
    let finish ← bracketsFinish? opening ending
    let n ← if isMap then ofEntries tag g.entries.reverse else ofItems tag g.items.reverse
    return (← lead.name? n, finish)
  | .stray _ => none

/-- Reads the tree at a place, which may be a place after some tokens where nothing is written. -/
def ofPlace? (d : Directives) (isKey : Bool) (lead : Lead) (before : List Token) :
    Option Tree → Option Placed
  | some t => ofTree? d false isKey lead t
  | none => emptyNode d isKey lead before

/-- Reads the value of an entry within brackets, which is there if it is written or has a mark. -/
def ofBracketValue? (d : Directives) (lead : Lead) (before : List Token) :
    Option Tree → Option (Option Node × Nat)
  | some t => do
    let (n, finish) ← ofTree? d false false lead t
    return (some n, finish)
  | none =>
    if lead.mark.isSome then do
      let (n, finish) ← emptyNode d false lead before
      return (some n, finish)
    else return (none, lead.finish)

/-- Reads the entries of a mapping outside of brackets. -/
def ofMapping? (d : Directives) (indent : Nat) (g : Gathered) :
    List (Entry Tree) → Option Gathered
  | [] => some g
  | ⟨start, marked, key, sep, value⟩ :: rest => do
    let e : Entry Tree := ⟨start, marked, key, sep, value⟩
    let keyLead ← Lead.read (keyPlace indent g.offset e) start
    guard (keyFits indent keyLead key)
    let isImplicit := keyLead.mark.isNone
    if isImplicit && !keyLead.hasProperty && sep.isNone then
      ofMapping? d indent { g with remarkEnd := some keyLead.finish } rest
    else
      guard (!isImplicit || !(keyLead.propBreak.isSome || key.any Tree.isMultiline))
      let (keyNode, keyFinish) ← ofPlace? d true keyLead start key
      guard (g.isNew keyNode)
      let lead ← Lead.read (valuePlace indent keyFinish e) (sep.getD [])
      match lead.mark with
      | none =>
        guard (!isImplicit)
        ofMapping? d indent (g.addEntry keyNode none lead.finish) rest
      | some mark =>
        guard (!isImplicit || valueFits keyLead lead mark value)
        let (valueNode, finish) ← ofPlace? d false lead (sep.getD []) value
        ofMapping? d indent (g.addEntry keyNode (some valueNode) finish) rest

/-- Reads the items of a list outside of brackets. -/
def ofSequence? (d : Directives) (indent : Nat) (g : Gathered) :
    List (Entry Tree) → Option Gathered
  | [] => some g
  | ⟨start, marked, key, sep, value⟩ :: rest => do
    let e : Entry Tree := ⟨start, marked, key, sep, value⟩
    let lead ← Lead.read (itemPlace indent g.offset e) start
    match lead.mark with
    | none =>
      guard (!lead.hasProperty && value.isNone)
      ofSequence? d indent { g with remarkEnd := some lead.finish } rest
    | some _ =>
      let (item, finish) ← ofPlace? d false lead start value
      ofSequence? d indent (g.addItem item finish) rest

/-- Reads the entries within brackets. -/
def ofBrackets? (d : Directives) (indent : Nat) (isMap isFirst : Bool) (g : Gathered) :
    List (Entry Tree) → Option Gathered
  | [] => some g
  | ⟨start, marked, key, sep, value⟩ :: rest => do
    let e : Entry Tree := ⟨start, marked, key, sep, value⟩
    let lead ← Lead.read (bracketKeyPlace indent g.offset e) start
    let isImplicit := lead.mark.isNone
    if isImplicit && !lead.hasProperty && sep.isNone && value.isNone then
      guard (rest.isEmpty && !(isFirst && lead.comma))
      ofBrackets? d indent isMap false { g with offset := lead.finish } rest
    else
      guard (commaFits isFirst lead && (isMap || !isImplicit || !key.any Tree.isMultiline))
      let takesComment := !isFirst && (commentAfterComma start).isSome
      let g := if takesComment then g.remarkLast else g
      let lead := if takesComment then withoutFirstComment lead start else lead
      if !isMap && sep.isNone && isImplicit then
        let (item, finish) ← ofPlace? d false lead [] value
        guard (!value.any Tree.isBlockCollection)
        ofBrackets? d indent isMap false (g.addItem item finish) rest
      else
        let (keyNode, keyFinish) ← ofPlace? d true lead start key
        guard (!key.any Tree.isBlockCollection && !value.any Tree.isBlockCollection)
        let valueLead ← Lead.read (bracketValuePlace indent keyFinish e) (sep.getD [])
        guard (separatorFits isMap lead valueLead e)
        let (valueNode, finish) ← ofBracketValue? d valueLead (sep.getD []) value
        if isMap then
          guard (g.isNew keyNode)
          ofBrackets? d indent isMap false (g.addEntry keyNode valueNode finish) rest
        else
          ofBrackets? d indent isMap false
            (g.addItem (.keyed .mapping none [(keyNode, valueNode)]) finish) rest
end

end Node

end FilterBench.Yaml
