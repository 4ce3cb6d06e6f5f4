import FilterBench.Yaml.Tree

/-!
# Trees that grow

While tokens come in, the collections around the present place are open: the last entry of each can
still change. An open tree that is done is closed and goes into the open tree around it.
-/
namespace FilterBench.Yaml

/-- An open tree. The entries of a collection before its last one are kept in reverse. -/
inductive Open where
  | atom (token : Token) (ending : List Token)
  | block (header : Token) (props : List Token) (text : List Char)
  | mapping (offset indent : Nat) (before : List (Entry Tree)) (last : Entry Tree)
  | sequence (offset indent : Nat) (before : List (Entry Tree)) (last : Entry Tree)
  /-- All entries are kept in reverse. -/
  | brackets (opening : Token) (entries : List (Entry Tree)) (ending : List Token)
  deriving Inhabited

/-- Splits tokens before the anchors and tags at their end, which belong to the first key of a
collection that begins after them. -/
def keyProps (ts : List Token) : List Token × List Token :=
  let tail := (ts.reverse.takeWhile fun t => !separates t.kind).reverse
  let blanks := tail.takeWhile fun t => t.kind == .blanks
  (ts.take (ts.length - tail.length + blanks.length), tail.drop blanks.length)
where
  separates (kind : Lexeme.Kind) : Bool :=
    [.documentStart, .keyMark, .valueMark, .itemMark, .lineBreak].contains kind

namespace Entry

/-- Takes the properties of the first key of a collection that begins as the entry's value. -/
def takeProps (e : Entry Tree) : Entry Tree × List Token :=
  match e.sep with
  | some sep => let (kept, taken) := keyProps sep; ({ e with sep := some kept }, taken)
  | none => let (kept, taken) := keyProps e.start; ({ e with start := kept }, taken)

/-- Within list brackets what looked like a key is the value, unless a mark says otherwise. -/
def asItem (e : Entry Tree) : Entry Tree :=
  match e.sep, e.value with
  | some sep, none =>
    if Token.anyOf .keyMark e.start || Token.anyOf .valueMark sep then e
    else match e.key with
      | some key =>
        if key.isInline then { start := e.start, value := some (key.followedBy sep) }
        else { start := e.start ++ sep, value := some key }
      | none => { start := e.start ++ sep }
  | _, _ => e

/-- Only blanks, comments and line breaks: it belongs to what follows the collection. A comment
that is indented as far as the collection stays in it. -/
def isTrailing (indent : Nat) (e : Entry Tree) : Bool :=
  e.sep.isNone && e.value.isNone && !e.start.isEmpty && e.start.all Token.isIdle &&
    (indent == 0 || e.start.all fun t => t.kind != .comment || decide (t.indent < indent))

end Entry

namespace Open

def indent : Open → Nat
  | .atom token _ => token.indent
  | .block header .. => header.indent
  | .mapping _ indent .. => indent
  | .sequence _ indent .. => indent
  | .brackets opening .. => opening.indent

def isBrackets : Open → Bool
  | .brackets .. => true
  | _ => false

/-- The entries of brackets that are done. -/
def bracketEntries (opening : Token) (entries : List (Entry Tree)) : List (Entry Tree) :=
  (if opening.kind == .listStart then entries.map Entry.asItem else entries).reverse

/-- The tree, within something that is indented so far, or at the top of a document. -/
def close (around : Option Nat) : Open → Tree
  | .atom token ending => .atom token ending
  | .block header props text => .block (around.getD 0) header props text
  | .mapping offset indent before last => .mapping offset indent (last :: before).reverse
  | .sequence offset indent before last => .sequence offset indent (last :: before).reverse
  | .brackets opening entries ending =>
    .brackets (if around.isNone then 0 else opening.indent) opening
      (bracketEntries opening entries) ending

/-- Adds an entry. -/
def push (e : Entry Tree) : Open → Open
  | .mapping offset indent before last => .mapping offset indent (last :: before) e
  | .sequence offset indent before last => .sequence offset indent (last :: before) e
  | .brackets opening entries ending => .brackets opening (e :: entries) ending
  | t => t

/-- Puts a closed tree in its place. In a mapping it may be a key: then it says whether a line with
a key has begun. -/
def receive (child : Tree) : Open → Open × Option Bool
  | .mapping offset indent before last =>
    if last.value.isSome then
      (.mapping offset indent (last :: before) { key := some child, sep := some [] }, some true)
    else if last.sep.isSome then
      (.mapping offset indent before { last with value := some child }, none)
    else
      (.mapping offset indent before { last with key := some child, sep := some [] },
        some !last.marked)
  | .sequence offset indent before last =>
    if last.value.isSome then
      (.sequence offset indent (last :: before) { value := some child }, none)
    else (.sequence offset indent before { last with value := some child }, none)
  | .brackets opening entries ending =>
    let entry : Entry Tree := { key := some child, sep := some [] }
    match entries with
    | [] => (.brackets opening [entry] ending, none)
    | last :: before =>
      if last.value.isSome then (.brackets opening (entry :: entries) ending, none)
      else if last.sep.isSome then
        (.brackets opening ({ last with value := some child } :: before) ending, none)
      else
        (.brackets opening ({ last with key := some child, sep := some [] } :: before) ending, none)
  | .block header props text =>
    match child with
    | .stray token => (.block header (props ++ [token]) text, none)
    | _ => (.block header props text, none)
  | .atom token ending => (.atom token ending, none)

/-- Whether a closed tree would be the value of an entry outside of brackets. -/
def awaitsValue : Open → Bool
  | .mapping _ _ _ last => last.value.isNone && last.sep.isSome
  | .sequence .. => true
  | _ => false

/-- Gives up a last entry that belongs to what follows the collection. -/
def shed : Open → Open × List Token
  | .mapping offset indent (e :: before) last =>
    if last.isTrailing indent then (.mapping offset indent before e, last.start)
    else (.mapping offset indent (e :: before) last, [])
  | .sequence offset indent (e :: before) last =>
    if last.isTrailing indent then (.sequence offset indent before e, last.start)
    else (.sequence offset indent (e :: before) last, [])
  | t => (t, [])

/-- Closes a tree into the one around it. -/
def graft (child parent : Open) : Open × Option Bool :=
  let (child, trailing) := if parent.awaitsValue then child.shed else (child, [])
  let (parent, onKeyLine) := parent.receive (child.close (some parent.indent))
  (if trailing.isEmpty then parent else parent.push { start := trailing }, onKeyLine)

/-- Takes the properties of the first key of a collection that begins within the tree. -/
def takeProps : Open → Open × List Token
  | .mapping offset indent before last =>
    let (last, taken) := last.takeProps
    (.mapping offset indent before last, taken)
  | .sequence offset indent before last =>
    let (kept, taken) := keyProps last.start
    (.sequence offset indent before { last with start := kept }, taken)
  | t => (t, [])

end Open

end FilterBench.Yaml
