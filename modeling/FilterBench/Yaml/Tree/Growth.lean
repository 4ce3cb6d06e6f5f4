import FilterBench.Yaml.Tree.Open

/-!
# Trees from tokens

A `Growth` takes the tokens of a text one after the other and keeps what is open: the document and
the trees in it, the innermost first. A token is taken by the innermost open tree, or closes it and
goes on to the one around it. No token is refused: one that has no place becomes a stray, and it is
for the reader of the tree to say what is wrong.
-/
namespace FilterBench.Yaml

/-- A document: what stands before its content, the content, and what follows. -/
structure Draft where
  start : List Token := []
  content : Option Tree := none
  ending : List Token := []
  deriving Inhabited

/-- What a text consists of, besides blanks and comments. -/
inductive Part where
  | directive (text : List Char)
  | document (d : Draft)
  /-- The end of a document, with what follows the mark on its line. -/
  | ended (ending : List Token)
  | stray

/-- What the open trees stand on. -/
inductive Ground where
  | nothing
  | document (d : Draft)
  | ended (ending : List Token)

structure Growth where
  /-- Only blanks and marks of block collections came before on the line. -/
  atLineStart : Bool := true
  /-- A key stands on the line. -/
  onKeyLine : Bool := false
  indent : Nat := 0
  offset : Nat := 0
  ground : Ground := .nothing
  stack : List Open := []
  /-- The last one first. -/
  parts : List Part := []

/-- What a token does to the innermost open tree. -/
inductive Move where
  /-- The tree takes it. -/
  | stay (t : Open)
  /-- The token opens a tree within the tree. -/
  | enter (t child : Open)
  /-- The tree takes it and is done. -/
  | close (t : Open)
  /-- The tree was done before it. -/
  | leave (t : Open)
  /-- The tree is the key of a mapping that begins here. -/
  | wrap (offset indent : Nat) (key : Tree) (sep : List Token)
  /-- The token has no place in the tree. -/
  | stray (t : Open)

namespace Growth

def setKeyLine (g : Growth) (b : Option Bool) : Growth :=
  { g with onKeyLine := b.getD g.onKeyLine }

def emit (g : Growth) (p : Part) : Growth := { g with parts := p :: g.parts }

/-- A token that ends what stands on a line. -/
def endsLine (kind : Lexeme.Kind) : Bool :=
  [.comma, .documentStart, .documentEnd, .listEnd, .mapEnd, .valueMark].contains kind

/-- A scalar or a reference by itself. -/
def isAtom (kind : Lexeme.Kind) : Bool :=
  [.reference, .text, .singleQuoted, .doubleQuoted].contains kind

/-- The tree that a token opens, and where it is the first key of a mapping the token that takes
its properties from what is around. -/
def opened? (g : Growth) (t : Token) (takeProps : List Token) : Option Open :=
  match t.kind with
  | .header => some (.block t [] [])
  | .mapStart => some (.brackets t [] [])
  | .listStart => some (.brackets t [] [])
  | .itemMark => some (.sequence g.offset g.indent [] { start := [t] })
  | .keyMark =>
    some (.mapping g.offset g.indent [] { start := takeProps ++ [t], marked := true })
  | .valueMark => some (.mapping g.offset g.indent [] { start := takeProps, sep := some [t] })
  | kind => if isAtom kind then some (.atom t []) else none

/-- Whether the opened tree takes properties from what is around. -/
def opensMapping (kind : Lexeme.Kind) : Bool := kind == .keyMark || kind == .valueMark

/-- Opens a tree within another, if the token opens one. -/
def openIn? (g : Growth) (t : Token) (parent : Open) : Option (Growth × Move) :=
  if opensMapping t.kind then
    let (parent, props) := parent.takeProps
    (g.opened? t props).map fun child => ({ g with onKeyLine := true }, .enter parent child)
  else (g.opened? t []).map fun child => (g, .enter parent child)

/-- What follows a tree on its line. -/
def lineEnd (g : Growth) (t : Token) (ending : List Token) (build : List Token → Open) :
    Growth × Move :=
  if endsLine t.kind then (g, .leave (build ending))
  else if t.kind == .lineBreak then
    ({ g with onKeyLine := false }, .close (build (ending ++ [t])))
  else (g, .stay (build (ending ++ [t])))

def atomMove (g : Growth) (t token : Token) (ending : List Token) : Growth × Move :=
  if t.kind == .valueMark then
    ({ g with onKeyLine := true },
      .wrap token.offset token.indent (.atom token []) (ending ++ [t]))
  else g.lineEnd t ending (.atom token)

def blockMove (g : Growth) (t header : Token) (props : List Token) (text : List Char) :
    Growth × Move :=
  if t.isIdle then (g, .stay (.block header (props ++ [t]) text))
  else if t.kind == .text then
    ({ g with atLineStart := true, indent := 0 }, .close (.block header props t.text))
  else (g, .leave (.block header props text))

/-- Adds idle tokens to the last entry. A comment that is indented further than the collection
belongs to the value before it. -/
def idle (g : Growth) (t : Token) (indent : Nat) (before : List (Entry Tree))
    (last : Entry Tree) : List (Entry Tree) × Entry Tree :=
  match t.kind, last.value, last.sep with
  | .lineBreak, some v, _ =>
    if (v.ending?.bind List.getLast?).any fun e => e.kind == .comment then
      (before, { last with value := some (v.followedBy [t]) })
    else (last :: before, { start := [t] })
  | _, some _, _ => (last :: before, { start := [t] })
  | _, none, some sep => (before, { last with sep := some (sep ++ [t]) })
  | kind, none, none =>
    let moved? : Option (List (Entry Tree) × Entry Tree) :=
      if kind == .comment && decide (indent < g.indent) &&
          last.start.all fun s => s.kind == .blanks || s.kind == .lineBreak then
        match before with
        | e :: older => e.value.bind fun v =>
          v.ending?.map fun _ => (older, { e with value := some (v.followedBy (last.start ++ [t])) })
        | [] => none
      else none
    moved?.getD (before, { last with start := last.start ++ [t] })

/-- Splits what stands between a key and its missing value: an empty line and what follows it, if
that is not indented, belong to the next entry. -/
def splitEmpty (indent : Nat) (sep : List Token) : List Token × List Token :=
  match (breaks 0 [] sep)[1]? with
  | some i => (sep.take i, sep.drop i)
  | none => (sep, [])
where
  /-- Where the line breaks are after the last token that counts. -/
  breaks (i : Nat) (found : List Nat) : List Token → List Nat
    | [] => found
    | s :: rest =>
      match s.kind with
      | .lineBreak => breaks (i + 1) (found ++ [i]) rest
      | .blanks => breaks (i + 1) found rest
      | .comment => breaks (i + 1) (if indent < s.indent then [] else found) rest
      | _ => breaks (i + 1) [] rest

/-- A mark for values in a mapping. -/
def mappingValueMark (g : Growth) (t : Token) (atNext : Bool) (start : List Token)
    (build : List (Entry Tree) → Entry Tree → Open) (before : List (Entry Tree))
    (last : Entry Tree) : Move :=
  let next (start : List Token) : Move :=
    .stay (build (last :: before) { start := start, sep := some [t] })
  let inner (last e : Entry Tree) : Move :=
    .enter (build before last) (.mapping g.offset g.indent [] e)
  match last.sep with
  | none =>
    if last.marked && !Token.anyOf .lineBreak last.start then
      let (kept, props) := keyProps last.start
      inner { last with start := kept } { start := props, sep := some [t] }
    else .stay (build before { last with key := none, sep := some [t] })
  | some sep =>
    if last.marked then
      if last.value.isSome then next []
      else if Token.anyOf .valueMark sep then inner last { start := start, sep := some [t] }
      else if last.key.any Tree.isInline && !Token.anyOf .lineBreak sep then
        let (kept, props) := keyProps last.start
        inner { start := kept, marked := true }
          { start := props, key := last.key, sep := some (sep ++ [t]) }
      else .stay (build before { last with sep := some (sep ++ start ++ [t]) })
    else if last.value.isSome || atNext then next start
    else if Token.anyOf .valueMark sep then inner last { sep := some [t] }
    else .stay (build before { last with sep := some (sep ++ [t]) })

def mappingMove (g : Growth) (t : Token) (offset indent : Nat) (before : List (Entry Tree))
    (last : Entry Tree) : Growth × Move :=
  let build := Open.mapping offset indent
  if t.isIdle then
    let g := if t.kind == .lineBreak then { g with onKeyLine := false } else g
    let (before, last) := g.idle t indent before last
    (g, .stay (build before last))
  else if g.indent < indent then (g, .leave (build before last))
  else
    let atIndent := !g.onKeyLine && g.indent == indent
    let atNext := atIndent && (last.sep.isSome || last.marked) && t.kind != .itemMark
    let (last, start) : Entry Tree × List Token :=
      match last.sep with
      | some sep =>
        if atNext && last.value.isNone then
          let (kept, start) := splitEmpty indent sep
          ({ last with sep := some kept }, start)
        else (last, [])
      | none => (last, [])
    let keyLine := { g with onKeyLine := true }
    let next (e : Entry Tree) : Move := .stay (build (last :: before) e)
    let isNext := atNext || last.value.isSome
    match t.kind with
    | .keyMark =>
      if last.sep.isNone && !last.marked then
        (keyLine, .stay (build before { last with start := last.start ++ [t], marked := true }))
      else if isNext then (keyLine, next { start := start ++ [t], marked := true })
      else
        (keyLine, .enter (build before last)
          (.mapping g.offset g.indent [] { start := [t], marked := true }))
    | .valueMark => (keyLine, g.mappingValueMark t atNext start build before last)
    | kind =>
      if kind == .anchor || kind == .tag then
        if isNext then (keyLine, next { start := start ++ [t] })
        else match last.sep with
          | some sep => (g, .stay (build before { last with sep := some (sep ++ [t]) }))
          | none => (g, .stay (build before { last with start := last.start ++ [t] }))
      else if isAtom kind then
        let key := some (Tree.atom t [])
        if isNext then (keyLine, next { start := start, key := key, sep := some [] })
        else if last.sep.isSome then (g, .enter (build before last) (.atom t []))
        else (keyLine, .stay (build before { last with key := key, sep := some [] }))
      else if kind == .itemMark && !last.marked &&
          last.sep.any (fun sep => !Token.anyOf .lineBreak sep) then
        (g, .stray (build before last))
      else
        let parent :=
          if kind != .itemMark && atIndent then build (last :: before) { start := start }
          else build before last
        match g.opened? t [] with
        | some child => (g, .enter parent child)
        | none => (g, .leave (build before last))

def sequenceMove (g : Growth) (t : Token) (offset indent : Nat) (before : List (Entry Tree))
    (last : Entry Tree) : Growth × Move :=
  let build := Open.sequence offset indent
  let whole := build before last
  let take : Growth × Move := (g, .stay (build before { last with start := last.start ++ [t] }))
  let onward : Growth × Move :=
    if indent < g.indent then (g.openIn? t whole).getD (g, .leave whole) else (g, .leave whole)
  if t.isIdle then
    let (before, last) := g.idle t indent before last
    (g, .stay (build before last))
  else if t.kind == .anchor || t.kind == .tag then
    if last.value.isSome || g.indent ≤ indent then onward else take
  else if t.kind == .itemMark && g.indent == indent then
    if last.value.isSome || Token.anyOf .itemMark last.start then
      (g, .stay (whole.push { start := [t] }))
    else take
  else onward

def bracketsMove (g : Growth) (t opening : Token) (entries : List (Entry Tree))
    (ending : List Token) (parent : Option Open) : Growth × Move :=
  let whole := Open.brackets opening entries ending
  let build (entries : List (Entry Tree)) : Growth × Move :=
    (g, .stay (.brackets opening entries ending))
  let next (e : Entry Tree) : Growth × Move := build (e :: entries)
  if t.kind == .unclosed then (g, .close whole)
  else if ending.isEmpty then
    if t.kind == .comma || t.kind == .keyMark then
      match entries with
      | last :: before =>
        if last.sep.isSome then next { start := [t] }
        else build ({ last with start := last.start ++ [t] } :: before)
      | [] => next { start := [t] }
    else if t.kind == .valueMark then
      match entries with
      | last :: before =>
        if last.value.isSome then next { sep := some [t] }
        else build ({ last with sep := some (last.sep.getD [] ++ [t]) } :: before)
      | [] => next { sep := some [t] }
    else if t.isIdle || t.kind == .anchor || t.kind == .tag then
      match entries with
      | last :: before =>
        if last.value.isSome then next { start := [t] }
        else match last.sep with
          | some sep => build ({ last with sep := some (sep ++ [t]) } :: before)
          | none => build ({ last with start := last.start ++ [t] } :: before)
      | [] => next { start := [t] }
    else if isAtom t.kind then
      let entry : Entry Tree := { key := some (.atom t []), sep := some [] }
      match entries with
      | last :: before =>
        if last.value.isSome then next entry
        else if last.sep.isSome then (g, .enter whole (.atom t []))
        else build ({ last with key := entry.key, sep := entry.sep } :: before)
      | [] => next entry
    else if t.kind == .mapEnd || t.kind == .listEnd then
      (g, .stay (.brackets opening entries [t]))
    else (g.openIn? t whole).getD (g, .leave whole)
  else
    let isLeft : Bool := match parent with
      | some (.mapping _ indent _ last) =>
        if t.kind == .valueMark then indent == opening.indent
        else t.kind == .lineBreak && last.sep.isNone
      | _ => false
    if isLeft then (g, .leave whole)
    else if t.kind == .valueMark && !(parent.any Open.isBrackets) then
      ({ g with onKeyLine := true },
        .wrap opening.offset opening.indent
          (.brackets opening.indent opening (Open.bracketEntries opening entries)
            (ending.take 1)) (ending.drop 1 ++ [t]))
    else g.lineEnd t ending (.brackets opening entries)

/-- What a token does to the innermost open tree, given the one around it. -/
def move (g : Growth) (t : Token) (top : Open) (parent : Option Open) : Growth × Move :=
  match top with
  | .atom token ending => g.atomMove t token ending
  | .block header props text => g.blockMove t header props text
  | .mapping offset indent before last => g.mappingMove t offset indent before last
  | .sequence offset indent before last => g.sequenceMove t offset indent before last
  | .brackets opening entries ending => g.bracketsMove t opening entries ending parent

/-- Closes the outermost tree into the document. -/
def settle (g : Growth) (top : Open) : Growth :=
  match g.ground with
  | .document d =>
    let (top, trailing) := top.shed
    let ending := if trailing.isEmpty then d.ending else trailing
    { g with stack := []
             ground := .document { d with content := some (top.close none), ending := ending } }
  | _ => { g with stack := [] }.emit .stray

/-- Closes what the open trees stand on. -/
def closeGround (g : Growth) : Growth :=
  match g.ground with
  | .nothing => g
  | .document d => { g with ground := .nothing }.emit (.document d)
  | .ended ending => { g with ground := .nothing }.emit (.ended ending)

/-- A token between documents. -/
def betweenDocuments (g : Growth) (t : Token) : Growth :=
  match t.kind with
  | .directive => g.emit (.directive t.text)
  | .byteOrderMark => g
  | .opening => { g with ground := .document {} }
  | .documentStart => { g with ground := .document { start := [t] } }
  | _ => if t.isIdle then g else g.emit .stray

/-- A token in a document in which no tree is open. -/
def inDocument (g : Growth) (t : Token) (d : Draft) : Growth :=
  let started : Growth := { g with ground := .document { d with start := d.start ++ [t] } }
  let ended : Growth := { g with ground := .document { d with ending := d.ending ++ [t] } }
  if d.content.isSome then
    if endsLine t.kind then g.closeGround.betweenDocuments t
    else if t.kind == .lineBreak then { ended with onKeyLine := false }.closeGround
    else ended
  else if t.kind == .documentStart then
    if d.start.all Token.isIdle then started else g.closeGround.betweenDocuments t
  else if t.isIdle || t.kind == .anchor || t.kind == .tag then started
  else if opensMapping t.kind then
    let (kept, props) := keyProps d.start
    { g with onKeyLine := true, stack := (g.opened? t props).toList
             ground := .document { d with start := kept } }
  else match g.opened? t [] with
    | some child => { g with stack := [child] }
    | none => g.emit .stray

/-- A token where no tree is open. -/
def onGround (g : Growth) (t : Token) : Growth :=
  match g.ground with
  | .nothing => g.betweenDocuments t
  | .document d => g.inDocument t d
  | .ended ending =>
    if t.kind == .opening then g
    else
      let g := { g with ground := .ended (ending ++ [t]) }
      if t.kind == .lineBreak then g.closeGround else g

/-- Gives a token to an open tree, around which others are open. -/
def feed (t : Token) (top : Open) (around : List Open) (g : Growth) : Growth :=
  match g.move t top around.head? with
  | (g, .stay top) => { g with stack := top :: around }
  | (g, .enter top child) => { g with stack := child :: top :: around }
  | (g, .stray top) =>
    let (top, onKeyLine) := top.receive (.stray t)
    { g with stack := top :: around }.setKeyLine onKeyLine
  | (g, .wrap offset indent key sep) =>
    let mapping (props : List Token) : Open :=
      .mapping offset indent [] { start := props, key := some key, sep := some sep }
    match around, g.ground with
    | parent :: others, _ =>
      let (parent, props) := parent.takeProps
      { g with stack := mapping props :: parent :: others }
    | [], .document d =>
      let (kept, props) := keyProps d.start
      { g with stack := [mapping props], ground := .document { d with start := kept } }
    | [], _ => { g with stack := [mapping []] }
  | (g, .close top) =>
    match around with
    | [] => g.settle top
    | parent :: others =>
      let (parent, onKeyLine) := top.graft parent
      let g := g.setKeyLine onKeyLine
      if t.kind == .unclosed && parent.isBrackets then feed t parent others g
      else { g with stack := parent :: others }
  | (g, .leave top) =>
    match around with
    | [] => (g.settle top).onGround t
    | parent :: others =>
      let (parent, onKeyLine) := top.graft parent
      feed t parent others (g.setKeyLine onKeyLine)

/-- Closes all open trees. -/
def closeTrees (g : Growth) : List Open → Open → Growth
  | [], top => g.settle top
  | parent :: others, top => g.closeTrees others (top.graft parent).1

/-- Closes all that is open. -/
def closeAll (g : Growth) : Growth :=
  match g.stack with
  | [] => g.closeGround
  | top :: others => (g.closeTrees others top).closeGround

def step (g : Growth) (t : Token) : Growth :=
  let isEnded := match g.ground with
    | .ended _ => true
    | _ => false
  if t.kind == .documentEnd && !isEnded then { g.closeAll with ground := .ended [] }
  else match g.stack with
    | [] => g.onGround t
    | top :: around => feed t top around g

/-- A lexeme that is none of the others becomes a part of whatever is open. -/
def takeStray (g : Growth) (t : Token) : Growth :=
  match g.stack, g.ground with
  | top :: around, _ =>
    let (top, onKeyLine) := top.receive (.stray t)
    { g with stack := top :: around }.setKeyLine onKeyLine
  | [], .document d => { g with ground := .document { d with content := some (.stray t) } }
  | [], _ => g.closeGround.emit .stray

/-- A mark of a block collection. -/
def isBlockMark (kind : Lexeme.Kind) : Bool :=
  [.keyMark, .valueMark, .itemMark].contains kind

/-- Takes the next lexeme. -/
def take (g : Growth) (l : Lexeme) : Growth :=
  let t : Token := { l with offset := g.offset, indent := g.indent }
  let g : Growth :=
    match l.kind with
    | .stray => g.takeStray t
    | .text => { g with atLineStart := false }.step t
    | .opening => g.step t
    | .unclosed => g.step t
    | .lineBreak => { g.step t with atLineStart := true, indent := 0 }
    | .blanks =>
      let g := g.step t
      if g.atLineStart && t.text.head? == some ' ' then { g with indent := g.indent + t.width }
      else g
    | kind =>
      let g := g.step t
      if isBlockMark kind then
        if g.atLineStart then { g with indent := g.indent + t.width } else g
      else { g with atLineStart := false }
  { g with offset := g.offset + t.width }

end Growth

/-- The parts of a text that consists of some lexemes. -/
def Part.ofLexemes (ls : List Lexeme) : List Part :=
  (ls.foldl Growth.take {}).closeAll.parts.reverse

end FilterBench.Yaml
