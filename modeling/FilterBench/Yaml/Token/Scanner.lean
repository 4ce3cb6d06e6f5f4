import FilterBench.Yaml.Token
import FilterBench.Yaml.Token.Extent

/-!
# Cutting a text into tokens

What a character means depends on what came before it. A `Scanner` keeps what matters of that: the
indentation of the line with the marks of block collections on it, the margin from which the lines
of a scalar go on, how many brackets are open, and whether the key of a pair has just ended, for
then a colon needs no space after it. In each `Stage` it takes at least one character or goes on to
the next stage of a line, so that a bound on the number of steps is known beforehand.
-/
namespace FilterBench.Yaml

structure Scanner where
  rest : List Char
  /-- How often a loop can go on, for it takes a character each time: the length of the text. -/
  bound : Nat
  column : Nat := 0
  margin : Nat := 0
  depth : Nat := 0
  keyed : Bool := false
  /-- What was found, the last one first. -/
  found : List Lexeme := []

/-- What the next character is part of. -/
inductive Scanner.Stage where
  /-- What stands between documents. -/
  | between
  | lineStart
  /-- The marks of block collections at the start of a line. -/
  | marks
  | content
  | brackets

abbrev Scan := StateM Scanner

namespace Scan

/-- The next character, unless the line ends. -/
def next? : Scan (Option Char) := return lineHead? (← get).rest

/-- Takes a lexeme of some characters. -/
def take (kind : Lexeme.Kind) (count : Nat) : Scan Unit :=
  modify fun s =>
    { s with rest := s.rest.drop count, found := ⟨kind, s.rest.take count⟩ :: s.found }

/-- Takes a lexeme if it has characters. -/
def takeSome (kind : Lexeme.Kind) (count : Nat) : Scan Unit :=
  if count = 0 then return else take kind count

/-- Takes spaces, and says how many. -/
def spaces : Scan Nat := do
  let count := spaceCount (← get).rest
  takeSome .blanks count
  return count

/-- Takes spaces and tabs, and says how many. -/
def blanks : Scan Nat := do
  let count := ((← get).rest.takeWhile isBlank).length
  takeSome .blanks count
  return count

/-- Takes a line break, and says whether there was one. -/
def lineBreak : Scan Bool := do
  let count := breakLength (← get).rest
  takeSome .lineBreak count
  return 0 < count

/-- Takes the rest of a line for what it is; only a comment is in its place. -/
def restOfLine : Scan Unit := do
  let line := firstLine (← get).rest
  takeSome (.ofText line) line.length

def setKeyed (keyed : Bool) : Scan Unit := modify fun s => { s with keyed := keyed }

/-- Takes one character that is a mark. -/
def mark : Scan Unit := do
  take (((← get).rest.head?.bind Lexeme.Kind.ofMark?).getD .stray) 1

/-- Takes anchors, tags, and marks that words do not run into. Outside of brackets a mark sets the
margin. -/
def indicators : Nat → Scan Unit
  | 0 => return
  | fuel + 1 => do
    let s ← get
    match s.rest with
    | [] => return
    | c :: rest =>
      if c = '!' then
        take .tag (Extent.tag s.rest)
        discard blanks
        indicators fuel
      else if c = '&' then
        take .anchor (Extent.name s.rest)
        discard blanks
        indicators fuel
      else if ['-', '?', ':'].contains c ∧
          (endsWord rest ∨ (0 < s.depth ∧ rest.head?.any isFlowMark)) then
        if s.depth = 0 then modify fun s => { s with margin := s.column + 1 } else setKeyed false
        mark
        discard blanks
        indicators fuel
      else return

/-- Takes the indicators that stand here. -/
def allIndicators : Scan Unit := do indicators (← get).bound

/-- Where a scalar leads. -/
def afterScalar : Scan Scanner.Stage :=
  return if (← get).depth = 0 then .content else .brackets

def quoted : Scan Scanner.Stage := do
  let s ← get
  let kind := if s.rest.head? = some '"' then Lexeme.Kind.doubleQuoted else .singleQuoted
  take kind (Extent.quoted s.margin s.rest)
  afterScalar

def plain : Scan Scanner.Stage := do
  let s ← get
  take .text (Extent.plain (decide (0 < s.depth)) s.margin s.rest)
  afterScalar

def reference : Scan Scanner.Stage := do
  take .reference (Extent.name (← get).rest)
  afterScalar

/-- Takes the header and the text of a block scalar. -/
def block : Scan Scanner.Stage := do
  let header := Extent.header (← get).rest
  let signs := ((← get).rest.drop 1).takeWhile fun c => c = '+' || c = '-' || ('1' ≤ c && c ≤ '9')
  let indicator := (signs.filter Char.isDigit).getLast?.map fun c => c.toNat - '0'.toNat
  take .header header
  discard blanks
  restOfLine
  discard lineBreak
  let s ← get
  let (count, margin) := Extent.block s.margin indicator (signs.contains '+') s.rest
  modify fun s => { s with margin := margin }
  take .text count
  return .lineStart

/-- Takes what stands between documents: directives and comments. -/
def between : Scan Scanner.Stage := do
  if (← get).rest.head? = some '\ufeff' then take .byteOrderMark 1
  let s ← get
  if s.rest.head? = some '%' then
    take .directive (Extent.directive (firstLine s.rest))
    discard blanks
    restOfLine
    discard lineBreak
    return .between
  else if isIdle s.rest then
    discard blanks
    restOfLine
    discard lineBreak
    return .between
  else
    take .opening 0
    return .lineStart

/-- Takes a mark of documents, or the indentation of a line. -/
def lineStart : Scan Scanner.Stage := do
  let s ← get
  if atMark "---" s.rest then
    take .documentStart 3
    modify fun s => { s with column := 0, margin := 0 }
    return .content
  else if atMark "..." s.rest then
    take .documentEnd 3
    modify fun s => { s with column := 0, margin := 0 }
    return .between
  else
    let column ← spaces
    modify fun s =>
      { s with
        column := column
        margin := if column < s.margin ∧ !endsWord (s.rest.drop 1) then column else s.margin }
    return .marks

def marks : Scan Scanner.Stage := do
  let s ← get
  match s.rest with
  | c :: rest =>
    if ['-', '?', ':'].contains c ∧ endsWord rest then
      mark
      let count ← blanks
      modify fun s => { s with margin := s.column + 1, column := s.column + 1 + count }
      return .marks
    else return .content
  | [] => return .content

/-- Takes what a node outside of brackets begins with. -/
def content : Scan Scanner.Stage := do
  discard blanks
  allIndicators
  match ← next? with
  | none =>
    discard lineBreak
    return .lineStart
  | some c =>
    if c = '#' then
      restOfLine
      discard lineBreak
      return .lineStart
    else if c = '[' ∨ c = '\x7b' then
      mark
      modify fun s => { s with keyed := false, depth := 1 }
      return .brackets
    else if c = ']' ∨ c = '\x7d' then
      mark
      return .content
    else if c = '*' then reference
    else if c = '"' ∨ c = '\x27' then quoted
    else if c = '|' ∨ c = '>' then block
    else plain

/-- Takes blanks and line breaks; gives the indentation of the last line that began. -/
def gap : Nat → Option Nat → Scan (Option Nat)
  | 0, indent => return indent
  | fuel + 1, indent => do
    if ← lineBreak then
      let column ← spaces
      modify fun s => { s with column := column }
      discard blanks
      gap fuel (some column)
    else if (← blanks) = 0 then return indent
    else gap fuel indent

/-- Takes commas. -/
def commas : Nat → Scan Unit
  | 0 => return
  | fuel + 1 => do
    if (← get).rest.head? = some ',' then
      mark
      discard blanks
      setKeyed false
      commas fuel

/-- Whether brackets end because a line, with its indentation given, does not belong to them. The
bracket that closes the outermost ones may stand right at the margin of what is around. -/
def breaksOff (s : Scanner) : Option Nat → Bool
  | none => false
  | some indent =>
    let head := lineHead? s.rest
    let out := (decide (indent < s.margin) && head != some '#') ||
      (indent == 0 && atDocumentMark s.rest)
    out && !(indent + 1 == s.margin && s.depth == 1 && (head == some ']' || head == some '\x7d'))

/-- Takes what stands next within brackets. -/
def brackets : Scan Scanner.Stage := do
  let indent ← gap (← get).bound none
  if breaksOff (← get) indent then
    take .unclosed 0
    modify fun s => { s with depth := 0 }
    return .lineStart
  else
    commas (← get).bound
    allIndicators
    let s ← get
    match ← next? with
    | none => return .brackets
    | some c =>
      if c = '#' then
        restOfLine
        return .brackets
      else if c = '[' ∨ c = '\x7b' then
        mark
        modify fun s => { s with keyed := false, depth := s.depth + 1 }
        return .brackets
      else if c = ']' ∨ c = '\x7d' then
        mark
        modify fun s => { s with keyed := true, depth := s.depth - 1 }
        afterScalar
      else if c = '*' then reference
      else if c = '"' ∨ c = '\x27' then
        setKeyed true
        quoted
      else if c = ':' ∧ (s.keyed ∨ endsWord (s.rest.drop 1) ∨ s.rest[1]? = some ',') then
        setKeyed false
        mark
        discard blanks
        return .brackets
      else
        setKeyed false
        plain

def step : Scanner.Stage → Scan Scanner.Stage
  | .between => between
  | .lineStart => lineStart
  | .marks => marks
  | .content => content
  | .brackets => brackets

/-- Takes steps until the text is used up, at most `fuel` of them. -/
def run : Nat → Scanner.Stage → Scan Unit
  | 0, _ => return
  | fuel + 1, stage => do
    if (← get).rest.isEmpty then return
    else run fuel (← step stage)

end Scan

/-- The lexemes of a text. At most three steps go by without a character being taken. -/
def Lexeme.scan (cs : List Char) : List Lexeme :=
  (Scan.run (4 * cs.length + 4) .between { rest := cs, bound := cs.length }).2.found.reverse

end FilterBench.Yaml
