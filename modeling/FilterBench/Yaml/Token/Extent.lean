import FilterBench.Yaml.Line

/-!
# How far a lexeme goes

For each sort of lexeme that is longer than an indicator, how many characters of the text belong
to it. Scalars over several lines go on as long as their lines do (`continues`).
-/
namespace FilterBench.Yaml.Extent

/-- A directive ends before the blanks in front of a comment or at the end of its line. -/
def directive (line : List Char) : Nat := (trimRight (beforeComment line)).length
where
  /-- What stands before the first comment of a line. -/
  beforeComment : List Char → List Char
    | [] => []
    | c :: rest =>
      if isBlank c ∧ rest.head? = some '#' then [] else c :: beforeComment rest

/-- Names after an indicator end at a space or at a mark of brackets. -/
def name (cs : List Char) : Nat := (cs.takeWhile fun c => !(isSpace c || isFlowMark c)).length

def isHexDigit (c : Char) : Bool :=
  c.isDigit || ('a' ≤ c && c ≤ 'f') || ('A' ≤ c && c ≤ 'F')

/-- Characters that a tag is written with, apart from octets by number. -/
def isTagChar (c : Char) : Bool :=
  c.isAlphanum || "-#;/?:@&=+$_.!~*\x27()".toList.contains c

/-- The rest of a tag that is written through a handle. -/
def shortTag : List Char → Nat
  | '%' :: a :: b :: rest => if isHexDigit a && isHexDigit b then shortTag rest + 3 else 0
  | c :: rest => if isTagChar c then shortTag rest + 1 else 0
  | [] => 0

/-- A tag; one that is written in full stands between angle brackets. -/
def tag : List Char → Nat
  | _ :: '<' :: rest =>
    let full := (rest.takeWhile fun c => !(isSpace c || c = '>')).length
    if rest[full]? = some '>' then full + 3 else full + 2
  | _ :: rest => shortTag rest + 1
  | [] => 0

/-- A plain scalar, of which `finish` characters are sure after `count` of them. -/
def plainFrom (bracketed : Bool) (margin : Nat) : Nat → Nat → List Char → Nat
  | _, finish, [] => finish
  | count, finish, '\r' :: '\n' :: rest =>
    if stopsAfterSpace bracketed rest || !continues margin rest then finish
    else plainFrom bracketed margin (count + 2) finish rest
  | count, finish, c :: rest =>
    if c = ':' then
      if endsWord rest || (bracketed && rest.head?.any isFlowMark) then finish
      else plainFrom bracketed margin (count + 1) (count + 1) rest
    else if c = '\n' then
      if stopsAfterSpace bracketed rest || !continues margin rest then finish
      else plainFrom bracketed margin (count + 1) finish rest
    else if isSpace c then
      let finish := if c = '\r' then count + 1 else finish
      if stopsAfterSpace bracketed rest then finish
      else plainFrom bracketed margin (count + 1) finish rest
    else if bracketed && isFlowMark c then finish
    else plainFrom bracketed margin (count + 1) (count + 1) rest
where
  /-- A plain scalar ends at a space that a comment follows, or a mark of the brackets around. -/
  stopsAfterSpace (bracketed : Bool) (rest : List Char) : Bool :=
    rest.head? == some '#' || (bracketed && rest.head?.any isFlowMark)

def plain (bracketed : Bool) (margin : Nat) (cs : List Char) : Nat :=
  plainFrom bracketed margin 0 0 cs

/-- The rest of a text in single quotes, up to and with its closing quote. -/
def singleQuoted? : List Char → Option Nat
  | [] => none
  | '\x27' :: '\x27' :: rest => (singleQuoted? rest).map (· + 2)
  | c :: rest => if c = '\x27' then some 1 else (singleQuoted? rest).map (· + 1)

/-- The rest of a text in double quotes, up to and with its closing quote. -/
def doubleQuoted? : List Char → Option Nat
  | [] => none
  | '\\' :: _ :: rest => (doubleQuoted? rest).map (· + 2)
  | c :: rest => if c = '"' then some 1 else (doubleQuoted? rest).map (· + 1)

/-- Where a text breaks off whose line is not indented as far as the margin asks: before the line
break, looking only at the first `inside` characters. -/
def breakOff? (margin : Nat) : Nat → List Char → Option Nat
  | 0, _ => none
  | _, [] => none
  | inside + 1, c :: rest =>
    if c = '\n' ∧ !continues margin rest then some 0
    else if c = '\r' ∧ 0 < inside ∧ rest.head? = some '\n' ∧ !continues margin (rest.drop 1) then
      some 0
    else (breakOff? margin inside rest).map (· + 1)

/-- A text in quotes; it is all that is left if nothing closes it. -/
def quoted (margin : Nat) : List Char → Nat
  | [] => 0
  | quote :: rest =>
    match if quote = '"' then doubleQuoted? rest else singleQuoted? rest with
    | none => rest.length + 1
    | some n => (breakOff? margin (n - 1) rest).getD n + 1

/-- The header of a block scalar. -/
def header (cs : List Char) : Nat := (cs.takeWhile fun c => !(isSpace c || c = '#')).length

/-- The lines that a block scalar holds at the margin, with their line feeds. The last line has
none: it is held with one that is missing. -/
def heldLines (margin : Nat) : List (List Char) → Nat
  | [] => 0
  | [last] => if continues margin last then last.length + 1 else 0
  | line :: lines =>
    if continues margin (line ++ ['\n']) then line.length + 1 + heldLines margin lines else 0

/-- How much of the text the empty lines are with which it begins, and how far the line after them
is indented; `count` characters were passed, of which `held` belong to empty lines. -/
def emptyLines : Nat → Nat → Nat → List Char → Nat × Nat
  | _, held, indent, [] => (held, indent)
  | count, _, _, '\r' :: '\n' :: rest => emptyLines (count + 2) (count + 2) 0 rest
  | count, held, indent, c :: rest =>
    if c = ' ' then emptyLines (count + 1) held (indent + 1) rest
    else if c = '\n' then emptyLines (count + 1) (count + 1) 0 rest
    else (held, indent)

/-- Lines without the empty ones at their end. A line counts as empty that has only spaces, no more
of them than the first line of the text; the first line stays. -/
def dropEmpty (indent : Nat) : List (List Char) → List (List Char)
  | [] => []
  | first :: lines => first :: (lines.reverse.dropWhile isEmpty).reverse
where
  isEmpty (line : List Char) : Bool :=
    let line := if line.getLast? = some '\r' then line.dropLast else line
    line.all (· = ' ') && line.length ≤ indent

/-- The text of a block scalar, and the margin that it sets. Without an indicator its first line
sets the margin. Empty lines at its end are left to what follows, unless they are to be kept;
tabs in front of what follows are taken with it, so that they are seen to be out of place. -/
def block (margin : Nat) (indicator : Option Nat) (keep : Bool) (cs : List Char) : Nat × Nat :=
  let (lead, indent) := emptyLines 0 0 0 cs
  let (held, margin) :=
    if margin ≤ indent then
      let margin := match indicator with
        | none => indent
        | some n => n - 1 + (if margin = 0 then 1 else margin)
      (lead + heldLines margin (splitLines (cs.drop lead)), margin)
    else (lead, margin)
  let after := cs.drop held
  let held :=
    if (after.dropWhile (· = ' ')).head? = some '\t' then held + (after.takeWhile isSpace).length
    else if keep || held = 0 then held
    else
      let lines := splitLines (cs.take (held - 1))
      let dropped := lines.drop (dropEmpty indent lines).length
      held - (dropped.length + dropped.flatten.length)
  (min held cs.length, margin)

end FilterBench.Yaml.Extent
