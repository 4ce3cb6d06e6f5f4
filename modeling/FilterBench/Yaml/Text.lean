import FilterBench.Yaml.Line
import FilterBench.Yaml.Scalar

/-!
# The text of a scalar

How what is written becomes one text. In flow scalars a line break is a space, and breaks in a row
lose their first one; quoted ones have escapes besides. A literal block keeps its breaks; a folded
block turns the break between two lines of text into a space, save around lines that are indented
more than the block.
-/
namespace FilterBench.Yaml

/-- Line breaks of one form. -/
def unifyBreaks : List Char → List Char
  | '\r' :: '\n' :: rest => '\n' :: unifyBreaks rest
  | c :: rest => c :: unifyBreaks rest
  | [] => []

namespace Flow

/-- Joins the lines after the first one; `breaks` empty lines have come since the last text. -/
def foldRest (breaks : Nat) : List (List Char) → List Char
  | [] => []
  | [last] => separator breaks ++ trimLeft last
  | line :: lines =>
    match trimRight (trimLeft line) with
    | [] => foldRest (breaks + 1) lines
    | text => separator breaks ++ text ++ foldRest 0 lines
where
  separator (breaks : Nat) : List Char :=
    if breaks = 0 then [' '] else List.replicate breaks '\n'

/-- A flow scalar as one text: the blanks around a break go with it. -/
def fold (cs : List Char) : List Char :=
  match splitLines (unifyBreaks cs) with
  | first :: second :: lines => trimRight first ++ foldRest 0 (second :: lines)
  | _ => cs

/-- Characters that cannot begin a plain scalar. -/
def isReserved (c : Char) : Bool :=
  ['\t', ',', '%', '|', '>', '@', '\x60'].contains c

/-- A plain scalar. -/
def plain? (cs : List Char) : Option (List Char) :=
  if cs.head?.any isReserved then none else some (fold cs)

/-- What stands between two quotes. -/
def inside? (quote : Char) (cs : List Char) : Option (List Char) :=
  match cs with
  | _ :: rest => if rest.getLast? = some quote then some rest.dropLast else none
  | [] => none

/-- A single-quoted text: a quote inside it is written twice. -/
def singleQuoted? (cs : List Char) : Option (List Char) :=
  (inside? '\x27' cs).map fun inner => undouble (fold inner)
where
  undouble : List Char → List Char
    | '\x27' :: '\x27' :: rest => '\x27' :: undouble rest
    | c :: rest => c :: undouble rest
    | [] => []

/-- The character that a short escape stands for. -/
def escaped? : Char → Option Char
  | '0' => some '\x00'
  | 'a' => some '\x07'
  | 'b' => some '\x08'
  | 't' => some '\t'
  | '\t' => some '\t'
  | 'n' => some '\n'
  | 'v' => some '\x0b'
  | 'f' => some '\x0c'
  | 'r' => some '\r'
  | 'e' => some '\x1b'
  | ' ' => some ' '
  | '"' => some '"'
  | '/' => some '/'
  | '\\' => some '\\'
  | 'N' => some '\u0085'
  | '_' => some '\u00a0'
  | 'L' => some '\u2028'
  | 'P' => some '\u2029'
  | _ => none

/-- How many hexadecimal digits follow an escape by number. -/
def escapeWidth? : Char → Option Nat
  | 'x' => some 2
  | 'u' => some 4
  | 'U' => some 8
  | _ => none

/-- What a double-quoted text has begun: blanks that a break would drop, breaks, the line after an
escaped break, an escape, or the digits of an escape by number. -/
inductive Pending where
  | none
  | blanks (cs : List Char)
  | breaks (count : Nat)
  | continued
  | escape
  | digits (left value : Nat)

/-- The numbers of the characters that something begun stands for once a character follows. -/
def Pending.released : Pending → List Nat
  | .blanks cs => cs.map Char.toNat
  | .breaks count => if count = 1 then [32] else List.replicate (count - 1) 10
  | _ => []

/-- The numbers of the characters of a double-quoted text. An escape that the text leaves open is
that of the quote after it. -/
def unquote : Pending → List Char → Option (List Nat)
  | .escape, [] => some ['"'.toNat]
  | .digits .., [] => none
  | p, [] => some p.released
  | .escape, c :: rest =>
    match c, escaped? c, escapeWidth? c with
    | '\n', _, _ => unquote .continued rest
    | _, some d, _ => (unquote .none rest).map (d.toNat :: ·)
    | _, none, some width => unquote (.digits width 0) rest
    | _, none, none => none
  | .digits left value, c :: rest => do
    let value := value * 16 + (← Scalar.digit? 16 c)
    if 1 < left then unquote (.digits (left - 1) value) rest
    else if value ≤ 0x10FFFF then return value :: (← unquote .none rest)
    else none
  | p, '\n' :: rest => match p with
    | .breaks count => unquote (.breaks (count + 1)) rest
    | _ => unquote (.breaks 1) rest
  | p, c :: rest =>
    if isBlank c then match p with
      | .breaks count => unquote (.breaks count) rest
      | .continued => unquote .continued rest
      | .blanks cs => unquote (.blanks (cs ++ [c])) rest
      | _ => unquote (.blanks [c]) rest
    else if c = '\\' then (unquote .escape rest).map (p.released ++ ·)
    else (unquote .none rest).map (p.released ++ c.toNat :: ·)

/-- Numbers as characters: two halves of a pair are one character beyond the basic plane, and a
half without its other half is shown as the replacement character. -/
def joinHalves : List Nat → List Char
  | [] => []
  | [n] => [single n]
  | high :: low :: rest =>
    if 0xD800 ≤ high ∧ high < 0xDC00 ∧ 0xDC00 ≤ low ∧ low < 0xE000 then
      Char.ofNat (0x10000 + (high - 0xD800) * 0x400 + (low - 0xDC00)) :: joinHalves rest
    else single high :: joinHalves (low :: rest)
where
  single (n : Nat) : Char := if 0xD800 ≤ n ∧ n < 0xE000 then '\ufffd' else Char.ofNat n

/-- A double-quoted text, with its escapes. -/
def doubleQuoted? (cs : List Char) : Option (List Char) :=
  (inside? '"' cs).bind fun inner => (unquote .none (unifyBreaks inner)).map joinHalves

end Flow

/-- How a block scalar treats its last line break and the empty lines after it. -/
inductive Chomp where
  | strip | clip | keep
  deriving DecidableEq, Repr, Inhabited

structure BlockHeader where
  folded : Bool
  chomp : Chomp := .clip
  /-- The indentation of the text beyond that of its surroundings, when it is written down. -/
  indent : Option Nat := none
  deriving Repr, Inhabited

namespace Block

/-- The header of a block scalar: at most one sign and one digit after the mark. -/
def header? (cs : List Char) : Option BlockHeader :=
  match cs with
  | mark :: signs =>
    let digits := signs.filter Char.isDigit
    let chomps := signs.filter fun c => c = '+' || c = '-'
    if digits.length + chomps.length = signs.length ∧ digits.length ≤ 1 ∧ chomps.length ≤ 1 ∧
        digits ≠ ['0'] then
      some
        { folded := mark = '>'
          chomp := if chomps = ['+'] then .keep else if chomps = ['-'] then .strip else .clip
          indent := digits.head?.map fun c => c.toNat - '0'.toNat }
    else none
  | [] => none

/-- A line of a block scalar: its leading spaces and the rest of it. -/
abbrev Line := Nat × List Char

def Line.ofChars (cs : List Char) : Line :=
  let text := cs.drop (spaceCount cs)
  (spaceCount cs, if text.getLast? = some '\r' then text.dropLast else text)

/-- A line that the indentation leaves empty. -/
def Line.isEmpty (l : Line) : Bool := l.2.isEmpty

/-- A line without the indentation of the block. -/
def Line.text (indent : Nat) (l : Line) : List Char := List.replicate (l.1 - indent) ' ' ++ l.2

/-- Lines of a folded block, joined. The separator is what stands between the text so far and the
next line of text; `deep` says that the line before was indented more than the block. -/
def foldLines (indent : Nat) (separator : List Char) (deep : Bool) : List Line → List Char
  | [] => []
  | l :: lines =>
    if indent < l.1 ∨ l.2.head? = some '\t' then
      let separator :=
        if separator = [' '] then ['\n']
        else if !deep ∧ separator = ['\n'] then ['\n', '\n']
        else separator
      separator ++ l.text indent ++ foldLines indent ['\n'] true lines
    else if l.isEmpty then
      if separator = ['\n'] then '\n' :: foldLines indent separator deep lines
      else foldLines indent ['\n'] deep lines
    else separator ++ l.2 ++ foldLines indent [' '] false lines

/-- The indentation of a block within something indented as far as `around`: as its header says,
or that of its first line that is not empty. The empty lines before that are not indented more. -/
def depth? (h : BlockHeader) (around : Nat) (atRoot : Bool) (leading : List Line) (first : Line) :
    Option Nat :=
  let depth := match h.indent with
    | some n => around + n
    | none => first.1
  let least := match h.indent with
    | some n => around + n
    | none => leading.foldl (fun n l => max n l.1) around
  if first.1 < least ∨ (depth = 0 ∧ !atRoot) then none else some depth

/-- The text of a block scalar from its lines, the last of which is what stands after the last
line break. -/
def text? (h : BlockHeader) (around : Nat) (atRoot : Bool) (lines : List Line) :
    Option (List Char) :=
  let leading := lines.takeWhile Line.isEmpty
  match lines.drop leading.length with
  | [] =>
    some (if h.chomp = .keep ∧ lines ≠ [] then List.replicate (max 1 (lines.length - 1)) '\n'
      else [])
  | first :: others => do
    let indent ← depth? h around atRoot leading first
    let trailing := others.reverse.takeWhile fun l => l.isEmpty ∧ l.1 ≤ indent
    let content := (first :: others).take (others.length + 1 - trailing.length)
    if content.any fun l => !l.isEmpty && decide (l.1 < indent) then none
    else
      let before := leading.flatMap fun l => l.text indent ++ ['\n']
      let inner :=
        if h.folded then foldLines indent [] false content
        else List.intercalate ['\n'] (content.map (Line.text indent))
      let after := match h.chomp with
        | .strip => []
        | .clip => ['\n']
        | .keep => List.replicate (max 1 trailing.length) '\n'
      some (before ++ inner ++ after)

/-- The lines of a block scalar that is written like this. -/
def linesOf (cs : List Char) : List Line := if cs = [] then [] else (splitLines cs).map Line.ofChars

end Block

end FilterBench.Yaml
