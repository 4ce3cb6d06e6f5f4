import FilterBench.Yaml.Line

/-!
# Tokens of a document

A text is cut into lexemes: indicators, blanks, comments, names, and scalars as they are written.
Together they are the text; two kinds have no text of their own and only say where a document
begins and where brackets end that nobody closed. A token is a lexeme with its place: how far into
the text it stands, counted in the units of UTF-16, and how far its line is indented before it.
-/
namespace FilterBench.Yaml

/-- What a lexeme is. -/
inductive Lexeme.Kind where
  | byteOrderMark
  | directive
  | comment
  | blanks
  | lineBreak
  /-- A document begins. -/
  | opening
  | documentStart
  | documentEnd
  | itemMark
  | keyMark
  | valueMark
  | mapStart
  | mapEnd
  | listStart
  | listEnd
  | comma
  /-- All brackets end, although they are not closed. -/
  | unclosed
  | reference
  | anchor
  | tag
  /-- A plain scalar, or the text of a block scalar. -/
  | text
  | singleQuoted
  | doubleQuoted
  /-- What a block scalar begins with. -/
  | header
  /-- Something that has no place where it stands. -/
  | stray
  deriving DecidableEq, Repr, Inhabited

namespace Lexeme.Kind

/-- The mark that a character is, be it of a block collection or of brackets. -/
def ofMark? (c : Char) : Option Kind :=
  match c with
  | '-' => some .itemMark
  | '?' => some .keyMark
  | ':' => some .valueMark
  | '\x7b' => some .mapStart
  | '\x7d' => some .mapEnd
  | '[' => some .listStart
  | ']' => some .listEnd
  | ',' => some .comma
  | _ => none

/-- What a text is that stands for itself: a mark alone, or something known by how it begins. -/
def ofText (cs : List Char) : Kind :=
  match cs with
  | [] => .lineBreak
  | ['\ufeff'] => .byteOrderMark
  | [c] => (ofMark? c).getD (ofStart c)
  | c :: _ =>
    if cs = ['-', '-', '-'] then .documentStart
    else if cs = ['.', '.', '.'] then .documentEnd
    else ofStart c
where
  ofStart (c : Char) : Kind :=
    match c with
    | '#' => .comment
    | '%' => .directive
    | '*' => .reference
    | '&' => .anchor
    | '!' => .tag
    | '\x27' => .singleQuoted
    | '"' => .doubleQuoted
    | '|' => .header
    | '>' => .header
    | c => if isBlank c then .blanks else .stray

end Lexeme.Kind

structure Lexeme where
  kind : Lexeme.Kind
  text : List Char := []
  deriving DecidableEq, Repr, Inhabited

/-- The length of text in the units of UTF-16. -/
def unitCount (cs : List Char) : Nat :=
  cs.foldl (fun n c => n + if c.toNat < 0x10000 then 1 else 2) 0

structure Token extends Lexeme where
  offset : Nat
  indent : Nat
  deriving DecidableEq, Repr, Inhabited

namespace Token

def width (t : Token) : Nat := unitCount t.text

/-- Where the text after the token begins. -/
def finish (t : Token) : Nat := t.offset + t.width

/-- Blanks, line breaks and comments stand between what counts. -/
def isIdle (t : Token) : Bool :=
  match t.kind with
  | .blanks => true
  | .lineBreak => true
  | .comment => true
  | _ => false

/-- Whether one of some tokens is of a kind. -/
def anyOf (kind : Lexeme.Kind) (ts : List Token) : Bool := ts.any fun t => t.kind == kind

end Token

end FilterBench.Yaml
