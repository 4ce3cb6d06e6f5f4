/-!
# Lines and blanks

A line ends at a line feed, or at a carriage return with a line feed; a carriage return by itself
is a character like others, save that it ends words. What a scalar goes on with is decided line by
line, from how far a line is indented.
-/
namespace FilterBench.Yaml

def isBlank (c : Char) : Bool := c = ' ' || c = '\t'

/-- Characters that separate words. -/
def isSpace (c : Char) : Bool := isBlank c || c = '\n' || c = '\r'

/-- Whether a word ends before the text. -/
def endsWord : List Char → Bool
  | [] => true
  | c :: _ => isSpace c

/-- The marks of bracketed collections. -/
def isFlowMark (c : Char) : Bool := [',', '[', ']', '\x7b', '\x7d'].contains c

/-- The first line, without its line break. -/
def firstLine : List Char → List Char
  | [] => []
  | '\n' :: _ => []
  | '\r' :: '\n' :: _ => []
  | c :: rest => c :: firstLine rest

/-- The first character of the first line. -/
def lineHead? : List Char → Option Char
  | [] => none
  | '\n' :: _ => none
  | '\r' :: '\n' :: _ => none
  | c :: _ => some c

/-- Whether a line has nothing but blanks and a comment. -/
def isIdle (cs : List Char) : Bool :=
  match (firstLine cs).dropWhile isBlank with
  | [] => true
  | c :: _ => c = '#'

/-- How long the line break is with which the text begins. -/
def breakLength : List Char → Nat
  | '\n' :: _ => 1
  | '\r' :: '\n' :: _ => 2
  | _ => 0

/-- Text is cut at its line feeds: there is one line more than there are line feeds. -/
def splitLines : List Char → List (List Char)
  | [] => [[]]
  | c :: rest =>
    if c = '\n' then [] :: splitLines rest
    else match splitLines rest with
      | line :: lines => (c :: line) :: lines
      | [] => [[c]]

def spaceCount (cs : List Char) : Nat := (cs.takeWhile (· = ' ')).length

def trimLeft (cs : List Char) : List Char := cs.dropWhile isBlank

def trimRight (cs : List Char) : List Char := (cs.reverse.dropWhile isBlank).reverse

/-- Whether a mark stands here that begins or ends a document. -/
def atMark (mark : String) (cs : List Char) : Bool :=
  mark.toList.isPrefixOf cs && endsWord (cs.drop 3)

def atDocumentMark (cs : List Char) : Bool := atMark "---" cs || atMark "..." cs

/-- Whether a scalar goes on with the line that begins here: the line is empty or indented as far
as the margin asks; without a margin it goes on up to the marks of documents. -/
def continues (margin : Nat) (cs : List Char) : Bool :=
  if 0 < margin then
    match cs.drop (spaceCount cs) with
    | '\n' :: _ => true
    | '\r' :: '\n' :: _ => true
    | _ => margin ≤ spaceCount cs
  else !atDocumentMark cs

end FilterBench.Yaml
