import FilterBench.Text.Utf8
import FilterBench.Yaml.Scalar
import FilterBench.Yaml.Token.Extent

/-!
# Directives and the names of tags

Directives before a document say which version it has and what the handles of tags stand for. The
name of a tag is the text that its handle stands for and what follows the handle, in which octets
may be written by number.
-/
namespace FilterBench.Yaml

structure Directives where
  version : Version := .v12
  /-- Handles and what they stand for, the last one first. -/
  handles : List (String × String) := [("!!", Scalar.standard)]
  deriving Repr, Inhabited

namespace Directives

/-- Characters that separate the words of a directive or stand around them. -/
def isPadding (c : Char) : Bool :=
  c.isWhitespace || ['\x0b', '\x0c', '\u00a0', '\u1680', '\u2028', '\u2029', '\u202f', '\u205f',
    '\u3000', '\ufeff'].contains c || ('\u2000' ≤ c && c ≤ '\u200a')

/-- The words of a line, which blanks separate. -/
def words (cs : List Char) : List String :=
  let trimmed := ((cs.dropWhile isPadding).reverse.dropWhile isPadding).reverse
  (split trimmed).map String.ofList
where
  split : List Char → List (List Char)
    | [] => [[]]
    | c :: rest =>
      if isBlank c then
        if rest.head?.any isBlank then split rest else [] :: split rest
      else match split rest with
        | word :: others => (c :: word) :: others
        | [] => [[c]]

/-- Whether it is two numbers with a point between them. -/
def isVersionText (s : String) : Bool :=
  let cs := s.toList
  let major := cs.takeWhile Char.isDigit
  let rest := cs.drop major.length
  let minor := rest.drop 1
  !major.isEmpty && rest.head? == some '.' && !minor.isEmpty && minor.all Char.isDigit

/-- Takes a directive. One that is not known says nothing; `none` if a known one is malformed. -/
def add (d : Directives) (line : List Char) : Option Directives :=
  match words line with
  | "%TAG" :: parts =>
    match parts with
    | [handle, full] => some { d with handles := (handle, full) :: d.handles }
    | _ => none
  | "%YAML" :: parts =>
    match parts with
    | ["1.1"] => some { d with version := .v11 }
    | ["1.2"] => some { d with version := .v12 }
    | [version] => if isVersionText version then some d else none
    | _ => none
  | _ => some d

/-- The octets of a text in which `%` comes before the two digits of an octet. -/
def octets : List Char → Utf8.Bytes
  | [] => []
  | '%' :: a :: b :: rest =>
    match Scalar.digit? 16 a, Scalar.digit? 16 b with
    | some high, some low => (high * 16 + low).toUInt8 :: octets rest
    | _, _ => String.utf8EncodeChar '%' ++ octets (a :: b :: rest)
  | c :: rest => String.utf8EncodeChar c ++ octets rest

/-- The text that octets by number stand for, if they are well-formed. -/
def decoded? (cs : List Char) : Option String :=
  let text := String.ofList (Utf8.decode (octets cs))
  if Utf8.encode text = octets cs then some text else none

/-- The name of a tag as it is written, which is empty for a tag that says nothing; `none` if it is
malformed. -/
def tagName? (d : Directives) (written : List Char) : Option String :=
  match written with
  | ['!'] => some "!"
  | '!' :: '<' :: rest =>
    let full := rest.dropLast
    if rest.getLast? ≠ some '>' ∨ full = ['!'] ∨ full = ['!', '!'] then none
    else some (String.ofList full)
  | _ =>
    let suffix := (written.reverse.takeWhile (· ≠ '!')).reverse
    let handle := String.ofList (written.take (written.length - suffix.length))
    if suffix.isEmpty then none
    else match d.handles.lookup handle with
      | some full => (decoded? suffix).map (full ++ ·)
      | none => if handle = "!" then some (String.ofList written) else none

end Directives

end FilterBench.Yaml
