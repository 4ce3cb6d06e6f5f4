import FilterBench.Reply.Basic

/-!
# Enhanced status codes

A reply may carry a finer status code such as `5.7.1` before its text, repeated on every line.
`Reply.split` takes it off the lines that have it.
-/
namespace FilterBench.Reply

/-- One to three decimal digits. -/
def isDigitGroup (cs : List Char) : Bool :=
  1 ≤ cs.length && cs.length ≤ 3 && cs.all Char.isDigit

/-- A class of 2, 4 or 5 and two groups of digits, with dots between them. -/
def isStatusCode : List Char → Bool
  | c :: '.' :: rest =>
    let subject := rest.takeWhile (· != '.')
    match rest.dropWhile (· != '.') with
    | [] => false
    | _ :: detail =>
      (c == '2' || c == '4' || c == '5') && isDigitGroup subject && isDigitGroup detail
  | _ => false

/-- The status code that the first line starts with, ended by a space. -/
def statusCode? (lines : List (List Char)) : Option (List Char) :=
  let first := lines.headD []
  let word := first.takeWhile (· != ' ')
  if first.contains ' ' && isStatusCode word then some word else none

/-- A line without the leading code and its space, when it has them. -/
def stripCode (code line : List Char) : List Char :=
  if (code ++ [' ']).isPrefixOf line then line.drop (code.length + 1) else line

def joinLines : List (List Char) → List Char
  | [] => []
  | [l] => l
  | l :: more => l ++ '\n' :: joinLines more

/-- The status code, if any, and the text of the lines without it. -/
def split (r : Reply) : Option (List Char) × List Char :=
  match statusCode? r.lines with
  | none => (none, joinLines r.lines)
  | some code => (some code, joinLines (r.lines.map (stripCode code)))

end FilterBench.Reply
