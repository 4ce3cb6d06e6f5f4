import FilterBench.Value

/-!
# The value of a scalar

An untagged plain scalar has the value that it spells in the schema of the document's version, and
is a text if it spells none. A tag asks for a value of one sort. Version 1.2 knows three spellings
of null, of true and of false, whole numbers in base eight, ten or sixteen, and numbers with a
point or an exponent. Version 1.1 has more words for true and false, underscores within numbers,
base two, base sixty, dates, and the key that merges mappings. Only the ASCII digits are digits.
-/
namespace FilterBench.Yaml

inductive Version where
  | v11 | v12
  deriving DecidableEq, Repr, Inhabited

/-- A scalar that was read. -/
structure Leaf where
  value : Value
  /-- As a key it merges mappings into the one around. -/
  merges : Bool := false
  /-- It is written without a tag and without a comment. -/
  bare : Bool := true
  deriving Repr, Inhabited

namespace Scalar

/-- The digit's value in a base up to sixteen. -/
def digit? (base : Nat) (c : Char) : Option Nat :=
  let n :=
    if c.isDigit then c.toNat - '0'.toNat
    else if 'a' ≤ c ∧ c ≤ 'f' then c.toNat - 'a'.toNat + 10
    else if 'A' ≤ c ∧ c ≤ 'F' then c.toNat - 'A'.toNat + 10
    else base
  if n < base then some n else none

/-- The number that a list of digits spells. -/
def digits? (base : Nat) (cs : List Char) : Option Nat :=
  if cs = [] then none
  else cs.foldlM (fun n c => (digit? base c).map (n * base + ·)) 0

/-- Whether a sign stands first and is a minus, and what follows it. -/
def signed : List Char → Bool × List Char
  | '-' :: rest => (true, rest)
  | '+' :: rest => (false, rest)
  | cs => (false, cs)

/-- Whether it is one of some words. -/
def spells (cs : List Char) (words : List String) : Bool := words.any (·.toList == cs)

def null? (cs : List Char) : Option Value :=
  if spells cs ["", "~", "null", "Null", "NULL"] then some .null else none

def truths : Version → List String
  | .v11 => ["Y", "y", "Yes", "yes", "YES", "True", "true", "TRUE", "On", "on", "ON"]
  | .v12 => ["True", "true", "TRUE"]

def falsehoods : Version → List String
  | .v11 => ["N", "n", "No", "no", "NO", "False", "false", "FALSE", "Off", "off", "OFF"]
  | .v12 => ["False", "false", "FALSE"]

def bool? (v : Version) (cs : List Char) : Option Value :=
  if spells cs (truths v) then some (.bool true)
  else if spells cs (falsehoods v) then some (.bool false)
  else none

def number (negative : Bool) (n : Nat) : Numeral := .nearest negative n 1

def whole12? (cs : List Char) : Option Value :=
  match cs with
  | '0' :: 'o' :: rest => (digits? 8 rest).map fun n => .number (number false n)
  | '0' :: 'x' :: rest => (digits? 16 rest).map fun n => .number (number false n)
  | cs => let (negative, body) := signed cs
    (digits? 10 body).map fun n => .number (number negative n)

def withoutUnderscores (cs : List Char) : List Char := cs.filter (· ≠ '_')

/-- A number whose digits may have underscores between them; underscores alone are no number. -/
def loose? (base : Nat) (negative : Bool) (cs : List Char) : Option Value :=
  if cs = [] ∨ cs.any (fun c => c ≠ '_' ∧ (digit? base c).isNone) then none
  else match digits? base (withoutUnderscores cs) with
    | some n => some (.number (number negative n))
    | none => some (.number .nan)

/-- A whole number of version 1.1: a zero in front stands for base eight. -/
def whole11? (cs : List Char) : Option Value :=
  let (negative, body) := signed cs
  match body with
  | '0' :: 'b' :: rest => loose? 2 negative rest
  | '0' :: 'x' :: rest => loose? 16 negative rest
  | '0' :: rest => loose? 8 negative rest <|> loose? 10 negative body
  | '_' :: _ => none
  | body => loose? 10 negative body

/-- The exponent of a decimal; a decimal that shows a point may leave it out. -/
def exponent? (pointed : Bool) : List Char → Option Int
  | [] => if pointed then some 0 else none
  | c :: rest =>
    if c = 'e' ∨ c = 'E' then
      let (negative, body) := signed rest
      (digits? 10 body).map fun n => if negative then -(n : Int) else n
    else none

/-- A number with a point or an exponent, whose digits are told by `isDigit`. -/
def decimalBy? (isDigit : Char → Bool) (cs : List Char) : Option Numeral :=
  let (negative, body) := signed cs
  let units := body.takeWhile isDigit
  let afterUnits := body.dropWhile isDigit
  let (pointed, fraction, last) := match afterUnits with
    | '.' :: rest => (true, rest.takeWhile isDigit, rest.dropWhile isDigit)
    | rest => (false, [], rest)
  let units := withoutUnderscores units
  let fraction := withoutUnderscores fraction
  (exponent? pointed last).map fun e =>
    match digits? 10 (units ++ fraction) with
    | some n => .ofDecimal negative n (units ++ fraction).length (e - fraction.length)
    | none => .nan

/-- A number of version 1.2 with a point or an exponent. It has a digit. -/
def decimal12? (cs : List Char) : Option Value :=
  match decimalBy? Char.isDigit cs with
  | some .nan => none
  | n => n.map .number

/-- A number of version 1.1 with a point or an exponent: it may have underscores, though not in
front, and if it has no digit it is no number. -/
def decimal11? (cs : List Char) : Option Value :=
  if (signed cs).2.head? = some '_' then none
  else (decimalBy? (fun c => c.isDigit || c = '_') cs).map .number

def infinite? (cs : List Char) : Option Value :=
  let (negative, body) := signed cs
  if spells body [".inf", ".Inf", ".INF"] then some (.number (.infinite negative))
  else if spells cs [".nan", ".NaN", ".NAN"] then some (.number .nan)
  else none

/-- Text cut at colons. -/
def colonParts : List Char → List (List Char)
  | [] => [[]]
  | c :: rest =>
    if c = ':' then [] :: colonParts rest
    else match colonParts rest with
      | part :: parts => (c :: part) :: parts
      | [] => [[c]]

/-- Whether it is a number of minutes or seconds. -/
def isSixtieth : List Char → Bool
  | [a] => a.isDigit
  | [a, b] => '0' ≤ a && a ≤ '5' && b.isDigit
  | _ => false

/-- A number in base sixty, its parts separated by colons; the last one may have a fraction. -/
def sixties? (fractional : Bool) (cs : List Char) : Option Value :=
  let (negative, body) := signed cs
  match colonParts body with
  | first :: second :: others =>
    let last := (second :: others).getLast?.getD []
    let inner := (second :: others).dropLast
    let units := last.takeWhile (· ≠ '.')
    let fraction := last.drop units.length
    let shaped := first.head?.any Char.isDigit && first.all (fun c => c.isDigit || c = '_') &&
      inner.all isSixtieth && isSixtieth units &&
      (if fractional then !fraction.isEmpty && (fraction.drop 1).all (fun c => c.isDigit || c = '_')
        else fraction.isEmpty)
    let amount (cs : List Char) : Numeral :=
      let cs := withoutUnderscores cs
      (decimalBy? Char.isDigit (if cs.contains '.' then cs else cs ++ ['.'])).getD .nan
    if shaped then
      let total := (second :: others).foldl (fun t part => t.scaledPlus 60 (amount part))
        (amount first)
      some (.number (if negative then total.negated else total))
    else none
  | _ => none

/-- Whether a text is a date, with the time of day or without. -/
def isDateText (cs : List Char) : Bool :=
  let year := cs.takeWhile Char.isDigit
  match cs.drop 4 with
  | '-' :: rest =>
    let month := rest.takeWhile Char.isDigit
    match rest.drop month.length with
    | '-' :: rest =>
      let day := rest.takeWhile Char.isDigit
      year.length == 4 && short month && short day && isClock (rest.drop day.length)
    | _ => false
  | _ => false
where
  short (ds : List Char) : Bool := ds.length == 1 || ds.length == 2
  isBlankChar (c : Char) : Bool := c = ' ' || c = '\t'
  /-- The distance from the standard time. -/
  isZone : List Char → Bool
    | [] => false
    | ['Z'] => true
    | c :: rest =>
      let hours := rest.takeWhile Char.isDigit
      let plain := hours.length == 1 ||
        (hours.length == 2 && hours.head?.any fun d => '0' ≤ d && d ≤ '2')
      (c == '-' || c == '+') && plain &&
        (match rest.drop hours.length with
        | [] => true
        | [':', a, b] => a.isDigit && b.isDigit
        | _ => false)
  /-- A time of day after a date, or nothing. -/
  isClock : List Char → Bool
    | [] => true
    | c :: rest =>
      let rest := if c = 't' ∨ c = 'T' then rest else rest.dropWhile isBlankChar
      let hour := rest.takeWhile Char.isDigit
      let afterHour := rest.drop hour.length
      let minute := (afterHour.drop 1).takeWhile Char.isDigit
      let afterMinute := (afterHour.drop 1).drop minute.length
      let second := (afterMinute.drop 1).takeWhile Char.isDigit
      let afterSecond := (afterMinute.drop 1).drop second.length
      let (fraction, zone) : List Char × List Char :=
        match afterSecond with
        | '.' :: more => (more.takeWhile Char.isDigit, more.dropWhile Char.isDigit)
        | more => (['0'], more)
      (c == 't' || c == 'T' || isBlankChar c) && short hour && short minute && short second &&
        afterHour.head? == some ':' && afterMinute.head? == some ':' && !fraction.isEmpty &&
        (zone.isEmpty || isZone (zone.dropWhile isBlankChar))

def date? (cs : List Char) : Option Value := if isDateText cs then some (.special .date) else none

def whole? : Version → List Char → Option Value
  | .v11, cs => whole11? cs <|> sixties? false cs
  | .v12, cs => whole12? cs

def real? : Version → List Char → Option Value
  | .v11, cs => infinite? cs <|> decimal11? cs <|> sixties? true cs
  | .v12, cs => infinite? cs <|> decimal12? cs

/-- The value of a plain scalar without a tag. -/
def plain (v : Version) (cs : List Char) : Value :=
  let dated? := match v with
    | .v11 => date? cs
    | .v12 => none
  (null? cs <|> bool? v cs <|> whole? v cs <|> real? v cs <|> dated?).getD
    (.text (String.ofList cs))

/-- The key that merges mappings where the version knows it. -/
def mergeKey : String := "<<"

/-- What the names of the standard tags begin with. -/
def standard : String := "tag:yaml.org,2002:"

/-- A scalar with a tag. Text that does not spell a value of the wanted sort stays a text, save that
version 1.2 insists on dates. -/
def tagged (v : Version) (tag : String) (cs : List Char) : Option Leaf :=
  let text := Value.text (String.ofList cs)
  let orText (value? : Option Value) : Option Leaf := some { value := value?.getD text }
  let name (n : String) : Bool := tag == standard ++ n
  let symbol : Leaf := { value := .special .symbol, merges := true }
  if name "null" then orText (null? cs)
  else if name "bool" then orText (bool? v cs)
  else if name "int" then orText (whole? v cs)
  else if name "float" then orText (real? v cs)
  else if name "binary" then some { value := .special .octets }
  else match v with
    | .v11 =>
      if name "timestamp" then orText (date? cs)
      else if name "merge" ∧ String.ofList cs = mergeKey then some symbol
      else orText none
    | .v12 =>
      if name "timestamp" then (date? cs).map fun d => { value := d }
      else if name "merge" then some symbol
      else orText none

/-- Reads a scalar; `none` if its tag is at odds with its text. -/
def leaf? (v : Version) (isKey isPlain : Bool) (tag : Option String) (cs : List Char) :
    Option Leaf := do
  let isMergeKey := v == .v11 && isPlain && String.ofList cs == mergeKey
  match tag with
  | some tag =>
    let leaf ← tagged v tag cs
    let isText := match leaf.value with
      | .text _ => true
      | _ => false
    return { leaf with merges := leaf.merges || (isMergeKey && isText), bare := false }
  | none =>
    if isMergeKey then
      let value := if isKey then Value.special .symbol else .text mergeKey
      return { value := value, merges := true }
    else return { value := if isPlain then plain v cs else .text (String.ofList cs) }

end Scalar

end FilterBench.Yaml
