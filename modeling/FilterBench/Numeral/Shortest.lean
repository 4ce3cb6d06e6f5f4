import FilterBench.Numeral.Basic

/-!
# The shortest text of a number

A finite numeral is written with the fewest decimal digits that read back as it; of two such
decimals the nearer is taken, and of two that are as near the one whose last digit is even. Up to 21
places before the point and six zeros after it are written out, and beyond that the text has an
exponent.
-/
namespace FilterBench.Numeral

/-- A positive decimal `digits * 10 ^ exponent`. -/
structure Decimal where
  digits : Nat
  exponent : Int
  deriving DecidableEq, Repr

/-- The reals that round to a numeral: from `low / scale` to `high / scale`, the value itself
being `value / scale`. -/
structure Interval where
  low : Nat
  value : Nat
  high : Nat
  scale : Nat
  closed : Bool
  deriving Repr

/-- The interval of `mantissa * 2 ^ exponent`. Below a power of two the gap is half as wide. -/
def Interval.of (mantissa : Nat) (exponent : Int) : Interval :=
  let unit := twoTo exponent.toNat
  let below := if mantissa = twoTo 52 ∧ exponent > -1074 then 1 else 2
  { low := (4 * mantissa - below) * unit
    value := 4 * mantissa * unit
    high := (4 * mantissa + 2) * unit
    scale := 4 * twoTo (-exponent).toNat
    closed := mantissa % 2 = 0 }

/-- Whether `digits * 10 ^ exponent` lies in the interval. -/
def Interval.holds (i : Interval) (d : Decimal) : Bool :=
  let x := d.digits * tenTo d.exponent.toNat * i.scale
  let up := tenTo (-d.exponent).toNat
  if i.closed then decide (i.low * up ≤ x ∧ x ≤ i.high * up)
  else decide (i.low * up < x ∧ x < i.high * up)

/-- The best decimal of the interval on the grid of multiples of `10 ^ exponent`, if any. -/
def Interval.onGrid? (i : Interval) (exponent : Int) : Option Decimal :=
  let num := i.value * tenTo (-exponent).toNat
  let den := i.scale * tenTo exponent.toNat
  let lower : Decimal := ⟨num / den, exponent⟩
  let upper : Decimal := ⟨num / den + 1, exponent⟩
  let nearLower := roundToEven num den == num / den
  match i.holds lower, i.holds upper with
  | true, true => some (if nearLower then lower else upper)
  | true, false => some lower
  | false, true => some upper
  | false, false => none

/-- The power of ten just below the value: the largest `e` with `10 ^ e ≤ value / scale`, sought
downwards from a bound. -/
def Interval.leading (i : Interval) : Nat → Int → Int
  | 0, e => e
  | fuel + 1, e =>
    if i.scale * tenTo e.toNat ≤ i.value * tenTo (-e).toNat then e else i.leading fuel (e - 1)

/-- The shortest decimal: the coarsest grid that has one. -/
def Interval.shortest (i : Interval) : Decimal :=
  let top := i.leading 640 309
  let grids := (List.range 17).map fun k : Nat => top - (k : Int)
  (grids.findSome? i.onGrid?).getD ⟨i.value / i.scale, 0⟩

/-- Digits without the zeros at their end, which go into the exponent. -/
def Decimal.trim (d : Decimal) : Decimal :=
  let ds := (Nat.toDigits 10 d.digits).reverse
  let zeros := (ds.takeWhile (· == '0')).length
  if d.digits = 0 then d else ⟨d.digits / tenTo zeros, d.exponent + zeros⟩

/-- Writes a trimmed positive decimal. -/
def Decimal.text (d : Decimal) : String :=
  let ds := Nat.toDigits 10 d.digits
  let k := ds.length
  let point : Int := d.exponent + k
  if 0 ≤ d.exponent ∧ point ≤ 21 then String.ofList (ds ++ List.replicate d.exponent.toNat '0')
  else if 0 < point ∧ point ≤ 21 then
    String.ofList (ds.take point.toNat ++ '.' :: ds.drop point.toNat)
  else if -6 < point ∧ point ≤ 0 then
    String.ofList ('0' :: '.' :: List.replicate (-point).toNat '0' ++ ds)
  else
    let e := point - 1
    let shown := (if e < 0 then "-" else "+") ++ toString e.natAbs
    String.ofList (ds.take 1 ++ (if k = 1 then [] else '.' :: ds.drop 1)) ++ "e" ++ shown

/-- The text of a number. Zero is written without a sign. -/
def text : Numeral → String
  | .nan => "NaN"
  | .infinite negative => if negative then "-Infinity" else "Infinity"
  | .finite _ 0 _ => "0"
  | .finite negative m q =>
    (if negative then "-" else "") ++ (Interval.of m q).shortest.trim.text

/-- The text of a whole number as a numeral. -/
def intText (n : Int) : String := (ofInt n).text

end FilterBench.Numeral
