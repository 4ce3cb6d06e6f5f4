/-!
# Binary floating-point numbers, exactly

A numeral is a number of the 64-bit binary format, kept as a sign, a whole mantissa and a power of
two. `Numeral.nearest` gives the numeral closest to a quotient of whole numbers, a tie going to
the even mantissa, so a decimal is read without an intermediate rounding. Mantissa and exponent
are determined by the value: equality of numerals is equality of their parts.
-/
namespace FilterBench

inductive Numeral where
  /-- The number `± mantissa * 2 ^ exponent`. -/
  | finite (negative : Bool) (mantissa : Nat) (exponent : Int)
  | infinite (negative : Bool)
  | nan
  deriving DecidableEq, Repr, Inhabited

namespace Numeral

/-- A power of two. -/
def twoTo (k : Nat) : Nat := Nat.pow 2 k

/-- A power of ten. -/
def tenTo (k : Nat) : Nat := Nat.pow 10 k

/-- The nearest whole number to `num / den`, a tie going to the even one. -/
def roundToEven (num den : Nat) : Nat :=
  let q := num / den
  let twice := 2 * (num % den)
  if twice < den ∨ (twice = den ∧ q % 2 = 0) then q else q + 1

/-- The largest `e` with `2 ^ e ≤ num / den`, for positive `num` and `den`. -/
def magnitude (num den : Nat) : Int :=
  let e : Int := (num.log2 : Int) - (den.log2 : Int)
  if num * twoTo (-e).toNat < den * twoTo e.toNat then e - 1 else e

/-- The numeral nearest to `± num / den`. -/
def nearest (negative : Bool) (num den : Nat) : Numeral :=
  if num = 0 ∨ den = 0 then .finite negative 0 0
  else
    let q : Int := max (magnitude num den - 52) (-1074)
    let m := roundToEven (num * twoTo (-q).toNat) (den * twoTo q.toNat)
    let (m, q) := if m = twoTo 53 then (twoTo 52, q + 1) else (m, q)
    if q > 971 then .infinite negative
    else if m = 0 then .finite negative 0 0
    else .finite negative m q

/-- The numeral nearest to `± digits * 10 ^ exponent`, where `count` bounds the number of digits.
Beyond the range of the format the power of ten need not be computed. -/
def ofDecimal (negative : Bool) (digits : Nat) (count : Nat) (exponent : Int) : Numeral :=
  if digits = 0 then .finite negative 0 0
  else if exponent > 400 then .infinite negative
  else if exponent + count < -400 then .finite negative 0 0
  else nearest negative (digits * tenTo exponent.toNat) (tenTo (-exponent).toNat)

def ofInt (n : Int) : Numeral := nearest (n < 0) n.natAbs 1

/-- The value, when it is whole. -/
def toInt? : Numeral → Option Int
  | .finite negative m q =>
    let sign : Int := if negative then -1 else 1
    if 0 ≤ q then some (sign * (m * twoTo q.toNat : Nat))
    else if m % twoTo (-q).toNat = 0 then some (sign * (m / twoTo (-q).toNat : Nat))
    else none
  | _ => none

/-- The value without its fraction. -/
def truncate? : Numeral → Option Int
  | .finite negative m q =>
    let sign : Int := if negative then -1 else 1
    some (sign * (if 0 ≤ q then m * twoTo q.toNat else m / twoTo (-q).toNat : Nat))
  | _ => none

/-- Whether the number is below a whole number; a number that is not finite by its sign. -/
def below (x : Numeral) (bound : Int) : Bool :=
  match x with
  | .nan => false
  | .infinite negative => negative
  | .finite negative m q =>
    let sign : Int := if negative then -1 else 1
    decide (sign * (m * twoTo q.toNat : Nat) < bound * (twoTo (-q).toNat : Nat))

/-- Whether the number is above a whole number. -/
def above (x : Numeral) (bound : Int) : Bool :=
  match x with
  | .nan => false
  | .infinite negative => !negative
  | .finite negative m q =>
    let sign : Int := if negative then -1 else 1
    decide (bound * (twoTo (-q).toNat : Nat) < sign * (m * twoTo q.toNat : Nat))

/-- The number with the other sign. -/
def negated : Numeral → Numeral
  | .finite negative m q => .finite (!negative) m q
  | .infinite negative => .infinite !negative
  | .nan => .nan

/-- `x * n + y` for numbers that are not negative, rounded after each of the two operations. -/
def scaledPlus (x : Numeral) (n : Nat) (y : Numeral) : Numeral :=
  match x, y with
  | .finite _ m q, y =>
    match nearest false (m * n * twoTo q.toNat) (twoTo (-q).toNat), y with
    | .finite _ m q, .finite _ k r =>
      let low := min q (min r 0)
      nearest false (m * twoTo (q - low).toNat + k * twoTo (r - low).toNat) (twoTo (-low).toNat)
    | scaled, .finite .. => scaled
    | _, y => y
  | x, _ => x

/-- Whether two numbers compare equal: zero has no sign then, and `nan` equals nothing. -/
def sameValue : Numeral → Numeral → Bool
  | .nan, _ => false
  | .finite _ 0 _, .finite _ 0 _ => true
  | a, b => a == b

end Numeral

end FilterBench
