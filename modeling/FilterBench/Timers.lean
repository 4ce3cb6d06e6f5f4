import FilterBench.Fault

/-!
# Timers

Whatever waits sets a timer, in milliseconds. The timers of a real host are limited: a delay of less
than a millisecond or of more than 2147483647 of them takes one millisecond, and a deadline that does
not fit into 32 bits is refused. An ideal clock knows no such limits.
-/
namespace FilterBench

inductive Timers where
  /-- Every timer takes as long as it is set for. -/
  | ideal
  /-- Timers of a host that counts milliseconds in 32 bits. -/
  | limited
  deriving DecidableEq, Repr, Inhabited

namespace Timers

/-- The longest delay that limited timers keep. -/
def longest : Nat := 2147483647

/-- The longest deadline that limited timers take on. -/
def farthest : Nat := 4294967295

/-- How long a timer takes that is set for some milliseconds. -/
def delay : Timers → Nat → Nat
  | .ideal, ms => ms
  | .limited, ms => if 1 ≤ ms ∧ ms ≤ longest then ms else 1

/-- A timer that is set for some time is over when that time is, at the latest. -/
theorem delay_le (t : Timers) {ms : Nat} (positive : 0 < ms) : t.delay ms ≤ ms := by
  cases t with
  | ideal => exact Nat.le_refl ms
  | limited =>
    rw [delay]
    split
    · exact Nat.le_refl ms
    · exact positive

theorem delay_pos (t : Timers) {ms : Nat} (positive : 0 < ms) : 0 < t.delay ms := by
  cases t with
  | ideal => exact positive
  | limited =>
    rw [delay]
    split
    · exact positive
    · exact Nat.one_pos

/-- A timer takes no less time than it is set for, unless that is too long for it. -/
theorem le_delay (t : Timers) {ms : Nat} (short : ms ≤ longest) : ms ≤ t.delay ms := by
  cases t with
  | ideal => exact Nat.le_refl ms
  | limited =>
    rw [delay]
    split
    · exact Nat.le_refl ms
    · omega

/-- Sets a `_` before each three digits at the end of a number, whose digits come last one first. -/
def separated : List Char → List Char
  | a :: b :: c :: d :: rest => a :: b :: c :: '_' :: separated (d :: rest)
  | digits => digits

/-- The text of a number that is out of range: a large one has its digits in groups. -/
def excess (ms : Nat) : String :=
  let text := Numeral.intText ms
  if ms ≤ farthest + 1 then text else String.ofList (separated text.toList.reverse).reverse

/-- Why no deadline is set that is some milliseconds ahead. -/
def refusal? : Timers → Nat → Option OtherError
  | .ideal, _ => none
  | .limited, ms =>
    if ms ≤ farthest then none
    else some
      { kind := "RangeError", code := some "ERR_OUT_OF_RANGE"
        message := "The value of \"delay\" is out of range. It must be >= 0 && <= 4294967295. " ++
          "Received " ++ excess ms }

end Timers

/-- How long to wait for something, on timers of some kind; zero is without end. -/
structure Timeout where
  ms : Nat
  timers : Timers := .limited
  deriving DecidableEq, Repr, Inhabited

namespace Timeout

/-- When a wait that begins now is broken off, if it is limited. -/
def deadline (t : Timeout) (now : Nat) : Option Nat :=
  if t.ms = 0 then none else some (now + t.timers.delay t.ms)

theorem deadline_of_pos {t : Timeout} (limited : 0 < t.ms) (now : Nat) :
    t.deadline now = some (now + t.timers.delay t.ms) := by
  rw [deadline, if_neg (Nat.ne_of_gt limited)]

end Timeout

end FilterBench
