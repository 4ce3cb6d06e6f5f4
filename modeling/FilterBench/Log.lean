import FilterBench.Fault

/-!
# Log records and their levels

Records carry a level and are shown from a threshold on. The threshold comes from the verbosity,
a number, unless a level is named outright; the name `silent` shows nothing.
-/
namespace FilterBench

inductive Level where
  | trace | debug | info | warn | error | fatal
  deriving DecidableEq, Repr, Inhabited

namespace Level

def name : Level → String
  | .trace => "trace"
  | .debug => "debug"
  | .info => "info"
  | .warn => "warn"
  | .error => "error"
  | .fatal => "fatal"

/-- All levels, the least important first. -/
def all : List Level := [.trace, .debug, .info, .warn, .error, .fatal]

def rank : Level → Nat
  | .trace => 1
  | .debug => 2
  | .info => 3
  | .warn => 4
  | .error => 5
  | .fatal => 6

/-- The level whose name it is, in any mixture of small and capital letters. -/
def ofName? (name : String) : Option Level := all.find? fun l => l.name == name.toLower

/-- The threshold of a verbosity from 0 to 3; other numbers count as the nearer end, fractions
are cut off, and what is no number shows everything from `info` on. -/
def ofVerbosity (v : Numeral) : Level :=
  match v with
  | .nan => .info
  | .infinite negative => if negative then .warn else .trace
  | v =>
    match v.truncate? with
    | none => .info
    | some n => if n ≤ 0 then .warn else if n = 1 then .info else if n = 2 then .debug else .trace

end Level

/-- What is shown: everything from a level on, or nothing. -/
inductive Threshold where
  | from (level : Level)
  | silent
  /-- Nothing is shown, and there is no name for that. -/
  | nameless
  deriving DecidableEq, Repr, Inhabited

namespace Threshold

def name? : Threshold → Option String
  | .from l => some l.name
  | .silent => some "silent"
  | .nameless => none

def shows : Threshold → Level → Bool
  | .from t, l => t.rank ≤ l.rank
  | _, _ => false

/-- Names that are reserved: they are taken, but stand for no level. -/
def reserved : List String :=
  ["constructor", "hasOwnProperty", "isPrototypeOf", "propertyIsEnumerable", "toLocaleString",
    "toString", "valueOf", "__defineGetter__", "__defineSetter__", "__lookupGetter__",
    "__lookupSetter__", "__proto__"]

/-- The threshold of a verbosity, unless a level is named. A name that is neither known nor reserved
is an error. -/
def choose (verbosity : Numeral) (named : Option String) : Except OtherError Threshold :=
  match named with
  | none => .ok (.from (Level.ofVerbosity verbosity))
  | some name =>
    match Level.ofName? name with
    | some l => .ok (.from l)
    | none =>
      if name = "silent" then .ok .silent
      else if reserved.contains name then .ok .nameless
      else .error { message := "default level:" ++ name ++ " must be included in custom levels" }

end Threshold

end FilterBench
