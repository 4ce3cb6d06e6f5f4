import FilterBench.Timers

/-!
# Pauses

A pause ends when its timer goes off or as soon as it is aborted, whichever comes first; one that is
aborted beforehand takes no time. Whoever pauses holds the pause while it goes on, and lets it go,
with its timer, when it has ended.
-/
namespace FilterBench

/-- A pause that goes on, with the time at which its timer goes off. -/
@[ext]
structure Pause where
  finish : Nat
  deriving DecidableEq, Repr, Inhabited

namespace Pause

def begin (timers : Timers) (now ms : Nat) : Pause := ⟨now + timers.delay ms⟩

@[simp] theorem finish_begin (timers : Timers) (now ms : Nat) :
    (begin timers now ms).finish = now + timers.delay ms := rfl

/-- When a pause is over that began at a time, with the time of the abort if there is one. -/
def resumes (p : Pause) (since : Nat) (abortAt : Option Nat) : Nat :=
  match abortAt with
  | some a => min p.finish (max since a)
  | none => p.finish

end Pause

end FilterBench
