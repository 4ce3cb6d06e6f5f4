import FilterBench.Peer

/-!
# What a peer will do later

A `Part` is what is left of a turn behind a wait, with the time at which it is due. A schedule
holds parts in the order of their times, and of two that are due together the one that was
scheduled first. Playing a part can leave a part of it, which is smaller: `Schedule.weight` is the
bound on how long that goes on.
-/
namespace FilterBench

structure Part where
  due : Nat
  turn : Turn
  /-- It belongs to a channel that was replaced: the client hears nothing of it. -/
  stale : Bool := false
  /-- It was scheduled after the timer that it is now compared with. -/
  late : Bool := false
  deriving DecidableEq, Repr

namespace Part

/-- What is left when the part has been played up to its first wait: it is scheduled only then. -/
def next? (p : Part) : Option Part :=
  p.turn.later?.map fun (ms, rest) => { p with due := p.due + ms, turn := rest, late := true }

/-- The part comes before a timer that ends at this time: of two that end together the one that
was set first is first. -/
def isBefore (p : Part) (time : Nat) : Bool := p.due < time || p.due == time && !p.late

def weight (p : Part) : Nat := p.turn.length + 1

theorem weight_next? {p q : Part} (h : p.next? = some q) : q.weight < p.weight := by
  simp only [next?, Option.map_eq_some_iff] at h
  obtain ⟨⟨ms, rest⟩, later, rfl⟩ := h
  exact Nat.succ_lt_succ (Turn.length_of_later? later)

end Part

abbrev Schedule := List Part

namespace Schedule

/-- Adds a part behind those that are due no later. -/
def add (p : Part) : Schedule → Schedule
  | [] => [p]
  | q :: rest => if q.due ≤ p.due then q :: add p rest else p :: q :: rest

/-- The schedule as a timer finds it that is set now: nothing in it is late. -/
def settled (s : Schedule) : Schedule := s.map fun p => { p with late := false }

/-- Adds a part if there is one. -/
def add? (p : Option Part) (s : Schedule) : Schedule := p.elim s fun p => add p s

def weight (s : Schedule) : Nat := s.foldr (fun p n => p.weight + n) 0

theorem weight_add (p : Part) (s : Schedule) : (add p s).weight = p.weight + s.weight := by
  induction s with
  | nil => rfl
  | cons q rest ih =>
    simp only [add]
    split
    · simp only [weight, List.foldr_cons] at ih ⊢
      omega
    · rfl

/-- Putting what is left of the first part in its place makes a schedule smaller. -/
theorem weight_add?_lt {p : Part} {next : Option Part} {rest : Schedule}
    (h : ∀ q, next = some q → q.weight < p.weight) :
    weight (add? next rest) < weight (p :: rest) := by
  cases next with
  | none => simp only [add?, Option.elim, weight, List.foldr_cons, Part.weight]; omega
  | some q =>
    have smaller := h q rfl
    simp only [add?, Option.elim, weight_add]
    simp only [weight, List.foldr_cons]
    omega

end Schedule

end FilterBench
