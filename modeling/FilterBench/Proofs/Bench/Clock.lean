import FilterBench.Proofs.Bench.Course

/-!
# The clock of a bench

A `Move` lets what is due come in any order; a `Tick` is what the clock allows. What needs no time is
done first, then time passes, and never beyond the earliest thing that is due. Of several things
that are due at the same moment any may come first, so that nothing that is shown of ticks depends on
how ties are decided. `Inevitably P` says that the clock is bound to bring a bench to where `P`
holds, whichever way it takes.
-/
namespace FilterBench.Bench

variable {b b' : Bench} {P Q : Bench → Prop}

inductive Tick : Bench → Bench → Prop
  | does {b b' : Bench} : b.resume? = some b' → Tick b b'
  | happens {b : Bench} {time : ℕ} {h : Happening} : b.resume? = none → (time, h) ∈ b.dues →
      (∀ d ∈ b.dues, time ≤ d.1) → Tick b ({ b with now := max b.now time }.happen h)
  | waits {b : Bench} {time : ℕ} : b.resume? = none → b.now < time →
      (∀ d ∈ b.dues, time ≤ d.1) → Tick b { b with now := time }

theorem Tick.move (h : Tick b b') : Move b b' := by
  cases h with
  | does resumed => exact move_of_resume resumed
  | happens _ due _ => exact .happens due
  | waits _ _ _ => exact .waits b _

theorem le_of_earliest {dues : List (ℕ × Happening)} {d e : ℕ × Happening}
    (h : earliest dues = some d) (mem : e ∈ dues) : d.1 ≤ e.1 := by
  induction dues generalizing d with
  | nil => cases mem
  | cons first rest ih =>
    rw [earliest] at h
    split at h
    · rename_i none
      cases h
      rcases List.mem_cons.1 mem with rfl | mem
      · exact Nat.le_refl _
      · cases rest with
        | nil => cases mem
        | cons second rest =>
          rw [earliest] at none
          split at none <;> cases none
    · rename_i later rested
      cases h
      split
      · rename_i before
        rcases List.mem_cons.1 mem with rfl | mem
        · exact Nat.le_refl _
        · exact Nat.le_trans before (ih rested mem)
      · rename_i after
        rcases List.mem_cons.1 mem with rfl | mem
        · omega
        · exact ih rested mem

theorem earliest_isSome {dues : List (ℕ × Happening)} {d : ℕ × Happening} (mem : d ∈ dues) :
    (earliest dues).isSome = true := by
  cases dues with
  | nil => cases mem
  | cons first rest =>
    rw [earliest]
    split <;> rfl

/-- The bench's own clock decides ties in one of the ways that are allowed. -/
theorem tick_of_tick (rests : b.resume? = none) (h : b.tick? none = some b') : Tick b b' := by
  unfold tick? at h
  split at h
  · cases h
  · rename_i time what next
    rw [if_pos (by rfl)] at h
    cases h
    exact .happens rests (mem_of_earliest next) fun d mem => le_of_earliest next mem

/-- The clock goes on as long as something can be done or is due. -/
def Goes (b : Bench) : Prop := b.resume?.isSome = true ∨ (b.tick? none).isSome = true

theorem goes_of_due {d : ℕ × Happening} (due : d ∈ b.dues) : b.Goes := by
  right
  obtain ⟨⟨time, what⟩, next⟩ := Option.isSome_iff_exists.1 (earliest_isSome due)
  simp [tick?, next?, next]

inductive Inevitably (P : Bench → Prop) : Bench → Prop
  | here {b : Bench} : P b → Inevitably P b
  | later {b : Bench} : b.Goes → (∀ b', Tick b b' → Inevitably P b') → Inevitably P b

/-- What no tick changes still holds there. -/
theorem Inevitably.keeps (h : Inevitably P b) (step : ∀ b b', Q b → Tick b b' → Q b') (holds : Q b) :
    Inevitably (fun b => P b ∧ Q b) b := by
  induction h with
  | here reached => exact .here ⟨reached, holds⟩
  | later goes _ ih => exact .later goes fun b' tick => ih b' tick (step _ b' holds tick)

theorem Inevitably.mono (h : Inevitably P b) (weaker : ∀ b, P b → Q b) : Inevitably Q b := by
  induction h with
  | here holds => exact .here (weaker _ holds)
  | later goes _ ih => exact .later goes ih

end FilterBench.Bench
