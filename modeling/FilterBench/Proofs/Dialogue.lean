import FilterBench.Dialogue

/-!
# Laws of dialogues

Dialogues are a lawful monad.
-/
namespace FilterBench

namespace Dialogue

variable {α β γ : Type}

theorem bind_done (d : Dialogue α) : d.bind done = d := by
  induction d with
  | done a => rfl
  | ask q next ih => exact congrArg (ask q) (funext ih)

theorem bind_bind (d : Dialogue α) (f : α → Dialogue β) (g : β → Dialogue γ) :
    (d.bind f).bind g = d.bind fun a => (f a).bind g := by
  induction d with
  | done a => rfl
  | ask q next ih => exact congrArg (ask q) (funext ih)

instance : LawfulMonad Dialogue := LawfulMonad.mk' Dialogue
  (fun d => bind_done d) (fun _ _ => rfl) (fun d f g => bind_bind d f g)

end Dialogue

end FilterBench
