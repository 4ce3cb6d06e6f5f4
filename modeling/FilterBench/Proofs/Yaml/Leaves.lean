import FilterBench.Yaml.Scalar

/-!
# Scalars hold no collections

The value of a scalar is neither a list nor a table, whatever its tag (`single_leaf`).
-/
namespace FilterBench.Yaml

/-- Whatever is there has the property. -/
def Gives {α : Type} (P : α → Prop) (o : Option α) : Prop := ∀ a ∈ o, P a

namespace Gives

variable {α β : Type} {P : α → Prop} {Q : β → Prop} {o p : Option α} {a : α} {xs : List α}

theorem none : Gives P none := nofun

theorem some (h : P a) : Gives P (some a) := by
  rintro _ ⟨⟩
  exact h

theorem bind {f : α → Option β} (h : Gives P o) (next : ∀ a, P a → Gives Q (f a)) :
    Gives Q (o >>= f) := by
  intro b there
  obtain ⟨a, held, there⟩ := Option.bind_eq_some_iff.1 there
  exact next a (h a held) b there

/-- What came before says nothing about what is there. -/
theorem after {f : α → Option β} (next : ∀ a, Gives Q (f a)) : Gives Q (o >>= f) :=
  bind (P := fun _ => True) (fun _ _ => trivial) fun a _ => next a

theorem map {f : α → β} (h : Gives P o) (next : ∀ a, P a → Q (f a)) : Gives Q (o.map f) := by
  intro b there
  obtain ⟨a, held, rfl⟩ := Option.map_eq_some_iff.1 there
  exact next a (h a held)

theorem orElse (h : Gives P o) (k : Gives P p) : Gives P (o <|> p) := by
  cases o with
  | none => exact k
  | some a => exact h

theorem ite {c : Prop} [Decidable c] (h : Gives P o) (k : Gives P p) :
    Gives P (if c then o else p) := by
  split
  · exact h
  · exact k

theorem getD (h : Gives P o) (other : P a) : P (o.getD a) := by
  cases o with
  | none => exact other
  | some a => exact h a rfl

theorem mapM {f : α → Option β} (h : ∀ x ∈ xs, Gives Q (f x)) :
    Gives (fun ys => ∀ y ∈ ys, Q y) (xs.mapM f) := by
  induction xs with
  | nil => exact some nofun
  | cons x rest ih =>
    rw [List.mapM_cons]
    refine bind (h x List.mem_cons_self) fun y held => ?_
    refine bind (ih fun x among => h x (List.mem_cons_of_mem _ among)) fun ys all => ?_
    exact some (List.forall_mem_cons.2 ⟨held, all⟩)

theorem foldlM {f : β → α → Option β} (step : ∀ b, Q b → ∀ x ∈ xs, Gives Q (f b x)) :
    ∀ {b : β}, Q b → Gives Q (xs.foldlM f b) := by
  induction xs with
  | nil => exact some
  | cons x rest ih =>
    intro b start
    rw [List.foldlM_cons]
    refine bind (step b start x List.mem_cons_self) fun b next => ih ?_ next
    exact fun b held y among => step b held y (List.mem_cons_of_mem _ among)

theorem lookup [BEq α] [LawfulBEq α] {entries : List (α × β)} (all : ∀ e ∈ entries, Q e.2) :
    Gives Q (entries.lookup a) := by
  intro b there
  obtain ⟨before, after, rfl, -⟩ := List.lookup_eq_some_iff.1 there
  exact all (a, b) (by simp)

end Gives

/-- Neither a list nor a table. -/
def Single : Value → Prop
  | .list _ => False
  | .table _ => False
  | _ => True

namespace Scalar

variable {cs : List Char} {v : Version} {n : Nat}

theorem single_null : Gives Single (null? cs) := .ite (.some trivial) .none

theorem single_bool : Gives Single (bool? v cs) :=
  .ite (.some trivial) (.ite (.some trivial) .none)

theorem single_number {o : Option Numeral} : Gives Single (o.map .number) :=
  .map (P := fun _ => True) (fun _ _ => trivial) fun _ _ => trivial

theorem single_digits {base : Nat} {f : Nat → Numeral} :
    Gives Single ((digits? base cs).map fun n => .number (f n)) :=
  .map (P := fun _ => True) (fun _ _ => trivial) fun _ _ => trivial

theorem single_loose {base : Nat} {negative : Bool} : Gives Single (loose? base negative cs) := by
  rw [loose?]
  split
  · exact .none
  · split <;> exact .some trivial

theorem single_whole11 : Gives Single (whole11? cs) := by
  unfold whole11?
  dsimp only
  split
  · exact single_loose
  · exact single_loose
  · exact .orElse single_loose single_loose
  · exact .none
  · exact single_loose

theorem single_whole12 : Gives Single (whole12? cs) := by
  unfold whole12?
  split <;> exact single_digits

theorem single_sixties {fractional : Bool} : Gives Single (sixties? fractional cs) := by
  unfold sixties?
  dsimp only
  split
  · exact .ite (.some trivial) .none
  · exact .none

theorem single_whole : Gives Single (whole? v cs) := by
  cases v with
  | v11 => exact .orElse single_whole11 single_sixties
  | v12 => exact single_whole12

theorem single_infinite : Gives Single (infinite? cs) :=
  .ite (.some trivial) (.ite (.some trivial) .none)

theorem single_decimal11 : Gives Single (decimal11? cs) := .ite .none single_number

theorem single_decimal12 : Gives Single (decimal12? cs) := by
  rw [decimal12?]
  split
  · exact .none
  · exact single_number

theorem single_real : Gives Single (real? v cs) := by
  cases v with
  | v11 => exact .orElse single_infinite (.orElse single_decimal11 single_sixties)
  | v12 => exact .orElse single_infinite single_decimal12

theorem single_date : Gives Single (date? cs) := .ite (.some trivial) .none

theorem single_plain : Single (plain v cs) := by
  refine Gives.getD (.orElse single_null (.orElse single_bool (.orElse single_whole
    (.orElse single_real ?_)))) trivial
  cases v with
  | v11 => exact single_date
  | v12 => exact .none

theorem single_tagged {tag : String} :
    Gives (fun leaf => Single leaf.value) (tagged v tag cs) := by
  have text {o : Option Value} (h : Gives Single o) :
      Gives (fun leaf => Single leaf.value)
        (some { value := o.getD (.text (String.ofList cs)) : Leaf }) :=
    .some (h.getD trivial)
  refine .ite (text single_null) (.ite (text single_bool) (.ite (text single_whole)
    (.ite (text single_real) (.ite (.some trivial) ?_))))
  cases v with
  | v11 => exact .ite (text single_date) (.ite (.some trivial) (text .none))
  | v12 =>
    exact .ite (.map single_date fun _ held => held) (.ite (.some trivial) (text .none))

/-- The value of a scalar is no collection. -/
theorem single_leaf {isKey isPlain : Bool} {tag : Option String} :
    Gives (fun leaf => Single leaf.value) (leaf? v isKey isPlain tag cs) := by
  unfold leaf?
  cases tag with
  | some tag => exact .bind single_tagged fun leaf held => .some held
  | none =>
    refine .ite (.some ?_) (.some ?_)
    · cases isKey <;> trivial
    · cases isPlain
      · trivial
      · exact single_plain

end Scalar

end FilterBench.Yaml
