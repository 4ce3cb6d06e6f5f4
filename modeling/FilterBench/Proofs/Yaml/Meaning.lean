import FilterBench.Proofs.Settings.Merging
import FilterBench.Proofs.Yaml.Nodes

/-!
# No table of a document has a key twice

The value of a node is built field by field, and no step gives a table two fields under one key.
What the anchors hold keeps this along the way. So the value of a document has it throughout, in its
lists as well (`orderly_ofText`).
-/
namespace FilterBench.Yaml

/-- No table in the value has two fields under one key. -/
inductive Orderly : Value → Prop
  | single {v : Value} (single : Single v) : Orderly v
  | list {items : List Value} (all : ∀ v ∈ items, Orderly v) : Orderly (.list items)
  | table {fields : List (String × Value)} (distinct : (fields.map Prod.fst).Nodup)
      (all : ∀ f ∈ fields, Orderly f.2) : Orderly (.table fields)

/-- The fields can be those of a table. -/
structure OrderlyFields (fields : List (String × Value)) : Prop where
  distinct : (fields.map Prod.fst).Nodup
  all : ∀ f ∈ fields, Orderly f.2

/-- The values of entries that are merged are in order. -/
def OrderlyEntries (entries : List Merged) : Prop := ∀ e ∈ entries, Orderly e.2

/-- What the anchors hold is in order. -/
def Holdings.Orderly (hs : Holdings) : Prop := ∀ e ∈ hs, Yaml.Orderly e.2.value

/-- The nodes and the values that references may stand for are in order. -/
structure Links.Orderly (ls : Links) : Prop where
  nodes : ∀ e ∈ ls.nodes, e.2.Proper
  earlier : ∀ e ∈ ls.earlier, Yaml.Orderly e.2

variable {v : Value} {fields : List (String × Value)} {entries : List Merged} {entry : Merged}
  {key : String} {hs : Holdings} {ls : Links} {n : Node} {number : Nat}

theorem Orderly.keyed (h : Orderly v) : v.Keyed := by
  induction h with
  | single single =>
    refine Value.keyed_leaf fun fields => ?_
    rintro rfl
    exact single
  | list => exact Value.keyed_leaf nofun
  | table distinct _ all => exact Value.keyed_table distinct all

theorem OrderlyFields.append (h : OrderlyFields fields) (absent : ¬ fields.any (·.1 == key))
    (value : Orderly v) : OrderlyFields (fields ++ [(key, v)]) where
  distinct := by
    rw [List.map_append, List.nodup_append]
    refine ⟨h.distinct, List.nodup_singleton _, ?_⟩
    rintro _ there _ same rfl
    obtain ⟨f, among, is⟩ := List.mem_map.1 there
    refine absent (List.any_eq_true.2 ⟨f, among, beq_iff_eq.2 ?_⟩)
    rw [is]
    exact List.mem_singleton.1 same
  all := List.forall_mem_append.2 ⟨h.all, List.forall_mem_singleton.2 value⟩

theorem OrderlyFields.put (h : OrderlyFields fields) (value : Orderly v) :
    OrderlyFields (Value.put fields key v) := by
  rw [Value.put]
  split
  · constructor
    · rw [List.map_map]
      have same : (Prod.fst ∘ fun f : String × Value => if f.1 == key then (key, v) else f) =
          Prod.fst := by
        funext f
        by_cases here : f.1 = key <;> simp [here]
      rw [same]
      exact h.distinct
    · rintro _ among
      obtain ⟨f, held, rfl⟩ := List.mem_map.1 among
      split
      · exact value
      · exact h.all f held
  · exact h.append ‹_› value

theorem OrderlyFields.offer (h : OrderlyFields fields) (value : Orderly entry.2) :
    OrderlyFields (offer fields entry) := by
  rw [Yaml.offer]
  split
  · exact h
  · exact h.append ‹_› value

theorem OrderlyFields.offers (h : OrderlyFields fields) (all : OrderlyEntries entries) :
    OrderlyFields (entries.foldl Yaml.offer fields) := by
  induction entries generalizing fields with
  | nil => exact h
  | cons entry rest ih =>
    obtain ⟨value, others⟩ := List.forall_mem_cons.1 all
    exact ih (h.offer value) others

theorem orderly_offerEntry (all : OrderlyEntries entries) (value : Orderly entry.2) :
    OrderlyEntries (offerEntry entries entry) := by
  rw [offerEntry]
  split
  · exact all
  · exact List.forall_mem_append.2 ⟨all, List.forall_mem_singleton.2 value⟩

theorem orderly_offerEntries {more : List Merged} (all : OrderlyEntries entries)
    (others : OrderlyEntries more) : OrderlyEntries (more.foldl offerEntry entries) := by
  induction more generalizing entries with
  | nil => exact all
  | cons entry rest ih =>
    obtain ⟨value, others⟩ := List.forall_mem_cons.1 others
    exact ih (orderly_offerEntry all value) others

theorem orderly_putEntry (all : OrderlyEntries entries) (value : Orderly entry.2) :
    OrderlyEntries (putEntry entries entry) := by
  rw [putEntry]
  split
  · rintro _ among
    obtain ⟨e, held, rfl⟩ := List.mem_map.1 among
    split
    · exact value
    · exact all e held
  · exact List.forall_mem_append.2 ⟨all, List.forall_mem_singleton.2 value⟩

/-- What an element of a set is merged as. -/
theorem orderly_elementEntry (h : Orderly v) :
    Gives OrderlyEntries <| elementEntry? v := by
  unfold elementEntry?
  split
  · cases h with
    | single single => exact single.elim
    | list all => exact .some (List.forall_mem_singleton.2 (all _ (by simp)))
  · exact .some nofun
  · split
    · exact .some (List.forall_mem_singleton.2 (.single trivial))
    · exact .some nofun
  · exact .some nofun
  · exact .some nofun
  · exact .some nofun
  · exact .none

namespace Holdings.Orderly

theorem hold (h : hs.Orderly) (number : Nat) {held : Holding} (value : Yaml.Orderly held.value) :
    (hs.hold number held).Orderly :=
  List.forall_mem_cons.2 ⟨value, fun e among => h e (List.mem_filter.1 among).1⟩

theorem settle (h : hs.Orderly) (number : Nat) (value : Yaml.Orderly v) :
    (hs.settle number v).Orderly := by
  rintro _ among
  obtain ⟨e, held, rfl⟩ := List.mem_map.1 among
  split
  · exact value
  · exact h e held

theorem follow (h : hs.Orderly) (number : Nat) (n : Node) :
    Gives (fun r => Yaml.Orderly r.1 ∧ r.2.Orderly) (hs.follow? number n) := by
  have held : Gives (fun held => Yaml.Orderly held.value) (hs.lookup number) := .lookup h
  exact .bind held fun held value => .ite .none (.some ⟨value, h.hold number value⟩)

end Holdings.Orderly

/-- Keeps what the anchors hold in order, and what it gives has the property. -/
def Keeps {α : Type} (P : α → Prop) (m : Meaning α) : Prop :=
  ∀ hs : Holdings, hs.Orderly → Gives (fun r => P r.1 ∧ r.2.Orderly) (m.run hs)

namespace Keeps

variable {α β : Type} {P : α → Prop} {Q : β → Prop} {m k : Meaning α} {xs : List α}

theorem pure {a : α} (h : P a) : Keeps P (pure a) := fun _ held => .some ⟨h, held⟩

theorem failure : Keeps P failure := fun _ _ => .none

theorem bind {f : α → Meaning β} (h : Keeps P m) (next : ∀ a, P a → Keeps Q (f a)) :
    Keeps Q (m >>= f) :=
  fun hs held => .bind (h hs held) fun r kept => next r.1 kept.1 r.2 kept.2

theorem mono {R : α → Prop} (h : Keeps P m) (weaker : ∀ a, P a → R a) : Keeps R m :=
  fun hs held r there => (h hs held r there).imp_left (weaker r.1)

theorem discard (h : Keeps P m) : Keeps (fun _ => True) (discard m) :=
  .bind h fun _ _ => .pure trivial

theorem get : Keeps Holdings.Orderly get := fun _ held => .some ⟨held, held⟩

theorem set {hs : Holdings} (h : hs.Orderly) : Keeps (fun _ => True) (set hs) :=
  fun _ _ => .some ⟨trivial, h⟩

theorem modify {f : Holdings → Holdings} (h : ∀ hs, hs.Orderly → (f hs).Orderly) :
    Keeps (fun _ => True) (modify f) :=
  fun hs held => .some ⟨trivial, h hs held⟩

theorem ite {c : Prop} [Decidable c] (h : Keeps P m) (other : Keeps P k) :
    Keeps P (if c then m else k) := by
  split
  · exact h
  · exact other

theorem mapM {f : α → Meaning β} (h : ∀ x ∈ xs, Keeps Q (f x)) :
    Keeps (fun ys => ∀ y ∈ ys, Q y) (xs.mapM f) := by
  induction xs with
  | nil => exact .pure nofun
  | cons x rest ih =>
    rw [List.mapM_cons]
    refine .bind (h x List.mem_cons_self) fun y first => ?_
    refine .bind (ih fun x among => h x (List.mem_cons_of_mem _ among)) fun ys all => ?_
    exact .pure (List.forall_mem_cons.2 ⟨first, all⟩)

theorem foldlM {f : β → α → Meaning β} (step : ∀ b, Q b → ∀ x ∈ xs, Keeps Q (f b x)) :
    ∀ {b : β}, Q b → Keeps Q (xs.foldlM f b) := by
  induction xs with
  | nil => exact .pure
  | cons x rest ih =>
    intro b start
    rw [List.foldlM_cons]
    refine .bind (step b start x List.mem_cons_self) fun b next => ih ?_ next
    exact fun b held y among => step b held y (List.mem_cons_of_mem _ among)

end Keeps

theorem proper_resolve (links : ls.Orderly) (proper : n.Proper) :
    Gives Node.Proper (ls.resolve? n) := by
  unfold Links.resolve?
  split
  · exact .after fun _ => .lookup links.nodes
  · exact .some proper

theorem proper_sources (links : ls.Orderly) {value : Option Node} (proper : ∀ n ∈ value, n.Proper) :
    Gives (fun ns => ∀ n ∈ ns, n.Proper) (ls.sources? value) := by
  unfold Links.sources?
  refine .bind proper fun n proper => .bind (proper_resolve links proper) fun n proper => ?_
  split
  · cases proper with
    | sequence all => exact .mapM fun n among => proper_resolve links (all n among)
  · exact .ite (.some nofun) .none
  · exact .ite (.some nofun) .none
  · exact .some (List.forall_mem_singleton.2 proper)

/-- With so much fuel everything that nodes mean is in order. -/
structure Means (ls : Links) (fuel : Nat) : Prop where
  meaning : ∀ n : Node, n.Proper → Keeps Orderly (n.meaning ls fuel)
  content : ∀ n : Node, n.Proper → Keeps Orderly (n.content ls fuel)
  field : ∀ fields e, OrderlyFields fields → ProperEntry e →
    Keeps OrderlyFields (Node.addField ls fuel fields e)
  element : ∀ e, ProperEntry e → Keeps Orderly (Node.element ls fuel e)
  entries : ∀ n : Node, n.Proper →
    Keeps OrderlyEntries (n.entriesOf ls fuel)
  entry : ∀ entries e, OrderlyEntries entries → ProperEntry e →
    Keeps OrderlyEntries (Node.addEntry ls fuel entries e)

namespace Means

variable {fuel : Nat}

theorem zero : Means ls 0 where
  meaning _ _ := .failure
  content _ _ := .failure
  field _ _ _ _ := .failure
  element _ _ := .failure
  entries _ _ := .failure
  entry _ _ _ _ := .failure

theorem meaning_succ (links : ls.Orderly) (h : Means ls fuel) (proper : n.Proper) :
    Keeps Orderly (n.meaning ls (fuel + 1)) := by
  rw [Node.meaning]
  split
  · rename_i a _
    have earlier : Orderly ((ls.earlier.lookup a.number).getD (.table [])) :=
      Gives.getD (.lookup links.earlier) (.table List.nodup_nil nofun)
    refine .bind (.modify fun hs held => held.hold _ earlier) fun _ _ => ?_
    refine .bind (h.content n proper) fun v value => ?_
    exact .bind (.modify fun hs held => held.settle _ value) fun _ _ => .pure value
  · exact h.content n proper

theorem reference_succ (links : ls.Orderly) (h : Means ls fuel) (name : String)
    (target : Option Nat) :
    Keeps Orderly (Node.content ls (fuel + 1) (.reference name target)) := by
  have node : Gives (fun found : Nat × Node => found.2.Proper)
      (target.bind fun number => (ls.nodes.lookup number).map (number, ·)) :=
    .after fun number => .map (.lookup links.nodes) fun _ proper => proper
  rw [Node.content]
  split
  · exact .failure
  · rename_i number n found
    have proper : n.Proper := node _ found
    refine .bind .get fun hs held => .ite (.bind (.discard (h.meaning n proper)) fun _ _ => ?_) ?_
    -- Whether the node had to be valued first or not, the reference is followed in the same way.
    all_goals
      refine .bind .get fun hs held => ?_
      have followed := held.follow number n
      split
      · rename_i v hs there
        exact .bind (.set (followed _ there).2) fun _ _ => .pure (followed _ there).1
      · exact .failure

theorem content_succ (links : ls.Orderly) (h : Means ls fuel) (proper : n.Proper) :
    Keeps Orderly (n.content ls (fuel + 1)) := by
  cases n with
  | scalar anchor leaf =>
    cases proper with
    | scalar single => exact .pure (.single single)
  | sequence anchor items =>
    cases proper with
    | sequence all =>
      exact .bind (.mapM fun n among => h.meaning n (all n among)) fun vs all => .pure (.list all)
  | keyed sort anchor entries =>
    have each := proper.each
    cases sort with
    | mapping =>
      refine .bind (P := OrderlyFields) ?_ fun fields orderly => .pure (.table orderly.1 orderly.2)
      exact .foldlM (fun fields orderly e among => h.field fields e orderly (each e among))
        ⟨List.nodup_nil, nofun⟩
    | set =>
      refine .bind (.discard (.mapM fun e among => h.element e (each e among))) fun _ _ => ?_
      exact .pure (.single trivial)
    | ordered =>
      refine .bind (P := fun _ => True) ?_ fun keys _ => ?_
      · refine (Keeps.mapM (Q := fun _ => True) fun e among => ?_).mono fun _ _ => trivial
        refine .bind (h.meaning e.1 (each e among).key) fun key _ => ?_
        dsimp only
        split
        · rename_i n there
          have value := h.meaning n ((each e among).value n there)
          exact .bind (.discard value) fun _ _ => .pure trivial
        · exact .pure trivial
      · exact .ite (.pure (.single trivial)) .failure
    | pairs =>
      refine .bind (.mapM (Q := Orderly) fun e among => ?_) fun vs all => .pure (.list all)
      refine .bind (h.field [] e ⟨List.nodup_nil, nofun⟩ (each e among)) fun fields orderly => ?_
      exact .pure (.table orderly.distinct orderly.all)
  | reference name target => exact reference_succ links h name target

theorem field_succ (links : ls.Orderly) (h : Means ls fuel) {e : Node × Option Node}
    (orderly : OrderlyFields fields) (proper : ProperEntry e) :
    Keeps OrderlyFields (Node.addField ls (fuel + 1) fields e) := by
  obtain ⟨key, value⟩ := e
  rw [Node.addField]
  have sources := proper_sources links proper.value
  refine .ite ?_ (.bind (h.meaning key proper.key) fun k _ => ?_)
  · split
    · rename_i ns there
      refine .foldlM (fun fields orderly n among => ?_) orderly
      exact .bind (h.entries n (sources ns there n among)) fun es all => .pure (orderly.offers all)
    · exact .failure
  · split
    · rename_i n
      exact .bind (h.meaning n (proper.value n rfl)) fun v value => .pure (orderly.put value)
    · exact .pure (orderly.put (.single trivial))

theorem element_succ (h : Means ls fuel) {e : Node × Option Node} (proper : ProperEntry e) :
    Keeps Orderly (Node.element ls (fuel + 1) e) :=
  .ite .failure (h.meaning e.1 proper.key)

theorem entries_succ (h : Means ls fuel) (proper : n.Proper) :
    Keeps OrderlyEntries (n.entriesOf ls (fuel + 1)) := by
  cases n with
  | scalar => exact .failure
  | sequence => exact .failure
  | keyed sort anchor entries =>
    have each := proper.each
    cases sort with
    | mapping =>
      exact .foldlM (fun entries all e among => h.entry entries e all (each e among)) nofun
    | set =>
      refine .bind (.mapM fun e among => h.element e (each e among)) fun elements all => ?_
      have parts := Gives.mapM fun v among => orderly_elementEntry (all v among)
      split
      · rename_i entries there
        refine .pure fun e among => ?_
        obtain ⟨part, held, inside⟩ := List.mem_flatten.1 among
        exact parts _ there part held e inside
      · exact .failure
    | ordered => exact .failure
    | pairs => exact .failure
  | reference => exact .failure

theorem entry_succ (links : ls.Orderly) (h : Means ls fuel) {e : Node × Option Node}
    (all : OrderlyEntries entries) (proper : ProperEntry e) :
    Keeps OrderlyEntries (Node.addEntry ls (fuel + 1) entries e) := by
  obtain ⟨key, value⟩ := e
  rw [Node.addEntry]
  have sources := proper_sources links proper.value
  refine .ite ?_ (.bind (h.meaning key proper.key) fun k _ => ?_)
  · split
    · rename_i ns there
      refine .foldlM (fun entries all n among => ?_) all
      refine .bind (h.entries n (sources ns there n among)) fun es more => .pure ?_
      exact orderly_offerEntries all more
    · exact .failure
  · dsimp only
    split
    · rename_i n
      refine .bind (h.meaning n (proper.value n rfl)) fun v value => .pure ?_
      exact orderly_putEntry all value
    · exact .pure (orderly_putEntry all (.single trivial))

theorem all (links : ls.Orderly) : ∀ fuel, Means ls fuel
  | 0 => zero
  | fuel + 1 =>
    have h := all links fuel
    { meaning := fun _ proper => h.meaning_succ links proper
      content := fun _ proper => h.content_succ links proper
      field := fun _ _ orderly proper => h.field_succ links orderly proper
      element := fun _ proper => h.element_succ proper
      entries := fun _ proper => h.entries_succ proper
      entry := fun _ _ all proper => h.entry_succ links all proper }

end Means

end FilterBench.Yaml
