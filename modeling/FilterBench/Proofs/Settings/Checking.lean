import FilterBench.Proofs.Settings.Merging

/-!
# What a check demands

A check asks that tables have certain keys and that the values at certain paths satisfy a
constraint. It lets a value pass when all its demands are met, and otherwise names each path at
which one is not (`Judges`). The demands of a part are those of its own check, one key further down.
-/
namespace FilterBench

namespace Numeral

variable {n : Numeral} {i bound : Int}

end Numeral

namespace Settings

/-- What is asked of the value of one setting. -/
inductive Constraint where
  /-- A whole number between two bounds. -/
  | whole (low high : Option Int)
  | text
  | filledText
  /-- A list of texts that is not empty. -/
  | filledTexts
  deriving DecidableEq

def Constraint.Admits : Constraint → Value → Prop
  | .whole low high, v =>
    ∃ n i, v = .number n ∧ n.toInt? = some i ∧ (∀ l ∈ low, l ≤ i) ∧ ∀ h ∈ high, i ≤ h
  | .text, v => ∃ s, v = .text s
  | .filledText, v => ∃ s, v = .text s ∧ s ≠ ""
  | .filledTexts, v => ∃ ss, v = .list (ss.map .text) ∧ ss ≠ []

/-- Where below a value a constraint is violated: at the value itself, but in a list that has items
at each one of the wrong sort. -/
def Constraint.Faults : Constraint → Value → List String → Prop
  | .filledTexts, .list (first :: more), place =>
    ∃ (i : Nat) (v : Value),
      (first :: more)[i]? = some v ∧ ¬ text.Admits v ∧ place = [toString i]
  | c, v, place => ¬ c.Admits v ∧ place = []

/-- What a check asks of a value. -/
inductive Demand where
  /-- A table with this key. -/
  | key (name : String)
  | leaf (constraint : Constraint)
  deriving DecidableEq

def Demand.Met : Demand → Value → Prop
  | .key name, v => ∃ fields, v = .table fields ∧ (Value.lookup fields name).isSome
  | .leaf c, v => c.Admits v

def Demand.Faults : Demand → Value → List String → Prop
  | .key name, .table fields, place => Value.lookup fields name = none ∧ place = [name]
  | .key _, _, place => place = []
  | .leaf c, v, place => c.Faults v place

/-- Every demand is met at its path. -/
def Fits (demands : List (List String × Demand)) (v : Value) : Prop :=
  ∀ path d, (path, d) ∈ demands → ∃ w, v.at? path = some w ∧ d.Met w

/-- A demand is not met, at its path or somewhere below it. -/
def Faulty (demands : List (List String × Demand)) (v : Value) (place : List String) : Prop :=
  ∃ path d w below, (path, d) ∈ demands ∧ v.at? path = some w ∧ d.Faults w below ∧
    place = path ++ below

variable {α β : Type} {r : Checked α} {s : Checked β} {right : α → Prop} {path : List String}
  {v w : Value} {c : Constraint} {d : Demand} {place : List String}
  {demands others : List (List String × Demand)}

theorem fits_append : Fits (demands ++ others) v ↔ Fits demands v ∧ Fits others v := by
  simp only [Fits, List.mem_append, or_imp, forall_and]

theorem faulty_append :
    Faulty (demands ++ others) v place ↔ Faulty demands v place ∨ Faulty others v place := by
  simp only [Faulty, List.mem_append, or_and_right, exists_or]

/-- The demands on the value under a key, as demands on the table. -/
def under (name : String) (demands : List (List String × Demand)) : List (List String × Demand) :=
  ([], .key name) :: demands.map fun (path, d) => (name :: path, d)

/-- A check lets something pass that is right, or names every place where a fault is. -/
structure Finds (r : Checked α) (faults : List String → Prop) (right : α → Prop) : Prop where
  passed : ∀ a, r = .ok a → right a ∧ ∀ place, ¬ faults place
  failed : ∀ issues, r = .error issues →
    issues ≠ [] ∧ ∀ place, (∃ i ∈ issues, i.path = place) ↔ faults place

namespace Finds

variable {F G : List String → Prop} {R : α → Prop} {S : β → Prop}

theorem map {f : α → β} (h : Finds r F fun a => S (f a)) : Finds (Checked.map f r) F S := by
  cases r with
  | ok a =>
    refine ⟨fun b made => ?_, fun _ made => (by cases made)⟩
    cases made
    exact h.passed a rfl
  | error issues =>
    refine ⟨fun _ made => (by cases made), fun _ made => ?_⟩
    cases made
    exact h.failed issues rfl

theorem both (h : Finds r F R) (k : Finds s G S) :
    Finds (Checked.both r s) (fun place => F place ∨ G place) fun (a, b) => R a ∧ S b := by
  cases r with
  | ok a =>
    obtain ⟨right, none⟩ := h.passed a rfl
    cases s with
    | ok b =>
      refine ⟨fun _ made => ?_, fun _ made => (by cases made)⟩
      cases made
      obtain ⟨right', none'⟩ := k.passed b rfl
      exact ⟨⟨right, right'⟩, fun place => not_or.2 ⟨none place, none' place⟩⟩
    | error issues =>
      refine ⟨fun _ made => (by cases made), fun _ made => ?_⟩
      cases made
      obtain ⟨some, all⟩ := k.failed issues rfl
      exact ⟨some, fun place => by rw [all, or_iff_right (none place)]⟩
  | error issues =>
    obtain ⟨some, all⟩ := h.failed issues rfl
    cases s with
    | ok b =>
      obtain ⟨-, none⟩ := k.passed b rfl
      refine ⟨fun _ made => (by cases made), fun _ made => ?_⟩
      cases made
      exact ⟨some, fun place => by rw [all, or_iff_left (none place)]⟩
    | error more =>
      obtain ⟨-, all'⟩ := k.failed more rfl
      refine ⟨fun _ made => (by cases made), fun _ made => ?_⟩
      cases made
      refine ⟨List.append_ne_nil_of_left_ne_nil some more, fun place => ?_⟩
      simp only [List.mem_append, or_and_right, exists_or, all, all']

theorem congr (h : Finds r F R) (faults : ∀ place, F place ↔ G place) (imp : ∀ a, R a → right a) :
    Finds r G right where
  passed a made := by
    obtain ⟨was, none⟩ := h.passed a made
    exact ⟨imp a was, fun place fault => none place ((faults place).2 fault)⟩
  failed issues made := by
    obtain ⟨some, all⟩ := h.failed issues made
    exact ⟨some, fun place => (all place).trans (faults place)⟩

theorem ok {a : α} (right : R a) (none : ∀ place, ¬ F place) : Finds (.ok a) F R where
  passed _ made := by
    cases made
    exact ⟨right, none⟩
  failed _ made := by cases made

/-- Issues that all stand in one place. -/
theorem here {issues : List Issue} (some : issues ≠ []) (all : ∀ i ∈ issues, i.path = path) :
    Finds (.error issues) (· = path) R where
  passed _ made := by cases made
  failed _ made := by
    cases made
    refine ⟨some, fun place => ⟨fun ⟨i, among, stands⟩ => stands ▸ all i among, fun same => ?_⟩⟩
    obtain ⟨i, among⟩ := List.exists_mem_of_ne_nil _ some
    exact ⟨i, among, (all i among).trans same.symm⟩

theorem issue (path : List String) (message : String) :
    Finds (Checked.issue path message) (· = path) R :=
  here (List.cons_ne_nil _ _) fun _ among => List.mem_singleton.1 among ▸ rfl

end Finds

/-- What was read is the value itself, or the whole number that a number stands for. -/
inductive Reads : Value → Value → Prop
  | same (v : Value) : Reads v v
  | whole {n : Numeral} {i : Int} (is : n.toInt? = some i) : Reads (.number n) (.whole i)

/-- Each of these values was read at its path. -/
def Told (readings : List (List String × Value)) (v : Value) : Prop :=
  ∀ path u, (path, u) ∈ readings → ∃ w, v.at? path = some w ∧ Reads w u

/-- The check of a value at a path lets it pass when it fits the demands, and has read it then.
Otherwise it names each place where one of them is not met. -/
def Judges (r : Checked α) (path : List String) (demands : List (List String × Demand)) (v : Value)
    (readings : α → List (List String × Value)) : Prop :=
  Finds r (fun place => ∃ below, Faulty demands v below ∧ place = path ++ below)
    fun a => Fits demands v ∧ Told (readings a) v

theorem fits_leaf : Fits [([], .leaf c)] v ↔ c.Admits v := by
  simp [Fits, Value.at?, Demand.Met]

theorem faulty_leaf : Faulty [([], .leaf c)] v place ↔ c.Faults v place := by
  simp [Faulty, Value.at?, Demand.Faults]

theorem told_leaf : Told [([], w)] v ↔ Reads v w := by
  simp [Told, Value.at?]

theorem Judges.leaf {u : α → Value}
    (h : Finds r (fun place => ∃ below, c.Faults v below ∧ place = path ++ below)
      fun a => c.Admits v ∧ Reads v (u a)) :
    Judges r path [([], .leaf c)] v fun a => [([], u a)] := by
  simpa only [Judges, fits_leaf, faulty_leaf, told_leaf] using h

/-- The check of a value that is faulty as a whole, or is as it should be. -/
theorem Judges.single {u : α → Value}
    (faults : ∀ place, c.Faults v place ↔ ¬ c.Admits v ∧ place = [])
    (h : Finds r (fun place => ¬ c.Admits v ∧ place = path) fun a => c.Admits v ∧ Reads v (u a)) :
    Judges r path [([], .leaf c)] v fun a => [([], u a)] := by
  refine .leaf (h.congr (fun place => ?_) fun _ => id)
  simp only [faults]
  constructor
  · rintro ⟨other, rfl⟩
    exact ⟨[], ⟨other, rfl⟩, (List.append_nil _).symm⟩
  · rintro ⟨_, ⟨other, rfl⟩, rfl⟩
    exact ⟨other, List.append_nil _⟩

theorem Finds.refused {issues : List Issue} {R : α → Prop} (some : issues ≠ [])
    (all : ∀ i ∈ issues, i.path = path) (refuses : ¬ c.Admits v) :
    Finds (.error issues) (fun place => ¬ c.Admits v ∧ place = path) R :=
  (Finds.here some all).congr (fun _ => (and_iff_right refuses).symm) fun _ => id

variable {fields : List (String × Value)} {name : String}

theorem fits_under : Fits (under name demands) (.table fields) ↔
    ∃ w, Value.lookup fields name = some w ∧ Fits demands w := by
  constructor
  · intro fits
    obtain ⟨_, there, _, is, present⟩ := fits [] (.key name) (List.mem_cons_self ..)
    cases there
    cases is
    obtain ⟨w, found⟩ := Option.isSome_iff_exists.1 present
    refine ⟨w, found, fun path d among => ?_⟩
    obtain ⟨u, there, met⟩ := fits (name :: path) d
      (List.mem_cons_of_mem _ (List.mem_map.2 ⟨(path, d), among, rfl⟩))
    rw [Value.at?, found] at there
    exact ⟨u, there, met⟩
  · rintro ⟨w, found, fits⟩ path d among
    rcases List.mem_cons.1 among with is | among
    · cases is
      exact ⟨_, rfl, fields, rfl, by rw [found]; rfl⟩
    · obtain ⟨⟨rest, _⟩, among, is⟩ := List.mem_map.1 among
      cases is
      obtain ⟨u, there, met⟩ := fits rest d among
      exact ⟨u, by rw [Value.at?, found]; exact there, met⟩

theorem faulty_under : Faulty (under name demands) (.table fields) place ↔
    (Value.lookup fields name = none ∧ place = [name]) ∨
      ∃ w below, Value.lookup fields name = some w ∧ Faulty demands w below ∧
        place = name :: below := by
  constructor
  · rintro ⟨path, d, u, below, among, there, faults, rfl⟩
    rcases List.mem_cons.1 among with is | among
    · cases is
      cases there
      exact .inl faults
    · obtain ⟨⟨rest, _⟩, among, is⟩ := List.mem_map.1 among
      cases is
      obtain ⟨w, found, there⟩ := Option.bind_eq_some_iff.1 there
      exact .inr ⟨w, rest ++ below, found, ⟨rest, d, u, below, among, there, faults, rfl⟩, rfl⟩
  · rintro (missing | ⟨w, _, found, ⟨rest, d, u, below, among, there, faults, rfl⟩, rfl⟩)
    · exact ⟨[], .key name, _, place, List.mem_cons_self .., rfl, missing, rfl⟩
    · exact ⟨name :: rest, d, u, below,
        List.mem_cons_of_mem _ (List.mem_map.2 ⟨(rest, d), among, rfl⟩),
        by rw [Value.at?, found]; exact there, faults, rfl⟩

theorem told_under {readings : List (List String × Value)}
    (found : Value.lookup fields name = some w) :
    Told (readings.map fun (path, u) => (name :: path, u)) (.table fields) ↔ Told readings w := by
  simp only [Told, List.mem_map, Prod.mk.injEq, Prod.exists]
  constructor
  · intro told path u among
    obtain ⟨x, there, reads⟩ := told (name :: path) u ⟨path, u, among, rfl, rfl⟩
    rw [Value.at?, found] at there
    exact ⟨x, there, reads⟩
  · rintro told _ _ ⟨path, u, among, rfl, rfl⟩
    obtain ⟨x, there, reads⟩ := told path u among
    exact ⟨x, by rw [Value.at?, found]; exact there, reads⟩

theorem Judges.both {first : α → List (List String × Value)}
    {second : β → List (List String × Value)} (h : Judges r path demands v first)
    (k : Judges s path others v second) :
    Judges (Checked.both r s) path (demands ++ others) v fun (a, b) => first a ++ second b := by
  refine (Finds.both h k).congr (fun place => ?_) ?_
  · simp only [faulty_append, or_and_right, exists_or]
  · rintro ⟨a, b⟩ ⟨⟨fits, told⟩, fits', told'⟩
    refine ⟨fits_append.2 ⟨fits, fits'⟩, fun path u among => ?_⟩
    exact (List.mem_append.1 among).elim (told path u) (told' path u)

theorem Judges.map {f : α → β} {readings : β → List (List String × Value)}
    (h : Judges r path demands v fun a => readings (f a)) :
    Judges (Checked.map f r) path demands v readings :=
  Finds.map h

/-- The check of a part asks for its key, and of what stands there whatever the part's own check
asks. -/
theorem Judges.part {check : List String → Value → Checked α}
    {readings : α → List (List String × Value)}
    (h : ∀ w, Judges (check (path ++ [name]) w) (path ++ [name]) demands w readings) :
    Judges (Checked.part check path fields name) path (under name demands) (.table fields)
      fun a => (readings a).map fun (path, u) => (name :: path, u) := by
  rw [Checked.part]
  cases found : Value.lookup fields name with
  | none =>
    refine Finds.congr (R := fun _ => False) (Finds.issue _ _) (fun place => ?_) fun _ => False.elim
    simp [faulty_under, found]
  | some w =>
    refine (h w).congr (fun place => ?_) ?_
    · simp [faulty_under, found, and_comm]
    · rintro a ⟨fits, told⟩
      exact ⟨fits_under.2 ⟨w, found, fits⟩, (told_under found).2 told⟩

/-- The demands on a table: that it is one is asked first. -/
def Rooted (demands : List (List String × Demand)) : Prop :=
  (∃ name, ([], .key name) ∈ demands) ∧ ∀ d, ([], d) ∈ demands → ∃ name, d = .key name

theorem Rooted.append (h : Rooted demands) (k : Rooted others) : Rooted (demands ++ others) := by
  obtain ⟨name, among⟩ := h.1
  refine ⟨⟨name, List.mem_append_left _ among⟩, fun d among => ?_⟩
  exact (List.mem_append.1 among).elim (h.2 d) (k.2 d)

theorem Judges.table {check : List String → List (String × Value) → Checked α}
    {readings : α → List (List String × Value)} (rooted : Rooted demands)
    (h : ∀ fields, Judges (check path fields) path demands (.table fields) readings) :
    Judges (Checked.table check path v) path demands v readings := by
  by_cases tabular : ∃ fields, v = .table fields
  · obtain ⟨fields, rfl⟩ := tabular
    exact h fields
  · have refused : Checked.table check path v = Checked.wrongKind path "object" v := by
      cases v with
      | table fields => exact absurd ⟨fields, rfl⟩ tabular
      | _ => rfl
    have faulty (below : List String) : Faulty demands v below ↔ below = [] := by
      constructor
      · rintro ⟨route, d, w, below, among, there, faults, rfl⟩
        cases route with
        | cons key rest =>
          rw [Value.at_cons_eq_none fun fields is => tabular ⟨fields, is⟩] at there
          cases there
        | nil =>
          cases there
          obtain ⟨name, rfl⟩ := rooted.2 d among
          cases v with
          | table fields => exact absurd ⟨fields, rfl⟩ tabular
          | _ => exact faults
      · rintro rfl
        obtain ⟨name, among⟩ := rooted.1
        refine ⟨[], .key name, v, [], among, rfl, ?_, rfl⟩
        cases v with
        | table fields => exact absurd ⟨fields, rfl⟩ tabular
        | _ => rfl
    rw [refused]
    refine Finds.congr (R := fun _ => False) (Finds.issue _ _) (fun place => ?_) fun _ => False.elim
    simp [faulty]

end Settings
end FilterBench
