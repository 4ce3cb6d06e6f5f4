import FilterBench.Client.Commands
import FilterBench.Proofs.Dialogue
import Mathlib.Data.List.Infix

/-!
# The dealings of a dialogue

A dealing is a request with the answer that it got. Through its dealings a dialogue comes to what
is left of it (`Leads`), and what is left depends on the dealings alone: the connection only chooses
the answers (`Connection.leads_dealings`). A part of a session `Comes` to a result through some
dealings; the laws here say through which, for each way in which parts are put together.
-/
namespace FilterBench
open Utf8

instance Request.decEqAnswer : (q : Request) → DecidableEq q.Answer
  | .write _ => inferInstanceAs (DecidableEq (Except Setback Unit))
  | .await => inferInstanceAs (DecidableEq (Except Setback Reply))
  | .secure => inferInstanceAs (DecidableEq (Except Setback Unit))
  | .close => inferInstanceAs (DecidableEq Unit)
  | .note _ => inferInstanceAs (DecidableEq Unit)

structure Dealing where
  request : Request
  answer : request.Answer
  deriving DecidableEq

namespace Dealing

/-- Octets that were written. -/
abbrev said (octets : Bytes) : Dealing := ⟨.write octets, .ok ()⟩

/-- A reply that was taken. -/
abbrev got (r : Reply) : Dealing := ⟨.await, .ok r⟩

abbrev secured : Dealing := ⟨.secure, .ok ()⟩

def setback? : Dealing → Option Setback
  | ⟨.write _, .error s⟩ => some s
  | ⟨.await, .error s⟩ => some s
  | ⟨.secure, .error s⟩ => some s
  | _ => none

end Dealing

/-- Through some dealings a dialogue comes to another one, which is what is left of it. -/
inductive Leads {α : Type} : Dialogue α → List Dealing → Dialogue α → Prop
  | here (d : Dialogue α) : Leads d [] d
  | step {q : Request} {next : q.Answer → Dialogue α} {deals : List Dealing} {d : Dialogue α}
      (answer : q.Answer) : Leads (next answer) deals d →
      Leads (.ask q next) (⟨q, answer⟩ :: deals) d

namespace Leads

variable {α β : Type} {d d' d'' : Dialogue α} {deals deals' : List Dealing}

theorem append (h : Leads d deals d') (h' : Leads d' deals' d'') : Leads d (deals ++ deals') d'' := by
  induction h with
  | here d => exact h'
  | step answer _ ih => exact .step answer (ih h')

theorem bind (h : Leads d deals d') (f : α → Dialogue β) : Leads (d.bind f) deals (d'.bind f) := by
  induction h with
  | here d => exact .here _
  | step answer _ ih => exact .step answer ih

/-- The dealings decide what is left. -/
theorem unique (h : Leads d deals d') (h' : Leads d deals d'') : d' = d'' := by
  induction h with
  | here d =>
    cases h'
    rfl
  | step answer _ ih =>
    cases h' with
    | step _ rest => exact ih rest

theorem done_iff {a : α} : Leads (.done a) deals d ↔ deals = [] ∧ d = .done a := by
  constructor
  · intro h
    cases h
    exact ⟨rfl, rfl⟩
  · rintro ⟨rfl, rfl⟩
    exact .here _

/-- A dialogue that makes one request, and then is over. -/
theorem request_iff {q : Request} {a : β} {f : q.Answer → β} :
    Leads (.ask q fun answer => .done (f answer)) deals (.done a) ↔
      ∃ answer, deals = [⟨q, answer⟩] ∧ a = f answer := by
  constructor
  · intro h
    cases h with
    | step answer rest =>
      obtain ⟨rfl, same⟩ := done_iff.1 rest
      exact ⟨answer, rfl, Dialogue.done.inj same⟩
  · rintro ⟨answer, rfl, rfl⟩
    exact .step answer (.here _)

/-- A dialogue that goes on with another one comes to its end through both. -/
theorem bind_iff {f : α → Dialogue β} {b : β} : Leads (d.bind f) deals (.done b) ↔
    ∃ first a second, deals = first ++ second ∧ Leads d first (.done a) ∧
      Leads (f a) second (.done b) := by
  constructor
  · intro h
    induction d generalizing deals with
    | done a => exact ⟨[], a, deals, rfl, .here _, h⟩
    | ask q next ih =>
      cases h with
      | step answer rest =>
        obtain ⟨first, a, second, rfl, leads, follows⟩ := ih answer rest
        exact ⟨⟨q, answer⟩ :: first, a, second, rfl, .step answer leads, follows⟩
  · rintro ⟨first, a, second, rfl, leads, follows⟩
    exact (leads.bind f).append follows

end Leads

/-! ## The dealings with a connection -/

namespace Connection

variable {α : Type}

/-- The dealings of a dialogue that is carried out, up to a request that is never answered. -/
def dealings : Dialogue α → Connection → List Dealing
  | .done _, _ => []
  | .ask q next, c =>
    match c.perform q with
    | (c, some answer) => ⟨q, answer⟩ :: dealings (next answer) c
    | (_, none) => []

theorem dealings_ask {q : Request} {k : q.Answer → Dialogue α} {c c' : Connection}
    {answer : q.Answer} (h : c.perform q = (c', some answer)) :
    dealings (.ask q k) c = ⟨q, answer⟩ :: dealings (k answer) c' ∧
      c.run (.ask q k) = c'.run (k answer) := by
  constructor
  · rw [dealings, h]
  · rw [run, h]

theorem dealings_stuck {q : Request} {k : q.Answer → Dialogue α} {c c' : Connection}
    (h : c.perform q = (c', none)) :
    dealings (.ask q k) c = [] ∧ c.run (.ask q k) = (c', none) := by
  constructor
  · rw [dealings, h]
  · rw [run, h]

theorem leads_dealings {d : Dialogue α} {c c' : Connection} {a : α}
    (h : c.run d = (c', some a)) : Leads d (c.dealings d) (.done a) := by
  induction d generalizing c with
  | done b =>
    cases h
    exact .here _
  | ask q next ih =>
    rcases performed : c.perform q with ⟨c₁, _ | answer⟩
    · rw [(dealings_stuck performed).2] at h
      cases h
    · obtain ⟨deals, ran⟩ := dealings_ask (k := next) performed
      rw [ran] at h
      rw [deals]
      exact .step answer (ih answer h)

/-- A dialogue goes on as its dealings say. -/
theorem run_of_leads {c c' : Connection} {q : Request} {answer : q.Answer} {deals : List Dealing}
    {d d' : Dialogue α} (leads : Leads d (⟨q, answer⟩ :: deals) d')
    (performed : c.perform q = (c', some answer)) :
    ∃ next, Leads next deals d' ∧ c.run d = c'.run next := by
  cases leads with
  | step _ rest => exact ⟨_, rest, (dealings_ask performed).2⟩

/-- Dialogues that come to their ends through the same dealings come to the same connection. -/
theorem run_of_dealings_eq {β : Type} {d : Dialogue α} {d' : Dialogue β} {c c' : Connection} {a : α}
    {b : β} (ran : c.run d = (c', some a)) (leads : Leads d' (c.dealings d) (.done b)) :
    c.run d' = (c', some b) := by
  induction d generalizing c d' with
  | done _ =>
    cases ran
    cases leads
    rfl
  | ask q next ih =>
    rcases performed : c.perform q with ⟨c₁, _ | answer⟩
    · rw [(dealings_stuck performed).2] at ran
      cases ran
    · obtain ⟨deals, ran'⟩ := dealings_ask (k := next) performed
      rw [ran'] at ran
      rw [deals] at leads
      obtain ⟨rest, leads, goes⟩ := run_of_leads leads performed
      exact goes.trans (ih answer ran leads)

/-- What a request keeps that is answered. -/
def Performs (P : Connection → Prop) : Prop :=
  ∀ {c c' : Connection} {q : Request} {answer : q.Answer}, P c →
    c.perform q = (c', some answer) → P c'

/-- After some of its dealings a dialogue is what they lead to, on some connection. -/
theorem run_of_dealings {P : Connection → Prop} (performs : Performs P) {d : Dialogue α}
    {c : Connection} (h : P c) {pre : List Dealing} (within : pre <+: c.dealings d) :
    ∃ d' c', Leads d pre d' ∧ P c' ∧ c.run d = c'.run d' := by
  induction d generalizing c pre with
  | done a =>
    obtain rfl := List.prefix_nil.1 within
    exact ⟨.done a, c, .here _, h, rfl⟩
  | ask q next ih =>
    cases pre with
    | nil => exact ⟨.ask q next, c, .here _, h, rfl⟩
    | cons deal pre =>
      rcases performed : c.perform q with ⟨c₁, _ | answer⟩
      · rw [(dealings_stuck performed).1] at within
        cases List.prefix_nil.1 within
      · obtain ⟨deals, ran⟩ := dealings_ask (k := next) performed
        rw [deals, List.cons_prefix_cons] at within
        obtain ⟨rfl, within⟩ := within
        obtain ⟨d', c', leads, holds, rest⟩ := ih answer (performs h performed) within
        exact ⟨d', c', .step answer leads, holds, ran.trans rest⟩

/-- What holds of each dealing when it is made. -/
theorem forall_dealings {P : Connection → Prop} {Q : Dealing → Prop} (performs : Performs P)
    (deals : ∀ {c c' : Connection} {q : Request} {answer : q.Answer}, P c →
      c.perform q = (c', some answer) → Q ⟨q, answer⟩)
    {d : Dialogue α} {c : Connection} (h : P c) : ∀ x ∈ c.dealings d, Q x := by
  induction d generalizing c with
  | done a =>
    intro x hx
    cases hx
  | ask q next ih =>
    rcases performed : c.perform q with ⟨c₁, _ | answer⟩
    · rw [(dealings_stuck performed).1]
      intro x hx
      cases hx
    · rw [(dealings_ask performed).1]
      intro x hx
      rcases List.mem_cons.1 hx with rfl | hx
      · exact deals h performed
      · exact ih answer (performs h performed) x hx

end Connection

/-! ## Parts of a session -/

/-- A part of a session, for a client that gave a name or not, comes to a result and leaves the
client with a name or without. -/
def Comes {ε α : Type} (x : ExceptT ε (StateT Introduction Dialogue) α) (i : Introduction)
    (deals : List Dealing) (result : Except ε α) (i' : Introduction) : Prop :=
  Leads (x.run.run i) deals (.done (result, i'))

section

variable {ε ε' α β : Type} {x : ExceptT ε (StateT Introduction Dialogue) α}
  {f : α → ExceptT ε (StateT Introduction Dialogue) β} {i i' : Introduction} {deals : List Dealing}

theorem comes_pure {a : α} {result : Except ε α} :
    Comes (pure a) i deals result i' ↔ deals = [] ∧ result = .ok a ∧ i' = i := by
  unfold Comes
  rw [show (pure a : ExceptT ε (StateT Introduction Dialogue) α).run.run i = .done (.ok a, i) from rfl,
    Leads.done_iff, Dialogue.done.injEq, Prod.mk.injEq]

theorem comes_throw {e : ε} {result : Except ε α} :
    Comes (throw e) i deals result i' ↔ deals = [] ∧ result = .error e ∧ i' = i := by
  unfold Comes
  rw [show (throw e : ExceptT ε (StateT Introduction Dialogue) α).run.run i =
    .done (.error e, i) from rfl, Leads.done_iff, Dialogue.done.injEq, Prod.mk.injEq]

theorem run_parts (x : ExceptT ε (StateT Introduction Dialogue) α)
    (f : α → ExceptT ε (StateT Introduction Dialogue) β) (i : Introduction) :
    (x >>= f).run.run i = (x.run.run i).bind fun (r, j) =>
      match r with
      | .ok a => (f a).run.run j
      | .error e => .done (.error e, j) := by
  show (x.run.run i).bind _ = _
  congr 1
  funext (r, j)
  cases r <;> rfl

/-- A part that goes on with another one ends with the first, or goes through both. -/
theorem comes_bind {result : Except ε β} : Comes (x >>= f) i deals result i' ↔
    (∃ e, result = .error e ∧ Comes x i deals (.error e) i') ∨
      ∃ first a j second, deals = first ++ second ∧ Comes x i first (.ok a) j ∧
        Comes (f a) j second result i' := by
  unfold Comes
  rw [run_parts, Leads.bind_iff]
  constructor
  · rintro ⟨first, ⟨r, j⟩, second, rfl, leads, follows⟩
    cases r with
    | ok a => exact .inr ⟨first, a, j, second, rfl, leads, follows⟩
    | error e =>
      obtain ⟨rfl, same⟩ := Leads.done_iff.1 follows
      cases same
      refine .inl ⟨e, rfl, ?_⟩
      rw [List.append_nil]
      exact leads
  · rintro (⟨e, rfl, leads⟩ | ⟨first, a, j, second, rfl, leads, follows⟩)
    · exact ⟨deals, (.error e, i'), [], (List.append_nil _).symm, leads, .here _⟩
    · exact ⟨first, (.ok a, j), second, rfl, leads, follows⟩

/-- Where two parts lead of which the second has not come to its end yet. -/
theorem Comes.leads_bind {a : α} {j : Introduction} {first second : List Dealing}
    {d : Dialogue (Except ε β × Introduction)} (h : Comes x i first (.ok a) j)
    (h' : Leads ((f a).run.run j) second d) : Leads ((x >>= f).run.run i) (first ++ second) d := by
  rw [run_parts]
  exact (h.bind _).append h'

/-- A part that mends what goes wrong in another one. -/
theorem comes_tryCatch {g : ε → ExceptT ε (StateT Introduction Dialogue) α} {result : Except ε α} :
    Comes (tryCatch x g) i deals result i' ↔
      (∃ a, result = .ok a ∧ Comes x i deals (.ok a) i') ∨
        ∃ first e j second, deals = first ++ second ∧ Comes x i first (.error e) j ∧
          Comes (g e) j second result i' := by
  have parts : (tryCatch x g).run.run i = (x.run.run i).bind fun (r, j) =>
      match r with
      | .ok a => .done (.ok a, j)
      | .error e => (g e).run.run j := by
    show (x.run.run i).bind _ = _
    congr 1
    funext (r, j)
    cases r <;> rfl
  unfold Comes
  rw [parts, Leads.bind_iff]
  constructor
  · rintro ⟨first, ⟨r, j⟩, second, rfl, leads, follows⟩
    cases r with
    | ok a =>
      obtain ⟨rfl, same⟩ := Leads.done_iff.1 follows
      cases same
      refine .inl ⟨a, rfl, ?_⟩
      rw [List.append_nil]
      exact leads
    | error e => exact .inr ⟨first, e, j, second, rfl, leads, follows⟩
  · rintro (⟨a, rfl, leads⟩ | ⟨first, e, j, second, rfl, leads, follows⟩)
    · exact ⟨deals, (.ok a, i'), [], (List.append_nil _).symm, leads, .here _⟩
    · exact ⟨first, (.error e, j), second, rfl, leads, follows⟩

theorem comes_adapt {g : ε → ε'} {result : Except ε' α} :
    Comes (ExceptT.adapt g x) i deals result i' ↔
      ∃ r, result = r.mapError g ∧ Comes x i deals r i' := by
  have parts : (ExceptT.adapt g x).run.run i =
      (x.run.run i).bind fun (r, j) => .done (r.mapError g, j) := rfl
  unfold Comes
  rw [parts, Leads.bind_iff]
  constructor
  · rintro ⟨first, ⟨r, j⟩, second, rfl, leads, follows⟩
    obtain ⟨rfl, same⟩ := Leads.done_iff.1 follows
    cases same
    refine ⟨r, rfl, ?_⟩
    rw [List.append_nil]
    exact leads
  · rintro ⟨r, rfl, leads⟩
    exact ⟨deals, (r, i'), [], (List.append_nil _).symm, leads, .here _⟩

end

namespace Client

variable {α : Type} {i i' : Introduction} {deals : List Dealing}

/-- A part that makes one request. -/
theorem comes_request {x : Exchange α} {q : Request} {f : q.Answer → Except Setback α}
    {result : Except Setback α}
    (parts : x.run.run i = .ask q fun answer => .done (f answer, i)) :
    Comes x i deals result i' ↔ ∃ answer, deals = [⟨q, answer⟩] ∧ result = f answer ∧ i' = i := by
  unfold Comes
  rw [parts, Leads.request_iff]
  simp only [Prod.mk.injEq]

theorem comes_write {octets : Bytes} {result : Except Setback Unit} :
    Comes (write octets) i deals result i' ↔ deals = [⟨.write octets, result⟩] ∧ i' = i := by
  rw [comes_request (q := .write octets) (f := id) rfl]
  constructor
  · rintro ⟨answer, rfl, rfl, rfl⟩
    exact ⟨rfl, rfl⟩
  · rintro ⟨rfl, rfl⟩
    exact ⟨result, rfl, rfl, rfl⟩

theorem comes_reply {result : Except Setback Reply} :
    Comes reply i deals result i' ↔ deals = [⟨.await, result⟩] ∧ i' = i := by
  rw [comes_request (q := .await) (f := id) rfl]
  constructor
  · rintro ⟨answer, rfl, rfl, rfl⟩
    exact ⟨rfl, rfl⟩
  · rintro ⟨rfl, rfl⟩
    exact ⟨result, rfl, rfl, rfl⟩

theorem comes_secure {result : Except Setback Unit} :
    Comes secure i deals result i' ↔ deals = [⟨.secure, result⟩] ∧ i' = i := by
  rw [comes_request (q := .secure) (f := id) rfl]
  constructor
  · rintro ⟨answer, rfl, rfl, rfl⟩
    exact ⟨rfl, rfl⟩
  · rintro ⟨rfl, rfl⟩
    exact ⟨result, rfl, rfl, rfl⟩

end Client

end FilterBench
