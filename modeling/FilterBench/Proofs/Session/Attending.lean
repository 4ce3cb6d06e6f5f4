import FilterBench.Proofs.Session.Plays

/-!
# Commands and content

A client waits for a reply to whatever it writes, but for the content of a message
(`Session.attends_dialogue`). So what it writes at some moment is a command, or ends the message, if
and only if the dialogue is to wait for a reply next; the octets alone do not tell.
-/
namespace FilterBench
open Utf8 Session

/-- A dialogue that makes a dealing after some others makes its request there. -/
theorem Leads.at_dealing {α : Type} {d d' : Dialogue α} {pre post : List Dealing} {q : Request}
    {answer : q.Answer} (h : Leads d (pre ++ ⟨q, answer⟩ :: post) d') :
    ∃ next, Leads d pre (.ask q next) ∧ Leads (next answer) post d' := by
  induction pre generalizing d with
  | nil =>
    cases h with
    | step _ rest => exact ⟨_, .here _, rest⟩
  | cons x pre ih =>
    cases h with
    | step first rest =>
      obtain ⟨next, leads, after⟩ := ih rest
      exact ⟨next, .step first leads, after⟩

/-- The dialogue waits for a reply to whatever it writes, but for such octets. -/
inductive Attends {α : Type} (C : Bytes → Prop) : Dialogue α → Prop
  | done (a : α) : Attends C (.done a)
  | asks {octets : Bytes} {next : Except Setback Unit → Dialogue α}
      {next' : Except Setback Reply → Dialogue α} : next (.ok ()) = .ask .await next' →
      (∀ answer, Attends C (next answer)) → Attends C (.ask (.write octets) next)
  | tells {octets : Bytes} {next : Except Setback Unit → Dialogue α} : C octets →
      (∀ answer, Attends C (next answer)) → Attends C (.ask (.write octets) next)
  | other {q : Request} {next : q.Answer → Dialogue α} : (∀ octets, q ≠ .write octets) →
      (∀ answer, Attends C (next answer)) → Attends C (.ask q next)

namespace Attends

variable {α β : Type} {C : Bytes → Prop} {d d' : Dialogue α} {deals : List Dealing}

theorem bind {f : α → Dialogue β} (h : Attends C d) (h' : ∀ a, Attends C (f a)) :
    Attends C (d.bind f) := by
  induction h with
  | done a => exact h' a
  | @asks octets next next' waits _ ih =>
    have goesOn : (next (.ok ())).bind f = .ask .await fun answer => (next' answer).bind f := by
      rw [waits]
      rfl
    exact .asks goesOn ih
  | tells such _ ih => exact .tells such ih
  | other such _ ih => exact .other such ih

/-- What is left of such a dialogue is such. -/
theorem leads (h : Attends C d) (leads : Leads d deals d') : Attends C d' := by
  induction leads with
  | here => exact h
  | step answer _ ih =>
    cases h with
    | asks _ rest => exact ih (rest answer)
    | tells _ rest => exact ih (rest answer)
    | other _ rest => exact ih (rest answer)

theorem write {octets : Bytes} {next : Except Setback Unit → Dialogue α}
    (h : Attends C (.ask (.write octets) next)) :
    C octets ∨ ∃ next', next (.ok ()) = .ask .await next' := by
  cases h with
  | asks waits => exact .inr ⟨_, waits⟩
  | tells such => exact .inl such
  | other such => exact absurd rfl (such octets)

end Attends

/-! ## Parts of a session -/

/-- A part of a session that waits for a reply to whatever it writes, but for such octets. -/
def Attentive {ε α : Type} (C : Bytes → Prop) (x : ExceptT ε (StateT Introduction Dialogue) α) :
    Prop :=
  ∀ i, Attends C (x.run.run i)

section

variable {ε ε' α β : Type} {C : Bytes → Prop} {x : ExceptT ε (StateT Introduction Dialogue) α}
  {f : α → ExceptT ε (StateT Introduction Dialogue) β}

theorem attentive_pure (a : α) :
    Attentive C (pure a : ExceptT ε (StateT Introduction Dialogue) α) := fun _ => .done _

theorem attentive_throw (e : ε) :
    Attentive C (throw e : ExceptT ε (StateT Introduction Dialogue) α) := fun _ => .done _

theorem attentive_bind (h : Attentive C x) (h' : ∀ a, Attentive C (f a)) :
    Attentive C (x >>= f) := by
  intro i
  rw [run_parts]
  refine (h i).bind fun (r, j) => ?_
  cases r with
  | ok a => exact h' a j
  | error e => exact .done _

theorem attentive_tryCatch {g : ε → ExceptT ε (StateT Introduction Dialogue) α}
    (h : Attentive C x) (h' : ∀ e, Attentive C (g e)) : Attentive C (tryCatch x g) := by
  intro i
  refine (h i).bind fun (r, j) => ?_
  cases r with
  | ok a => exact .done _
  | error e => exact h' e j

theorem attentive_adapt {g : ε → ε'} (h : Attentive C x) : Attentive C (ExceptT.adapt g x) :=
  fun i => (h i).bind fun _ => .done _

end

namespace Client

variable {α : Type} {C : Bytes → Prop}

theorem attentive_get : Attentive C (get : Exchange Introduction) := fun _ => .done _

theorem attentive_set (i : Introduction) : Attentive C (set i : Exchange PUnit) := fun _ => .done _

theorem attentive_reply : Attentive C reply :=
  fun _ => .other (by simp) fun _ => .done _

theorem attentive_secure : Attentive C secure :=
  fun _ => .other (by simp) fun _ => .done _

theorem attentive_close : Attentive C close :=
  fun _ => .other (by simp) fun _ => .done _

theorem attentive_content {octets : Bytes} (such : C octets) : Attentive C (write octets) :=
  fun _ => .tells such fun _ => .done _

theorem attentive_expect (accepted : Int → Bool) (r : Reply) :
    Attentive C (expect accepted r) := by
  unfold expect
  split
  · exact attentive_pure ()
  · exact attentive_throw _

/-- What is written first, if a reply is awaited next. -/
theorem attentive_write {octets : Bytes} {y : Exchange α}
    (waits : ∀ i, ∃ next, y.run.run i = .ask .await next) (h : Attentive C y) :
    Attentive C (write octets >>= fun _ => y) := by
  intro i
  obtain ⟨next, waits⟩ := waits i
  refine .asks waits fun answer => ?_
  cases answer with
  | ok _ => exact h i
  | error s => exact .done _

theorem attentive_asks {octets : Bytes} {k : Reply → Exchange α} (h : ∀ r, Attentive C (k r)) :
    Attentive C (write octets >>= fun _ => reply >>= k) :=
  attentive_write (fun _ => ⟨_, rfl⟩) (attentive_bind attentive_reply h)

theorem attentive_command (line : String) (accepted : Int → Bool) :
    Attentive C (command line accepted) :=
  attentive_asks fun r => attentive_expect accepted r

theorem attentive_extendedHello : Attentive C extendedHello :=
  attentive_bind attentive_get fun _ => attentive_command _ _

theorem attentive_hello (name : String) : Attentive C (hello name) := by
  refine attentive_bind (attentive_set _) fun _ => ?_
  refine attentive_tryCatch attentive_extendedHello fun s => ?_
  split
  · exact attentive_command _ _
  · exact attentive_throw s

theorem attentive_ensureHello : Attentive C ensureHello := by
  refine attentive_bind attentive_get fun i => ?_
  cases i with
  | some name => exact attentive_pure ()
  | none => exact attentive_hello defaultName

theorem attentive_startTls : Attentive C startTls :=
  attentive_bind attentive_ensureHello fun _ => attentive_bind (attentive_command _ _) fun _ =>
    attentive_bind attentive_secure fun _ => attentive_extendedHello

theorem attentive_login (m : Mechanism) : Attentive C (login m) := by
  refine attentive_bind attentive_ensureHello fun _ => attentive_asks fun r => ?_
  split
  · refine attentive_write (fun _ => ⟨_, rfl⟩) ?_
    exact attentive_bind (attentive_bind attentive_reply fun _ => attentive_pure _)
      fun _ => attentive_throw _
  · exact attentive_expect _ r

theorem attentive_mail (sender : String) : Attentive C (mail sender) :=
  attentive_bind attentive_ensureHello fun _ => attentive_command _ _

theorem attentive_reset : Attentive C reset :=
  attentive_bind attentive_ensureHello fun _ => attentive_command _ _

theorem attentive_greeting : Attentive C greeting :=
  attentive_tryCatch (attentive_bind attentive_reply fun r => attentive_expect _ r) fun s =>
    attentive_bind attentive_close fun _ => attentive_throw s

theorem attentive_quit : Attentive C quit :=
  attentive_bind (attentive_tryCatch (attentive_command _ _) fun s =>
    attentive_bind attentive_close fun _ => attentive_throw s) fun _ => attentive_close

end Client

namespace Session

variable {accounts : Accounts} {C : Bytes → Prop}

theorem attentive_during {α : Type} {x : Exchange α} (stage : Stage) (h : Attentive C x) :
    Attentive C (during stage x) := attentive_adapt h

theorem attentive_takeLeave : Attentive C takeLeave :=
  attentive_tryCatch Client.attentive_quit fun _ _ => .other (by simp) fun _ => .done _

theorem attentive_writeContent {content : Bytes} (such : ∀ s : Stuffing, C (s.written content))
    (stream : Option Stuffing) : Attentive C (writeContent stream content) := by
  cases stream with
  | none => exact attentive_during _ (attentive_throw _)
  | some s =>
    exact attentive_bind (attentive_during _ (Client.attentive_content (such s)))
      fun _ => attentive_pure _

theorem attentive_playSteps {script : Script}
    (such : ∀ content, .header content ∈ script ∨ .body content ∈ script →
      ∀ s : Stuffing, C (s.written content)) (stream : Option Stuffing) :
    Attentive C (playSteps accounts script stream) := by
  induction script generalizing stream with
  | nil => exact attentive_throw _
  | cons step rest ih =>
    have ih := ih fun content mem => such content (mem.imp (.tail _) (.tail _))
    cases step with
    | helo name => exact attentive_bind (attentive_during _ (Client.attentive_hello name)) fun _ => ih _
    | startTls => exact attentive_bind (attentive_during _ Client.attentive_startTls) fun _ => ih _
    | login name => exact attentive_bind (attentive_during _ (Client.attentive_login _)) fun _ => ih _
    | sender address =>
      exact attentive_bind (attentive_during _ (Client.attentive_mail address)) fun _ => ih _
    | recipient address =>
      exact attentive_bind (attentive_during _ (Client.attentive_command _ _)) fun _ => ih _
    | reset => exact attentive_bind (attentive_during _ Client.attentive_reset) fun _ => ih _
    | header content =>
      have written := attentive_writeContent (such content (.inl List.mem_cons_self)) (some {})
      exact attentive_bind (attentive_during _ (Client.attentive_command _ _)) fun _ =>
        attentive_bind written fun _ => ih _
    | body content =>
      have written := attentive_writeContent (such content (.inr List.mem_cons_self)) stream
      exact attentive_bind written fun _ =>
        attentive_bind (attentive_during _ (Client.attentive_asks fun r => Client.attentive_expect _ r))
          fun _ => attentive_bind (attentive_during _ attentive_takeLeave) fun _ => attentive_pure _
    | unknown kind => exact attentive_throw _

/-- The octets are the content of a step. -/
def IsContent (script : Script) (octets : Bytes) : Prop :=
  ∃ content, (.header content ∈ script ∨ .body content ∈ script) ∧
    ∃ s : Stuffing, octets = s.written content

/-- A session waits for a reply to whatever it writes but content. -/
theorem attends_dialogue (accounts : Accounts) (script : Script) :
    Attends (IsContent script) (dialogue accounts script) := by
  rw [dialogue_parts]
  refine (Client.attentive_greeting none).bind fun (greeted, i) => ?_
  cases greeted with
  | error s => exact .done _
  | ok _ =>
    have played : Attentive (IsContent script) (playSteps accounts script none) :=
      attentive_playSteps (fun content mem s => ⟨content, mem, s, rfl⟩) none
    exact (played i).bind fun _ => .other (by simp) fun _ => .done _

end Session

end FilterBench
