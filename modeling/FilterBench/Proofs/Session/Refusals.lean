import FilterBench.Proofs.Connection.Answers
import FilterBench.Proofs.Session.Plays

/-!
# What decides a session

A session that comes to a decision has got its message accepted, or its last dealings are something
that a step said and a reply to it whose code the step does not accept (`Script.Plays.decided`).
`Step.Asks` is the table of what each step can say, at which stage, and of the codes it accepts.
-/
namespace FilterBench
open Utf8 Turnout Session

/-- The two ways in which a client gives its name. -/
def greetings (name : String) : List String := ["EHLO " ++ name, "HELO " ++ name]

/-- The stage at which a step introduces a client that has given no name, if it does. -/
def Step.introduces? : Step → Option Stage
  | .startTls | .login _ | .reset => some .any
  | .sender _ => some .from
  | _ => none

/-- A step can say this at a stage, and goes on if the reply has one of these codes. -/
inductive Step.Asks (accounts : Accounts) : Step → Stage → Bytes → List ℕ → Prop
  | helo {name line : String} : line ∈ greetings name →
      Asks accounts (.helo name) .helo (commandLine line) [250]
  | introduction {step : Step} {stage : Stage} {name line : String} :
      step.introduces? = some stage → line ∈ greetings name →
      Asks accounts step stage (commandLine line) [250]
  | startTls : Asks accounts .startTls .any (commandLine "STARTTLS") [220]
  | login {user : String} : Asks accounts (.login user) .any
      (loginLine (Plain.mechanism ⟨"", user, accounts.passwordFor user⟩)) [235, 334]
  | sender {address : String} : Asks accounts (.sender address) .from
      (commandLine ("MAIL FROM:<" ++ address ++ ">")) [250]
  | recipient {address : String} : Asks accounts (.recipient address) .to
      (commandLine ("RCPT TO:<" ++ address ++ ">")) [250, 251]
  | reset : Asks accounts .reset .any (commandLine "RSET") [250]
  | header {content : Bytes} : Asks accounts (.header content) .data (commandLine "DATA") [354]
  | body {content : Bytes} {s : Stuffing} :
      Asks accounts (.body content) .eom (s.endMark content) [250]

/-- A reply with the code 250 is accepted for whatever a step says, but for opening a content stream,
a secure channel or a login. -/
theorem Step.Asks.accepts {accounts : Accounts} {step : Step} {stage : Stage} {octets : Bytes}
    {codes : List ℕ} (h : step.Asks accounts stage octets codes) (other : 250 ∉ codes) :
    stage = .data ∨ stage = .any ∧ (step = .startTls ∧ octets = commandLine "STARTTLS" ∨
      ∃ user, step = .login user ∧
        octets = loginLine (Plain.mechanism ⟨"", user, accounts.passwordFor user⟩)) := by
  cases h with
  | startTls => exact .inr ⟨rfl, .inl ⟨rfl, rfl⟩⟩
  | @login user => exact .inr ⟨rfl, .inr ⟨user, rfl, rfl⟩⟩
  | header => exact .inl rfl
  | _ => exact absurd (by simp) other

/-- A refusal is the last of its dealings: something was said, and the code of the reply is none of
those that are accepted for it. -/
def Turnout.Refuses (P : Turnout) (Q : Bytes → List ℕ → Prop) : Prop :=
  ∀ {deals : List Dealing} {r : Reply}, (∀ x ∈ deals, x.Sound) → P deals (.error (.refused r)) →
    ∃ pre octets codes, deals = pre ++ [.said octets, .got r] ∧ Q octets codes ∧ r.code ∉ codes

namespace Hears

variable {octets : Bytes} {deals : List Dealing}

/-- No channel refuses anything. -/
theorem not_refused {r : Reply} (sound : ∀ x ∈ deals, x.Sound) :
    ¬Hears octets deals (.error (.refused r)) := by
  intro heard
  cases heard with
  | unsaid => exact sound _ (List.mem_singleton_self _) _ rfl
  | unanswered => exact sound _ (List.mem_cons_of_mem _ (List.mem_singleton_self _)) _ rfl

end Hears

namespace Turnout

variable {P P' : Turnout} {Q : Bytes → List ℕ → Prop}

theorem refuses_asks {octets : Bytes} {codes : List ℕ} (h : Q octets codes) :
    (asks octets codes).Refuses Q := by
  intro deals r sound refused
  cases refused with
  | fails heard => exact absurd heard (Hears.not_refused sound)
  | refused heard other =>
    cases heard
    exact ⟨[], octets, codes, rfl, h, other⟩

theorem refuses_andThen (first : P.Refuses Q) (second : P'.Refuses Q) : (P.andThen P').Refuses Q := by
  intro deals r sound refused
  cases refused with
  | fails failed => exact first sound failed
  | @goesOn before after _ _ failed =>
    have later : ∀ x ∈ after, x.Sound := fun x hx => sound x (by simp [hx])
    obtain ⟨pre, octets, codes, rfl, asked, other⟩ := second later failed
    exact ⟨before ++ pre, octets, codes, (List.append_assoc _ _ _).symm, asked, other⟩

theorem refuses_secures : secures.Refuses Q := by
  intro deals r sound refused
  obtain rfl : deals = [⟨.secure, .error (.refused r)⟩] := refused
  exact (sound _ (List.mem_singleton_self _) _ rfl).elim

theorem refuses_greets {name : String} (h : ∀ line ∈ greetings name, Q (commandLine line) [250]) :
    (greets name).Refuses Q := by
  have extended : Q (commandLine ("EHLO " ++ name)) [250] := h _ (by simp [greetings])
  have old : Q (commandLine ("HELO " ++ name)) [250] := h _ (by simp [greetings])
  intro deals r sound refused
  cases refused with
  | extended turnout _ => exact refuses_asks extended sound turnout
  | @old before after _ _ _ _ turnout =>
    have later : ∀ x ∈ after, x.Sound := fun x hx => sound x (by simp [hx])
    obtain ⟨pre, octets, codes, rfl, asked, other⟩ := refuses_asks old later turnout
    exact ⟨before ++ pre, octets, codes, (List.append_assoc _ _ _).symm, asked, other⟩

theorem refuses_introduces {i : Introduction}
    (h : ∀ line ∈ greetings Client.defaultName, Q (commandLine line) [250]) :
    (introduces i).Refuses Q := by
  intro deals r sound refused
  cases refused with
  | anew turnout => exact refuses_greets h sound turnout

theorem refuses_logsIn {m : Mechanism} (h : Q (loginLine m) [235, 334]) : (logsIn m).Refuses Q := by
  intro deals r sound refused
  cases refused with
  | fails heard => exact absurd heard (Hears.not_refused sound)
  | @uncancelled before after _ _ _ _ heard =>
    have later : ∀ x ∈ after, x.Sound := fun x hx => sound x (by simp [hx])
    exact absurd heard (Hears.not_refused later)
  | refused heard other =>
    cases heard
    exact ⟨[], _, _, rfl, h, other⟩

end Turnout

namespace Session

variable {accounts : Accounts} {i : Introduction}

theorem refuses_command {step : Step} {c : Command} (single : step.command? accounts i = some c) :
    c.turnout.Refuses (step.Asks accounts c.stage) := by
  cases step with
  | helo name =>
    cases single
    exact refuses_greets fun _ => .helo
  | startTls =>
    cases single
    have introduction : ∀ name, ∀ line ∈ greetings name,
        Step.startTls.Asks accounts .any (commandLine line) [250] :=
      fun _ _ => .introduction rfl
    have again : (command ("EHLO " ++ introduced i) [250]).Refuses
        (Step.startTls.Asks accounts .any) :=
      refuses_asks (introduction (introduced i) _ List.mem_cons_self)
    have asked : (command "STARTTLS" [220]).Refuses (Step.startTls.Asks accounts .any) :=
      refuses_asks .startTls
    apply refuses_andThen (refuses_introduces (introduction _))
    apply refuses_andThen asked
    exact refuses_andThen refuses_secures again
  | login user =>
    cases single
    exact refuses_andThen (refuses_introduces fun _ => .introduction rfl) (refuses_logsIn .login)
  | sender address =>
    cases single
    exact refuses_andThen (refuses_introduces fun _ => .introduction rfl) (refuses_asks .sender)
  | recipient address =>
    cases single
    exact refuses_asks .recipient
  | reset =>
    cases single
    exact refuses_andThen (refuses_introduces fun _ => .introduction rfl) (refuses_asks .reset)
  | header content => cases single
  | body content => cases single
  | unknown kind => cases single

end Session

namespace Script

/-- The last that a script got is a reply that the step which asked for it does not accept, and
this is the decision. -/
inductive Refused (accounts : Accounts) (script : Script) : List Dealing → Decision → Prop
  | last {step : Step} {stage : Stage} {octets : Bytes} {codes : List ℕ} {pre : List Dealing}
      {r : Reply} : step ∈ script → step.Asks accounts stage octets codes → r.code ∉ codes →
      Refused accounts script (pre ++ [.said octets, .got r])
        { code := r.code, message := String.ofList r.split.2, stage := stage }

variable {accounts : Accounts} {i : Introduction} {stream : Option Stuffing} {script : Script}
  {deals : List Dealing} {d : Decision}

theorem Refused.later {step : Step} {first : List Dealing} (h : script.Refused accounts deals d) :
    Refused accounts (step :: script) (first ++ deals) d := by
  cases h with
  | @last step stage octets codes pre r mem asks other =>
    rw [← List.append_assoc]
    exact .last (List.mem_cons_of_mem _ mem) asks other

/-- A setback of a step that is a decision is a refusal. -/
theorem refused_of_endingOf {P : Turnout} {step : Step} {stage : Stage} {s : Setback}
    (refuses : P.Refuses (step.Asks accounts stage)) (mem : step ∈ script)
    (sound : ∀ x ∈ deals, x.Sound) (h : P deals (.error s)) (decided : endingOf stage s = .ok d) :
    script.Refused accounts deals d := by
  cases s with
  | refused r =>
    obtain ⟨pre, octets, codes, rfl, asks, other⟩ := refuses sound h
    cases decided
    exact .last mem asks other
  | _ => cases decided

/-- A script that comes to a decision has got its message accepted, or is refused. -/
theorem Plays.decided {e : Ending} (h : script.Plays accounts i stream deals e)
    (sound : ∀ x ∈ deals, x.Sound) (same : e = .ok d) :
    (d = .queued ∧ ∃ up post, deals = up ++ post ∧ script.Accepted accounts i stream up) ∨
      script.Refused accounts deals d := by
  induction h with
  | exhausted => cases same
  | unknown => cases same
  | goesOn single turnout _ ih =>
    obtain ⟨queued, up, post, rfl, accepted⟩ | refused :=
      ih (fun x hx => sound x (by simp [hx])) same
    · exact .inl ⟨queued, _, post, (List.append_assoc _ _ _).symm, .command single turnout accepted⟩
    · exact .inr refused.later
  | fails single turnout =>
    exact .inr (refused_of_endingOf (refuses_command single) List.mem_cons_self sound turnout same)
  | @unopened i stream content rest deals s asked =>
    have refuses : (Turnout.command "DATA" [354]).Refuses
      ((Step.header content).Asks accounts .data) := refuses_asks .header
    exact .inr (refused_of_endingOf refuses List.mem_cons_self sound asked same)
  | @untold i stream content rest deals s asked =>
    cases s with
    | refused r => exact (sound _ (List.mem_append_right _ (List.mem_singleton_self _)) _ rfl).elim
    | _ => cases same
  | @opened i stream content rest first second e asked _ ih =>
    obtain ⟨queued, up, post, rfl, accepted⟩ | refused :=
      ih (fun x hx => sound x (by simp [hx])) same
    · refine .inl ⟨queued, _, post, ?_, .header asked accepted⟩
      rw [← List.cons_append, List.append_assoc]
    · refine .inr ?_
      rw [List.append_cons]
      exact refused.later
  | streamless => cases same
  | @unfilled i stream content rest s =>
    cases s with
    | refused r => exact (sound _ (List.mem_singleton_self _) _ rfl).elim
    | _ => cases same
  | @unaccepted i stream content rest deals s asked =>
    have refuses : (asks (stream.endMark content) [250]).Refuses
      ((Step.body content).Asks accounts .eom) := refuses_asks .body
    have later : ∀ x ∈ deals, x.Sound := fun x hx => sound x (by simp [hx])
    cases s with
    | refused r =>
      obtain ⟨pre, octets, codes, rfl, asks, other⟩ := refuses later asked
      cases same
      rw [← List.cons_append]
      exact .inr (.last List.mem_cons_self asks other)
    | _ => cases same
  | @accepted i stream content rest first second asked leaves =>
    cases same
    cases asked with
    | @accepted _ r heard code =>
      cases heard
      refine .inl ⟨rfl, _, second, ?_, .body (by simpa using code)⟩
      rfl

end Script

end FilterBench
