import FilterBench.Proofs.Session.Acceptance
import FilterBench.Proofs.Text.Encoding

/-!
# What the steps write

Whatever comes of a session, each thing that it writes it writes for one step of its script, when
the peer has let the steps before that one pass (`Session.yields_of_wrote`). A step writes commands,
a header and a body write content besides, and leave is taken only after a body that was accepted.
-/
namespace FilterBench
open Utf8 Turnout Session

/-- If octets were written, they are such. -/
def Dealing.Says (x : Dealing) (Q : Bytes → Prop) : Prop :=
  ∀ octets, x.request = .write octets → Q octets

namespace Turnout

/-- Whatever is written, however it turns out, is such. -/
def Says (P : Turnout) (Q : Bytes → Prop) : Prop :=
  ∀ deals result, P deals result → ∀ x ∈ deals, x.Says Q

variable {P P' : Turnout} {Q : Bytes → Prop} {octets : Bytes} {deals : List Dealing}

theorem says_hears {result : Except Setback Reply} (heard : Hears octets deals result)
    (h : Q octets) : ∀ x ∈ deals, x.Says Q := by
  have said : ∀ answer, Dealing.Says ⟨.write octets, answer⟩ Q := by
    rintro answer _ ⟨⟩
    exact h
  have awaited : ∀ answer, Dealing.Says ⟨.await, answer⟩ Q := by
    rintro answer _ ⟨⟩
  cases heard with
  | unsaid s => simp [said]
  | unanswered s => simp [said, awaited]
  | answered r => simp [said, awaited]

theorem says_asks {codes : List ℕ} (h : Q octets) : (asks octets codes).Says Q := by
  intro deals result asked
  cases asked with
  | fails heard => exact says_hears heard h
  | refused heard _ => exact says_hears heard h
  | accepted heard _ => exact says_hears heard h

theorem says_andThen (first : P.Says Q) (second : P'.Says Q) : (P.andThen P').Says Q := by
  intro deals result turnout
  cases turnout with
  | fails failed => exact first _ _ failed
  | goesOn succeeded turnout =>
    exact List.forall_mem_append.2 ⟨first _ _ succeeded, second _ _ turnout⟩

theorem says_secures : secures.Says Q := by
  rintro deals result rfl x mem octets same
  obtain rfl := List.mem_singleton.1 mem
  cases same

theorem says_greets {name : String} (h : ∀ line ∈ greetings name, Q (commandLine line)) :
    (greets name).Says Q := by
  have extended : (command ("EHLO " ++ name) [250]).Says Q := says_asks (h _ (by simp [greetings]))
  have old : (command ("HELO " ++ name) [250]).Says Q := says_asks (h _ (by simp [greetings]))
  intro deals result turnout
  cases turnout with
  | extended turnout _ => exact extended _ _ turnout
  | old turnout _ turnout' =>
    exact List.forall_mem_append.2 ⟨extended _ _ turnout, old _ _ turnout'⟩

theorem says_introduces {i : Introduction}
    (h : ∀ line ∈ greetings Client.defaultName, Q (commandLine line)) : (introduces i).Says Q := by
  intro deals result turnout
  cases turnout with
  | known => simp
  | anew turnout => exact says_greets h _ _ turnout

theorem says_logsIn {m : Mechanism} (h : Q (loginLine m)) (cancel : Q (commandLine "*")) :
    (logsIn m).Says Q := by
  intro deals result turnout
  cases turnout with
  | fails heard => exact says_hears heard h
  | uncancelled heard _ heard' =>
    exact List.forall_mem_append.2 ⟨says_hears heard h, says_hears heard' cancel⟩
  | challenged heard _ heard' =>
    exact List.forall_mem_append.2 ⟨says_hears heard h, says_hears heard' cancel⟩
  | refused heard _ => exact says_hears heard h
  | accepted heard _ => exact says_hears heard h

end Turnout

/-- A step can say this to the peer, and waits for a reply. -/
inductive Step.Says (accounts : Accounts) : Step → Bytes → Prop
  | asks {step : Step} {stage : Stage} {octets : Bytes} {codes : List ℕ} :
      step.Asks accounts stage octets codes → Says accounts step octets
  /-- A login that is asked for more is given up. -/
  | cancels {user : String} : Says accounts (.login user) (commandLine "*")

namespace Session

variable {accounts : Accounts} {i : Introduction}

theorem says_command {step : Step} {c : Command} (single : step.command? accounts i = some c) :
    c.turnout.Says (step.Says accounts) := by
  -- Whatever needs an introduction can say the greetings.
  have introduces : ∀ {step : Step} {stage : Stage}, step.introduces? = some stage →
      (introduces i).Says (step.Says accounts) :=
    fun introduced => says_introduces fun _ mem => .asks (.introduction introduced mem)
  cases step with
  | helo name =>
    cases single
    exact says_greets fun _ mem => .asks (.helo mem)
  | startTls =>
    cases single
    have again : (command ("EHLO " ++ introduced i) [250]).Says (Step.startTls.Says accounts) :=
      says_asks (.asks (.introduction rfl List.mem_cons_self))
    have asked : (command "STARTTLS" [220]).Says (Step.startTls.Says accounts) :=
      says_asks (.asks .startTls)
    exact says_andThen (introduces rfl) (says_andThen asked (says_andThen says_secures again))
  | login user =>
    cases single
    exact says_andThen (introduces rfl) (says_logsIn (.asks .login) .cancels)
  | sender address =>
    cases single
    exact says_andThen (introduces rfl) (says_asks (.asks .sender))
  | recipient address =>
    cases single
    exact says_asks (.asks .recipient)
  | reset =>
    cases single
    exact says_andThen (introduces rfl) (says_asks (.asks .reset))
  | header content => cases single
  | body content => cases single
  | unknown kind => cases single

end Session

/-! ## What the history shows of dealings -/

namespace Traced

variable {deals first second : List Dealing} {es : List Event} {octets : Bytes}

theorem nil_iff : Traced [] es ↔ es = [] := by
  constructor
  · rintro ⟨⟩
    rfl
  · rintro rfl
    exact .nil

theorem append_iff : Traced (first ++ second) es ↔
    ∃ es' es'', es = es' ++ es'' ∧ Traced first es' ∧ Traced second es'' := by
  induction first generalizing es with
  | nil =>
    simp only [nil_iff, List.nil_append]
    constructor
    · intro h
      exact ⟨[], es, rfl, rfl, h⟩
    · rintro ⟨_, es', rfl, rfl, h⟩
      exact h
  | cons x first ih =>
    constructor
    · rintro (_ | ⟨left, rest⟩)
      obtain ⟨es', es'', rfl, traced, traced'⟩ := ih.1 rest
      exact ⟨_, es'', (List.append_assoc _ _ _).symm, .cons left traced, traced'⟩
    · rintro ⟨_, es'', rfl, _ | ⟨left, rest⟩, traced'⟩
      rw [List.append_assoc]
      exact .cons left (ih.2 ⟨_, es'', rfl, rest, traced'⟩)

theorem said_iff : Traced (.said octets :: deals) es ↔
    ∃ es', es = .wrote octets :: es' ∧ Traced deals es' := by
  constructor
  · rintro (_ | ⟨left, rest⟩)
    cases left
    exact ⟨_, rfl, rest⟩
  · rintro ⟨es', rfl, rest⟩
    exact .cons (.said octets) rest

theorem got_iff {r : Reply} : Traced (.got r :: deals) es ↔
    ∃ es', es = .took r :: es' ∧ Traced deals es' := by
  constructor
  · rintro (_ | ⟨left, rest⟩)
    cases left
    exact ⟨_, rfl, rest⟩
  · rintro ⟨es', rfl, rest⟩
    exact .cons (.got r) rest

/-- What was said is written. -/
theorem wrote_of_said (h : Traced deals es) (mem : .said octets ∈ deals) : .wrote octets ∈ es := by
  obtain ⟨first, second, rfl⟩ := List.append_of_mem mem
  obtain ⟨before, after, rfl, -, traced⟩ := append_iff.1 h
  obtain ⟨rest, rfl, -⟩ := said_iff.1 traced
  exact List.mem_append_right _ List.mem_cons_self

theorem one {x : Dealing} (h : x.Traced es) : es = [] ∨ ∃ e, es = [e] ∧
    ∀ octets, e = .wrote octets → ∃ answer, x = ⟨.write octets, answer⟩ := by
  cases h with
  | said | failed =>
    refine .inr ⟨_, rfl, ?_⟩
    rintro octets ⟨⟩
    exact ⟨_, rfl⟩
  | refused | unanswered | unsecured | closed => exact .inl rfl
  | lost | got | secured | noted =>
    refine .inr ⟨_, rfl, ?_⟩
    rintro octets ⟨⟩

/-- What the history shows as written was written in a dealing. -/
theorem wrote {pre post : List Event} (h : Traced deals (pre ++ .wrote octets :: post)) :
    ∃ first answer second, deals = first ++ ⟨.write octets, answer⟩ :: second ∧
      Traced first pre := by
  generalize same : pre ++ Event.wrote octets :: post = es at h
  induction h generalizing pre with
  | nil => simp at same
  | cons left _ ih =>
    obtain rfl | ⟨e, rfl, writes⟩ := one left
    · obtain ⟨first, answer, second, rfl, traced⟩ := ih same
      exact ⟨_ :: first, answer, second, rfl, .cons left traced⟩
    · cases pre with
      | nil =>
        obtain ⟨rfl, rfl⟩ := List.cons.inj same
        obtain ⟨answer, rfl⟩ := writes octets rfl
        exact ⟨[], answer, _, rfl, .nil⟩
      | cons p pre =>
        obtain ⟨rfl, rest⟩ := List.cons.inj same
        obtain ⟨first, answer, second, rfl, traced⟩ := ih rest
        exact ⟨_ :: first, answer, second, rfl, .cons left traced⟩

end Traced

namespace Script

/-! ## Step by step -/

/-- The peer lets steps pass: each command gets a reply that it accepts, and each header opens a
stream, to which its content is written. -/
inductive Passed (accounts : Accounts) :
    Introduction → Script → List Dealing → Introduction → Prop
  | nil (i : Introduction) : Passed accounts i [] [] i
  | command {i j : Introduction} {step : Step} {rest : Script} {c : Command}
      {first second : List Dealing} : step.command? accounts i = some c →
      c.turnout first (.ok ()) → Passed accounts c.name rest second j →
      Passed accounts i (step :: rest) (first ++ second) j
  | header {i j : Introduction} {content : Bytes} {rest : Script} {first second : List Dealing} :
      Turnout.command "DATA" [354] first (.ok ()) → Passed accounts i rest second j →
      Passed accounts i (.header content :: rest)
        (first ++ .said (({} : Stuffing).written content) :: second) j

/-- The history shows this, and no more, when the peer has let steps pass. -/
def Shown (accounts : Accounts) (script : Script) (i : Introduction) (es : List Event)
    (j : Introduction) : Prop :=
  ∃ deals, Passed accounts i script deals j ∧ Traced deals es

end Script

/-- A step whose part so far left this in the history can go on to write the octets. -/
inductive Step.Writes (accounts : Accounts) : Step → List Event → Bytes → Prop
  | command {step : Step} {part : List Event} {octets : Bytes} :
      step.Says accounts octets → Writes accounts step part octets
  | header {content : Bytes} {part : List Event} :
      Writes accounts (.header content) part (({} : Stuffing).written content)
  | body {content : Bytes} (s : Stuffing) :
      Writes accounts (.body content) [] (s.written content)
  /-- Leave is taken once the end mark was accepted. -/
  | leave {content : Bytes} {s : Stuffing} {ok : Reply} : ok.code = 250 →
      Writes accounts (.body content)
        [.wrote (s.written content), .wrote (s.endMark content), .took ok] (commandLine "QUIT")

namespace Script

/-- A session that did and took so much goes on to write this, for a step of its script: the peer has
let those before it pass, none of which is a body. -/
inductive Yields (accounts : Accounts) : Script → List Event → Bytes → Prop
  | step {greeting : Reply} {before after : Script} {step : Step} {told part : List Event}
      {octets : Bytes} {j : Introduction} : greeting.code = 220 →
      (∀ content, .body content ∉ before) → before.Shown accounts none told j →
      step.Writes accounts part octets →
      Yields accounts (before ++ step :: after) (.took greeting :: (told ++ part)) octets

/-- This is written for one of the steps, when the peer has let those before it pass. -/
inductive Writes (accounts : Accounts) (i : Introduction) :
    Script → List Dealing → Bytes → Prop
  | step {before after : Script} {step : Step} {told part : List Dealing} {octets : Bytes}
      {j : Introduction} : Passed accounts i before told j →
      (∀ es, Traced part es → step.Writes accounts es octets) →
      Writes accounts i (before ++ step :: after) (told ++ part) octets

variable {accounts : Accounts} {script : Script} {i j : Introduction} {deals : List Dealing}
  {stream : Option Stuffing}

/-- No body lets a script go on. -/
theorem Passed.bodiless (h : Passed accounts i script deals j) (content : Bytes) :
    .body content ∉ script := by
  induction h with
  | nil => simp
  | command single _ _ ih =>
    rintro (_ | ⟨_, mem⟩)
    · cases single
    · exact ih mem
  | header _ _ ih =>
    rintro (_ | ⟨_, mem⟩)
    exact ih mem

namespace Writes

variable {first pre post : List Dealing} {octets : Bytes} {answer : Except Setback Unit}

/-- The first step writes. -/
theorem now {step : Step} {rest : Script}
    (h : ∀ es, Traced pre es → step.Writes accounts es octets) :
    Writes accounts i (step :: rest) pre octets :=
  .step (.nil i) h

theorem after_command {step : Step} {rest : Script} {c : Command}
    (single : step.command? accounts i = some c) (succeeded : c.turnout first (.ok ()))
    (h : Writes accounts c.name rest pre octets) :
    Writes accounts i (step :: rest) (first ++ pre) octets := by
  cases h with
  | step passed writes =>
    rw [← List.append_assoc]
    exact .step (.command single succeeded passed) writes

theorem after_header {content : Bytes} {rest : Script}
    (succeeded : Turnout.command "DATA" [354] first (.ok ()))
    (h : Writes accounts i rest pre octets) : Writes accounts i (.header content :: rest)
      (first ++ .said (({} : Stuffing).written content) :: pre) octets := by
  cases h with
  | step passed writes =>
    rw [← List.cons_append, ← List.cons_append, ← List.append_assoc]
    exact .step (.header succeeded passed) writes

/-- A part of the first step that can only say what the step can. -/
theorem of_turnout {P : Turnout} {result : Except Setback Unit} {step : Step} {rest : Script}
    (such : P.Says (step.Says accounts)) (turnout : P deals result)
    (split : deals = pre ++ ⟨.write octets, answer⟩ :: post) :
    Writes accounts i (step :: rest) pre octets := by
  have mem : ⟨.write octets, answer⟩ ∈ deals := by simp [split]
  exact .now fun _ _ => .command (such _ _ turnout _ mem octets rfl)

end Writes

/-- A place in two lists is one in the first, or in the second. -/
theorem split_cases {α : Type} {first second pre post : List α} {x : α}
    (h : first ++ second = pre ++ x :: post) :
    (∃ mid, first = pre ++ x :: mid) ∨ ∃ mid, pre = first ++ mid ∧ second = mid ++ x :: post := by
  obtain ⟨mid, rfl, rfl⟩ | ⟨_ | ⟨y, mid⟩, rfl, rest⟩ := List.append_eq_append_iff.1 h
  · exact .inr ⟨mid, rfl, rfl⟩
  · exact .inr ⟨[], by simp, rest.symm⟩
  · obtain ⟨rfl, -⟩ := List.cons.inj rest
    exact .inl ⟨mid, rfl⟩

section

variable {pre post : List Dealing} {octets : Bytes} {answer : Except Setback Unit}

/-- Where one of some dealings writes of which the first does. -/
theorem write_cases {data : Bytes} {told : Except Setback Unit}
    (split : ⟨.write data, told⟩ :: deals = pre ++ ⟨.write octets, answer⟩ :: post) :
    (pre = [] ∧ octets = data) ∨
      ∃ mid, pre = ⟨.write data, told⟩ :: mid ∧ deals = mid ++ ⟨.write octets, answer⟩ :: post := by
  obtain ⟨rfl, same⟩ | later := List.cons_eq_append_iff.1 split
  · cases same
    exact .inl ⟨rfl, rfl⟩
  · exact .inr later

theorem leaves_writes (h : Leaves deals) (split : deals = pre ++ ⟨.write octets, answer⟩ :: post) :
    pre = [] ∧ octets = commandLine "QUIT" := by
  have begins : ∃ told rest, deals = ⟨.write (commandLine "QUIT"), told⟩ :: rest ∧
      ∀ x ∈ rest, ∀ octets, x.request ≠ .write octets := by
    cases h with
    | answered left =>
      cases left with
      | accepted heard =>
        cases heard
        exact ⟨_, _, rfl, by simp⟩
    | remarked left =>
      cases left with
      | fails heard | refused heard => cases heard <;> exact ⟨_, _, rfl, by simp⟩
  obtain ⟨_, rest, rfl, quiet⟩ := begins
  obtain here | ⟨mid, -, rfl⟩ := write_cases split
  · exact here
  · exact (quiet _ (List.mem_append_right _ List.mem_cons_self) octets rfl).elim

theorem Plays.writes {e : Ending} (h : script.Plays accounts i stream deals e)
    (split : deals = pre ++ ⟨.write octets, answer⟩ :: post) :
    Writes accounts i script pre octets := by
  have opens : ∀ content, (Turnout.command "DATA" [354]).Says ((Step.header content).Says accounts) :=
    fun _ => says_asks (.asks .header)
  have ends : ∀ (s : Stuffing) content,
      (asks (s.endMark content) [250]).Says ((Step.body content).Says accounts) :=
    fun _ _ => says_asks (.asks .body)
  have none : ∀ {x : Dealing} {mid : List Dealing}, [] ≠ mid ++ x :: post := by simp
  induction h generalizing pre with
  | exhausted | unknown | streamless => exact (none split).elim
  | goesOn single succeeded _ ih =>
    obtain ⟨mid, rfl⟩ | ⟨mid, rfl, rfl⟩ := split_cases split
    · exact .of_turnout (says_command single) succeeded rfl
    · exact (ih rfl).after_command single succeeded
  | fails single failed => exact .of_turnout (says_command single) failed split
  | unopened asked => exact .of_turnout (opens _) asked split
  | untold asked =>
    obtain ⟨mid, rfl⟩ | ⟨mid, rfl, last⟩ := split_cases split
    · exact .of_turnout (opens _) asked rfl
    · obtain ⟨rfl, rfl⟩ | ⟨_, _, past⟩ := write_cases last
      · exact .now fun _ _ => .header
      · exact (none past).elim
  | opened asked _ ih =>
    obtain ⟨mid, rfl⟩ | ⟨mid, rfl, last⟩ := split_cases split
    · exact .of_turnout (opens _) asked rfl
    · obtain ⟨rfl, rfl⟩ | ⟨mid, rfl, rfl⟩ := write_cases last
      · exact .now fun _ _ => .header
      · exact (ih rfl).after_header asked
  | @unfilled i s =>
    obtain ⟨rfl, rfl⟩ | ⟨_, _, past⟩ := write_cases split
    · exact .now fun es traced => Traced.nil_iff.1 traced ▸ .body s
    · exact (none past).elim
  | @unaccepted i s content rest deals _ asked =>
    obtain ⟨rfl, rfl⟩ | ⟨mid, rfl, rfl⟩ := write_cases split
    · exact .now fun es traced => Traced.nil_iff.1 traced ▸ .body s
    · have mem : ⟨.write octets, answer⟩ ∈ mid ++ ⟨.write octets, answer⟩ :: post := by simp
      exact .now fun _ _ => .command (ends s content _ _ asked _ mem octets rfl)
  | @accepted i s content rest first second asked leaves =>
    obtain ⟨rfl, rfl⟩ | ⟨_, rfl, ended⟩ := write_cases split
    · exact .now fun es traced => Traced.nil_iff.1 traced ▸ .body s
    cases asked with
    | @accepted _ ok heard code =>
      cases heard
      obtain ⟨rfl, rfl⟩ | ⟨_, rfl, answered⟩ := write_cases ended
      · exact .now fun _ _ => .command (.asks .body)
      obtain ⟨_, same⟩ | ⟨_, rfl, left⟩ := List.cons_eq_append_iff.1 answered
      · cases same
      obtain ⟨rfl, rfl⟩ := leaves_writes leaves left
      refine .now fun es traced => ?_
      simp only [Traced.said_iff, Traced.got_iff, Traced.nil_iff] at traced
      obtain ⟨_, rfl, _, rfl, _, rfl, rfl⟩ := traced
      exact .leave (by simpa using code)

end

end Script

namespace Dialogue

/-- A dialogue always can come to an end, for each request can be answered. -/
theorem leads_done {α : Type} (d : Dialogue α) : ∃ deals a, Leads d deals (.done a) := by
  have answers : ∀ q : Request, Nonempty q.Answer := by
    rintro (_ | _ | _ | _ | _)
    · exact ⟨.ok ()⟩
    · exact ⟨.error .closed⟩
    · exact ⟨.ok ()⟩
    · exact ⟨()⟩
    · exact ⟨()⟩
  induction d with
  | done a => exact ⟨[], a, .here _⟩
  | ask q next ih =>
    obtain ⟨answer⟩ := answers q
    obtain ⟨deals, a, leads⟩ := ih answer
    exact ⟨_, a, .step answer leads⟩

end Dialogue

/-- The dealings of a dialogue are the first of some that bring it to an end. -/
theorem Connection.leads_more {α : Type} (d : Dialogue α) (c : Connection) :
    ∃ more a, Leads d (c.dealings d ++ more) (.done a) := by
  have kept : Performs fun _ => True := fun _ _ => trivial
  obtain ⟨rest, _, leads, -⟩ := run_of_dealings kept (d := d) (c := c) trivial (List.prefix_refl _)
  obtain ⟨more, a, ends⟩ := rest.leads_done
  exact ⟨more, a, leads.append ends⟩

namespace Session

variable {route : Route} {accounts : Accounts} {script : Script} {peer : Peer}

/-- The dealings of a session that goes on for ever are the first ones of a session that does not. -/
theorem passes_dealings {x : Dealing} (met : x ∈ dealings route accounts script peer) :
    ∃ more e, Passes accounts script (dealings route accounts script peer ++ more) e := by
  rw [dealings] at met ⊢
  split at met
  · rename_i c _
    obtain ⟨more, e, leads⟩ := c.leads_more (dialogue accounts script)
    exact ⟨more, e, passes_of_leads leads⟩
  · cases met

/-- A session writes when it has been greeted, and then what its script does. -/
theorem Passes.writes {deals first second : List Dealing} {e : Ending} {octets : Bytes}
    {answer : Except Setback Unit} (h : Passes accounts script deals e)
    (split : deals = first ++ ⟨.write octets, answer⟩ :: second) :
    ∃ greeting mid, greeting.code = 220 ∧ first = .got greeting :: mid ∧
      script.Writes accounts none mid octets := by
  cases h with
  | unanswered | unwelcome =>
    have met : ⟨.write octets, answer⟩ ∈ first ++ ⟨.write octets, answer⟩ :: second := by simp
    simp [← split] at met
  | @greeted greeting _ _ welcome plays =>
    obtain ⟨_, same⟩ | ⟨mid, rfl, played⟩ := List.cons_eq_append_iff.1 split
    · cases same
    obtain ⟨_, rfl⟩ | ⟨_, _, past⟩ := Script.split_cases played
    · exact ⟨greeting, mid, welcome, rfl, plays.writes rfl⟩
    · have met : ⟨.write octets, answer⟩ ∈ [Dealing.closed] := by simp [past]
      simp at met

/-- Whatever a session writes, its script yields. -/
theorem yields_of_wrote {pre post : List Event} {octets : Bytes}
    (wrote : (run route accounts script peer).history.filter Event.isOwn =
      pre ++ .wrote octets :: post) : script.Yields accounts pre octets := by
  have traced : Traced (dealings route accounts script peer) _ := traced_history
  rw [wrote] at traced
  obtain ⟨first, answer, second, split, traced⟩ := traced.wrote
  have met : ⟨.write octets, answer⟩ ∈ dealings route accounts script peer := by simp [split]
  obtain ⟨more, e, passes⟩ := passes_dealings met
  rw [split, List.append_assoc, List.cons_append] at passes
  obtain ⟨greeting, mid, welcome, rfl, writes⟩ := passes.writes rfl
  cases writes with
  | step passed writes =>
    simp only [Traced.got_iff, Traced.append_iff] at traced
    obtain ⟨_, rfl, told, part, rfl, told', part'⟩ := traced
    exact .step welcome passed.bodiless ⟨_, passed, told'⟩ (writes part part')

end Session

end FilterBench
