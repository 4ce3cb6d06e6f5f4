import FilterBench.Proofs.Session.Writing

/-!
# What an ending is attributed to

Whatever a session ends with, it is told of what was going on then (`Session.ending_attributed`): a fault
of connecting or greeting at the stage `any`, a fault of a step at the stage of the part that was being
carried out (`Step.Fails`), and a decision at the stage of the command whose reply was not accepted. The
steps before the last one have passed, and those after it have no influence: the session is the same
without them.
-/
namespace FilterBench
open Utf8 Turnout Session

/-- The stage at which a step that is one command is carried out, and at which the others begin. -/
def Step.stage : Step → Stage
  | .helo _ => .helo
  | .sender _ => .from
  | .recipient _ => .to
  | .header _ => .data
  | .startTls | .login _ | .reset | .body _ | .unknown _ => .any

/-- The codes that are accepted at a stage, where they are the same for all that is said there. -/
def Stage.accepts : Stage → List ℕ
  | .any => []
  | .helo | .from | .eom => [250]
  | .to => [250, 251]
  | .data => [354]

/-- A step fails with a setback, and in which part of it: the commands, then for a header the opening of
a stream and its content, for a body the content and the end mark. -/
inductive Step.Fails (accounts : Accounts) (i : Introduction) :
    Step → Stage → List Dealing → Setback → Prop
  | command {step : Step} {c : Command} {deals : List Dealing} {s : Setback} :
      step.command? accounts i = some c → c.turnout deals (.error s) →
      Fails accounts i step step.stage deals s
  | opening {content : Bytes} {deals : List Dealing} {s : Setback} :
      Turnout.command "DATA" [354] deals (.error s) → Fails accounts i (.header content) .data deals s
  | heading {content : Bytes} {deals : List Dealing} {s : Setback} :
      Turnout.command "DATA" [354] deals (.ok ()) → Fails accounts i (.header content) .any
        (deals ++ [⟨.write (({} : Stuffing).written content), .error s⟩]) s
  | streamless {content : Bytes} : Fails accounts i (.body content) .any [] .noStream
  | content {content : Bytes} {s : Setback} (stream : Stuffing) :
      Fails accounts i (.body content) .any [⟨.write (stream.written content), .error s⟩] s
  | mark {stream : Stuffing} {content : Bytes} {deals : List Dealing} {s : Setback} :
      asks (stream.endMark content) [250] deals (.error s) →
      Fails accounts i (.body content) .eom (.said (stream.written content) :: deals) s

/-- How a session ends at a step, or when there is none left. -/
inductive Concludes (accounts : Accounts) (i : Introduction) :
    Option Step → List Dealing → Ending → Prop
  | exhausted : Concludes accounts i none [] (.error (.session .eom
      { code := .incompleteInput, message := "incomplete input sequence" }))
  | unknown {kind : String} : Concludes accounts i (some (.unknown kind)) [] (.error (.session .any
      { code := .unknownStep, message := "unknown step " ++ kind }))
  | breaks {step : Step} {stage : Stage} {part : List Dealing} {s : Setback} {f : Fault} :
      step.Fails accounts i stage part s → s.thrown = .fault f →
      Concludes accounts i (some step) part (.error (.session stage f))
  | refused {step : Step} {stage : Stage} {octets : Bytes} {codes : List ℕ} {pre : List Dealing}
      {r : Reply} : step.Fails accounts i stage (pre ++ [.said octets, .got r]) (.refused r) →
      step.Asks accounts stage octets codes → r.code ∉ codes →
      Concludes accounts i (some step) (pre ++ [.said octets, .got r])
        (.ok { code := r.code, message := String.ofList r.split.2, stage := stage })
  | queued {stream : Stuffing} {content : Bytes} {first second : List Dealing} :
      asks (stream.endMark content) [250] first (.ok ()) → Leaves second →
      Concludes accounts i (some (.body content))
        (.said (stream.written content) :: (first ++ second)) (.ok .queued)

/-! ## One step -/

/-- All that is not a refusal is told as a fault. -/
theorem Setback.thrown_fault {s : Setback} (other : ∀ r, s ≠ .refused r) :
    ∃ f, s.thrown = .fault f := by
  cases s with
  | refused r => exact (other r rfl).elim
  | _ => exact ⟨_, rfl⟩

/-- The codes of a stage are those of all that is said there. -/
theorem Step.Asks.accepts_eq {accounts : Accounts} {step : Step} {stage : Stage} {octets : Bytes}
    {codes : List ℕ} (h : step.Asks accounts stage octets codes) :
    ∀ n ∈ stage.accepts, n ∈ codes := by
  have only : ∀ n ∈ [250], n ∈ [250] := fun _ mem => mem
  cases h with
  | @introduction _ _ name line introduces _ =>
    cases step with
    | sender address =>
      cases introduces
      exact only
    | startTls | login _ | reset =>
      cases introduces
      intro n mem
      cases mem
    | _ => cases introduces
  | helo | sender | body | recipient | header => exact fun _ mem => mem
  | startTls | login | reset =>
    intro n mem
    cases mem

namespace Step

variable {accounts : Accounts} {i : Introduction} {step : Step} {stage : Stage} {part : List Dealing}
  {s : Setback}

theorem stage_of_command {c : Command} (single : step.command? accounts i = some c) :
    c.stage = step.stage := by
  cases step with
  | header | body | unknown => cases single
  | _ =>
    cases single
    rfl

/-- A refusal has got a reply that the step does not accept. -/
theorem Fails.refused {r : Reply} (sound : ∀ x ∈ part, x.Sound)
    (h : step.Fails accounts i stage part (.refused r)) : ∃ pre octets codes,
      part = pre ++ [.said octets, .got r] ∧ step.Asks accounts stage octets codes ∧
        r.code ∉ codes := by
  -- No channel refuses a reply, so that it was not a write that failed.
  have unwritten : ∀ octets, ⟨.write octets, .error (.refused r)⟩ ∉ part :=
    fun octets mem => sound _ mem _ rfl
  cases h with
  | command single failed =>
    rw [← stage_of_command single]
    exact refuses_command single sound failed
  | opening asked => exact refuses_asks (Q := (Step.header _).Asks accounts .data) .header sound asked
  | heading _ => exact (unwritten _ (List.mem_append_right _ List.mem_cons_self)).elim
  | content stream => exact (unwritten _ List.mem_cons_self).elim
  | @mark stream content deals _ asked =>
    have later : ∀ x ∈ deals, x.Sound := fun x mem => sound x (List.mem_cons_of_mem _ mem)
    obtain ⟨pre, octets, codes, rfl, asks, other⟩ :=
      refuses_asks (Q := (Step.body content).Asks accounts .eom) .body later asked
    exact ⟨_ :: pre, octets, codes, rfl, asks, other⟩

/-- A step that fails ends the session with a fault, or with the decision that is the refusal. -/
theorem Fails.concludes (sound : ∀ x ∈ part, x.Sound) (h : step.Fails accounts i stage part s) :
    Concludes accounts i (some step) part (endingOf stage s) := by
  by_cases refused : ∃ r, s = .refused r
  · obtain ⟨r, rfl⟩ := refused
    obtain ⟨pre, octets, codes, rfl, asks, other⟩ := h.refused sound
    exact .refused h asks other
  · have other : ∀ r, s ≠ .refused r := fun r same => refused ⟨r, same⟩
    obtain ⟨f, thrown⟩ := s.thrown_fault other
    have told : endingOf stage s = .error (.session stage f) := by
      have ending : endingOf stage s = .error (s.thrown.inSession stage) := by
        cases s with
        | refused r => exact (other r rfl).elim
        | _ => rfl
      rw [ending, thrown]
      rfl
    rw [told]
    exact .breaks h thrown

end Step

/-! ## A whole script -/

namespace Script

/-- A script ends at a step when those before it have passed, and so it does if no steps follow. -/
inductive Ends (accounts : Accounts) (i : Introduction) (stream : Option Stuffing) :
    Script → List Dealing → Ending → Prop
  | ended {before after : Script} {last : Option Step} {told part : List Dealing} {j : Introduction}
      {e : Ending} : (last = none → after = []) → Passed accounts i before told j →
      Concludes accounts j last part e →
      Plays accounts i stream (before ++ last.toList) (told ++ part) e →
      Ends accounts i stream (before ++ last.toList ++ after) (told ++ part) e

namespace Ends

variable {accounts : Accounts} {i : Introduction} {stream stream' : Option Stuffing} {step : Step}
  {rest : Script} {first second part : List Dealing} {e : Ending}

/-- It ends at the first step. -/
theorem now (h : Concludes accounts i (some step) part e)
    (plays : Plays accounts i stream [step] part e) :
    Ends accounts i stream (step :: rest) part e := by
  show Ends accounts i stream ([] ++ (some step).toList ++ rest) ([] ++ part) e
  refine .ended ?_ (.nil i) h plays
  intro none
  cases none

theorem after_command {c : Command} (single : step.command? accounts i = some c)
    (succeeded : c.turnout first (.ok ())) (h : Ends accounts c.name stream rest second e) :
    Ends accounts i stream (step :: rest) (first ++ second) e := by
  cases h with
  | ended final passed concludes plays =>
    rw [← List.append_assoc]
    refine .ended final (.command single succeeded passed) concludes ?_
    rw [List.append_assoc]
    exact .goesOn single succeeded plays

theorem after_header {content : Bytes} (succeeded : Turnout.command "DATA" [354] first (.ok ()))
    (h : Ends accounts i (some (({} : Stuffing).encode content).1) rest second e) :
    Ends accounts i stream (.header content :: rest)
      (first ++ .said (({} : Stuffing).written content) :: second) e := by
  cases h with
  | ended final passed concludes plays =>
    rw [← List.cons_append, ← List.cons_append, ← List.cons_append, ← List.append_assoc]
    refine .ended final (.header succeeded passed) concludes ?_
    rw [List.append_assoc]
    exact .opened succeeded plays

end Ends

variable {accounts : Accounts} {i : Introduction} {stream : Option Stuffing} {script : Script}
  {deals : List Dealing} {e : Ending}

theorem Plays.ends (h : script.Plays accounts i stream deals e) (sound : ∀ x ∈ deals, x.Sound) :
    script.Ends accounts i stream deals e := by
  induction h with
  | @exhausted i =>
    show Ends accounts i _ ([] ++ (none : Option Step).toList ++ []) ([] ++ []) _
    exact .ended (fun _ => rfl) (.nil i) .exhausted .exhausted
  | unknown => exact .now .unknown .unknown
  | goesOn single succeeded _ ih =>
    exact (ih (List.forall_mem_append.1 sound).2).after_command single succeeded
  | fails single failed =>
    have fails := Step.Fails.command single failed
    rw [← Step.stage_of_command single] at fails
    exact .now (fails.concludes sound) (.fails single failed)
  | unopened asked => exact .now ((Step.Fails.opening asked).concludes sound) (.unopened asked)
  | untold asked => exact .now ((Step.Fails.heading asked).concludes sound) (.untold asked)
  | opened asked _ ih =>
    obtain ⟨-, sound⟩ := List.forall_mem_append.1 sound
    exact (ih (List.forall_mem_cons.1 sound).2).after_header asked
  | streamless => exact .now (Step.Fails.streamless.concludes sound) .streamless
  | @unfilled i stream => exact .now ((Step.Fails.content stream).concludes sound) .unfilled
  | unaccepted asked => exact .now ((Step.Fails.mark asked).concludes sound) (.unaccepted asked)
  | accepted asked leaves => exact .now (.queued asked leaves) (.accepted asked leaves)

end Script

/-! ## A whole session -/

namespace Session

/-- What the ending of a session is attributed to. -/
inductive Attributed (route : Route) (accounts : Accounts) (script : Script) (peer : Peer) :
    Ending → Prop
  | unreached {after : ℕ} {s : Setback} {f : Fault} :
      peer.connect route.host route.port route.timeout = .failed after s → s.thrown = .fault f →
      run route accounts [] peer = run route accounts script peer →
      Attributed route accounts script peer (.error (.session .any f))
  | unanswered {s : Setback} {f : Fault} :
      dealings route accounts script peer = [⟨.await, .error s⟩, .closed] → s.thrown = .fault f →
      run route accounts [] peer = run route accounts script peer →
      Attributed route accounts script peer (.error (.session .any f))
  | unwelcome {greeting : Reply} : greeting.code ≠ 220 →
      dealings route accounts script peer = [.got greeting, .closed] →
      run route accounts [] peer = run route accounts script peer →
      Attributed route accounts script peer (.error (.session .any
        { code := .smtpProtocol, message := String.ofList greeting.split.2
          details := some [("replyCode", .number (.ofInt greeting.code))] }))
  | concluded {greeting : Reply} {before after : Script} {last : Option Step}
      {told part : List Dealing} {i : Introduction} {e : Ending} : greeting.code = 220 →
      script = before ++ last.toList ++ after → (last = none → after = []) →
      before.Passed accounts none told i → Concludes accounts i last part e →
      dealings route accounts script peer = .got greeting :: (told ++ part ++ [.closed]) →
      run route accounts (before ++ last.toList) peer = run route accounts script peer →
      Attributed route accounts script peer e

variable {route : Route} {accounts : Accounts} {script script' : Script} {peer : Peer} {e : Ending}

/-- A session that another script comes to through the same dealings is the same. -/
theorem run_eq_of_passes {c c' : Connection}
    (connects : peer.connect route.host route.port route.timeout = .connected c)
    (ran : c.run (dialogue accounts script) = (c', some e))
    (passes : Passes accounts script' (c.dealings (dialogue accounts script)) e) :
    run route accounts script' peer = run route accounts script peer := by
  rw [run_connected connects, run_connected connects, ran,
    Connection.run_of_dealings_eq ran (leads_of_passes passes)]

theorem attributed (ends : (run route accounts script peer).ending = some e) :
    Attributed route accounts script peer e := by
  rcases connects : peer.connect route.host route.port route.timeout with c | ⟨after, s⟩ | _
  · rw [run_connected connects] at ends
    rcases ran : c.run (dialogue accounts script) with ⟨c', _⟩
    rw [ran] at ends
    obtain rfl : _ = some e := ends
    have passes := passes_of_leads (Connection.leads_dealings ran)
    have cut : ∀ {script'}, Passes accounts script' (c.dealings (dialogue accounts script)) e →
        run route accounts script' peer = run route accounts script peer :=
      fun passes => run_eq_of_passes connects ran passes
    have sound : ∀ x ∈ dealings route accounts script peer, x.Sound := sound_dealings
    rw [← dealings_connected connects] at passes cut
    generalize deals : dealings route accounts script peer = these at passes cut sound
    cases passes with
    | unanswered s =>
      have own : s.OfChannel := sound _ List.mem_cons_self s rfl
      obtain ⟨f, thrown⟩ : ∃ f, s.thrown = .fault f := by
        apply Setback.thrown_fault
        intro r same
        rw [same] at own
        exact own
      have same : run route accounts [] peer = _ := cut (.unanswered s)
      rw [thrown]
      exact .unanswered deals thrown same
    | unwelcome other => exact .unwelcome other deals (cut (.unwelcome other))
    | @greeted greeting played _ fine plays =>
      have sound : ∀ x ∈ played, x.Sound := fun x mem => sound x (by simp [mem])
      cases plays.ends sound with
      | ended final passed concludes plays =>
        exact .concluded fine rfl final passed concludes deals (cut (.greeted fine plays))
  · have attempt : run route accounts script peer = run route accounts [] peer := by
      rw [run, run, connects]
    rw [run, connects] at ends
    cases ends
    obtain ⟨cause, -, rfl⟩ := Connection.failed_eq connects
    exact .unreached connects rfl attempt.symm
  · rw [run, connects] at ends
    cases ends

/-- Every ending of a session, with any script and any peer, is attributed to what was going on, and the
code of a decision is none that is accepted at its stage, unless the message was queued. -/
theorem ending_attributed (ends : (run route accounts script peer).ending = some e) :
    Attributed route accounts script peer e ∧
      ∀ d, e = .ok d → d ≠ .queued → ∀ n ∈ d.stage.accepts, d.code ≠ (n : ℤ) := by
  have attributed := attributed ends
  refine ⟨attributed, ?_⟩
  intro d decided other n mem
  cases attributed with
  | unreached | unanswered | unwelcome => cases decided
  | concluded _ _ _ _ concludes =>
    cases concludes with
    | exhausted | unknown | breaks => cases decided
    | queued =>
      cases decided
      exact (other rfl).elim
    | refused _ asks refused =>
      cases decided
      intro same
      apply refused
      have code := Int.ofNat.inj same
      rw [code]
      exact asks.accepts_eq n mem

/-- A server that refuses the sender. -/
def sternPeer : Peer where
  turns :=
    [[.sends (encode "220 hi\r\n")], [.sends (encode "250 ok\r\n")], [.sends (encode "550 no\r\n")]]

theorem ending_attributed_stern :
    (run {} {} [.helo "me", .sender "a", .recipient "b"] sternPeer).ending =
      some (.ok ⟨550, "no", .from⟩) ∧
    Attributed {} {} [.helo "me", .sender "a", .recipient "b"] sternPeer (.ok ⟨550, "no", .from⟩) ∧
    ∀ n ∈ Stage.from.accepts, (550 : ℤ) ≠ n := by
  have ends : (run {} {} [.helo "me", .sender "a", .recipient "b"] sternPeer).ending =
      some (.ok ⟨550, "no", .from⟩) := decision_of_toOption (by decide +kernel)
  obtain ⟨attributed, other⟩ := ending_attributed ends
  exact ⟨ends, attributed, other _ rfl (by decide)⟩

end Session

end FilterBench
