import FilterBench.Proofs.Session.Turnout

/-!
# How scripts play out

A script plays command after command until one of them fails, the steps are used up, or the
message is accepted; `Script.Plays` says through which dealings, and with which ending. The
message is accepted in one way only (`Script.Accepted`): every command before has got a reply that
it accepts, and the end mark one with the code 250. A whole session waits for the greeting first and
closes the connection at last (`Session.Passes`).
-/
namespace FilterBench
open Utf8 Turnout Session

namespace Dealing

abbrev closed : Dealing := ⟨.close, ()⟩

abbrev noted (text : String) : Dealing := ⟨.note text, ()⟩

end Dealing

/-- A step that is one command: the stage at which it is judged, how it turns out, and the name
that the client has given then. -/
structure Command where
  stage : Stage
  turnout : Turnout
  name : Introduction

def Step.command? (accounts : Accounts) (i : Introduction) : Step → Option Command
  | .helo name => some ⟨.helo, greets name, some name⟩
  | .startTls => some ⟨.any, startsTls i, some (introduced i)⟩
  | .login user =>
    let m := Plain.mechanism ⟨"", user, accounts.passwordFor user⟩
    some ⟨.any, (introduces i).andThen (logsIn m), some (introduced i)⟩
  | .sender address =>
    let line := "MAIL FROM:<" ++ address ++ ">"
    some ⟨.from, (introduces i).andThen (command line [250]), some (introduced i)⟩
  | .recipient address => some ⟨.to, command ("RCPT TO:<" ++ address ++ ">") [250, 251], i⟩
  | .reset => some ⟨.any, (introduces i).andThen (command "RSET" [250]), some (introduced i)⟩
  | .header _ | .body _ | .unknown _ => none

/-- Taking leave gives the connection up, and may leave a remark. -/
inductive Leaves : List Dealing → Prop
  | answered {deals : List Dealing} :
      command "QUIT" [221] deals (.ok ()) → Leaves (deals ++ [.closed])
  | remarked {deals : List Dealing} {s : Setback} : command "QUIT" [221] deals (.error s) →
      Leaves (deals ++ [.closed, .noted ("# QUIT after queued message failed: " ++ s.message ++ "\n")])

/-- The content of a stream, and what ends it. -/
def Stuffing.written (s : Stuffing) (content : Bytes) : Bytes := (s.encode content).2

def Stuffing.endMark (s : Stuffing) (content : Bytes) : Bytes := (s.encode content).1.finish.2

namespace Script

/-- The message of a script is accepted, up to the reply that says so. -/
inductive Accepted (accounts : Accounts) :
    Introduction → Option Stuffing → Script → List Dealing → Prop
  | command {i : Introduction} {stream : Option Stuffing} {step : Step} {rest : Script}
      {c : Command} {first second : List Dealing} : step.command? accounts i = some c →
      c.turnout first (.ok ()) → Accepted accounts c.name stream rest second →
      Accepted accounts i stream (step :: rest) (first ++ second)
  | header {i : Introduction} {stream : Option Stuffing} {content : Bytes} {rest : Script}
      {first second : List Dealing} : Turnout.command "DATA" [354] first (.ok ()) →
      Accepted accounts i (some (({} : Stuffing).encode content).1) rest second →
      Accepted accounts i stream (.header content :: rest)
        (first ++ .said (({} : Stuffing).written content) :: second)
  | body {i : Introduction} {s : Stuffing} {content : Bytes} {rest : Script} {r : Reply} :
      r.code = 250 → Accepted accounts i (some s) (.body content :: rest)
        [.said (s.written content), .said (s.endMark content), .got r]

inductive Plays (accounts : Accounts) :
    Introduction → Option Stuffing → Script → List Dealing → Ending → Prop
  | exhausted {i : Introduction} {stream : Option Stuffing} : Plays accounts i stream [] []
      (.error (.session .eom
        { code := .incompleteInput, message := "incomplete input sequence" }))
  | unknown {i : Introduction} {stream : Option Stuffing} {kind : String} {rest : Script} :
      Plays accounts i stream (.unknown kind :: rest) []
        (.error (.session .any { code := .unknownStep, message := "unknown step " ++ kind }))
  | goesOn {i : Introduction} {stream : Option Stuffing} {step : Step} {rest : Script} {c : Command}
      {first second : List Dealing} {e : Ending} : step.command? accounts i = some c →
      c.turnout first (.ok ()) → Plays accounts c.name stream rest second e →
      Plays accounts i stream (step :: rest) (first ++ second) e
  | fails {i : Introduction} {stream : Option Stuffing} {step : Step} {rest : Script} {c : Command}
      {deals : List Dealing} {s : Setback} : step.command? accounts i = some c →
      c.turnout deals (.error s) → Plays accounts i stream (step :: rest) deals (endingOf c.stage s)
  | unopened {i : Introduction} {stream : Option Stuffing} {content : Bytes} {rest : Script}
      {deals : List Dealing} {s : Setback} : Turnout.command "DATA" [354] deals (.error s) →
      Plays accounts i stream (.header content :: rest) deals (endingOf .data s)
  | untold {i : Introduction} {stream : Option Stuffing} {content : Bytes} {rest : Script}
      {deals : List Dealing} {s : Setback} : Turnout.command "DATA" [354] deals (.ok ()) →
      Plays accounts i stream (.header content :: rest)
        (deals ++ [⟨.write (({} : Stuffing).written content), .error s⟩]) (endingOf .any s)
  | opened {i : Introduction} {stream : Option Stuffing} {content : Bytes} {rest : Script}
      {first second : List Dealing} {e : Ending} : Turnout.command "DATA" [354] first (.ok ()) →
      Plays accounts i (some (({} : Stuffing).encode content).1) rest second e →
      Plays accounts i stream (.header content :: rest)
        (first ++ .said (({} : Stuffing).written content) :: second) e
  | streamless {i : Introduction} {content : Bytes} {rest : Script} :
      Plays accounts i none (.body content :: rest) [] (endingOf .any .noStream)
  | unfilled {i : Introduction} {stream : Stuffing} {content : Bytes} {rest : Script} {s : Setback} :
      Plays accounts i (some stream) (.body content :: rest)
        [⟨.write (stream.written content), .error s⟩] (endingOf .any s)
  | unaccepted {i : Introduction} {stream : Stuffing} {content : Bytes} {rest : Script}
      {deals : List Dealing} {s : Setback} : asks (stream.endMark content) [250] deals (.error s) →
      Plays accounts i (some stream) (.body content :: rest)
        (.said (stream.written content) :: deals) (endingOf .eom s)
  | accepted {i : Introduction} {stream : Stuffing} {content : Bytes} {rest : Script}
      {first second : List Dealing} : asks (stream.endMark content) [250] first (.ok ()) →
      Leaves second → Plays accounts i (some stream) (.body content :: rest)
        (.said (stream.written content) :: (first ++ second)) (.ok .queued)

end Script

namespace Session

variable {accounts : Accounts} {i i' j : Introduction} {stage : Stage} {deals : List Dealing}

/-- A part of a step ends the session, or the session goes on after it. -/
theorem comes_during {x : Exchange Unit} {P : Turnout} (turns : Turns x i j P)
    {k : Unit → Play Decision} {result : Except Ending Decision} :
    Comes (during stage x >>= k) i deals result i' ↔
      (∃ s, P deals (.error s) ∧ result = .error (endingOf stage s) ∧ i' = j) ∨
        ∃ first second, deals = first ++ second ∧ P first (.ok ()) ∧
          Comes (k ()) j second result i' := by
  have came : ∀ {deals : List Dealing} {r : Except Ending Unit} {i' : Introduction},
      Comes (during stage x) i deals r i' ↔
        ∃ r', r = r'.mapError (endingOf stage) ∧ P deals r' ∧ i' = j := by
    intro deals r i'
    rw [during, comes_adapt]
    constructor
    · rintro ⟨r', rfl, ends⟩
      exact ⟨r', rfl, (turns deals r' i').1 ends⟩
    · rintro ⟨r', rfl, turnout⟩
      exact ⟨r', rfl, (turns deals r' i').2 turnout⟩
  rw [comes_bind]
  simp only [came]
  constructor
  · rintro (⟨e, rfl, r, same, turnout, rfl⟩ | ⟨first, _, _, second, rfl, ⟨r, same, turnout, rfl⟩, rest⟩)
    · cases r with
      | ok _ => cases same
      | error s =>
        cases same
        exact .inl ⟨s, turnout, rfl, rfl⟩
    · cases r with
      | ok _ => exact .inr ⟨first, second, rfl, turnout, rest⟩
      | error s => cases same
  · rintro (⟨s, turnout, rfl, rfl⟩ | ⟨first, second, rfl, turnout, rest⟩)
    · exact .inl ⟨_, rfl, .error s, rfl, turnout, rfl⟩
    · exact .inr ⟨first, (), j, second, rfl, ⟨.ok (), rfl, turnout, rfl⟩, rest⟩

/-- Such a step is played as its command, and then the rest is. -/
theorem playSteps_command {step : Step} {c : Command} (h : step.command? accounts i = some c) :
    ∃ x, Turns x i c.name c.turnout ∧ ∀ rest stream, playSteps accounts (step :: rest) stream =
      during c.stage x >>= fun _ => playSteps accounts rest stream := by
  cases step with
  | helo name =>
    cases h
    exact ⟨Client.hello name, Client.turns_hello name i, fun _ _ => rfl⟩
  | startTls =>
    cases h
    exact ⟨Client.startTls, Client.turns_startTls i, fun _ _ => rfl⟩
  | login user =>
    cases h
    exact ⟨_, Client.turns_login _ i, fun _ _ => rfl⟩
  | sender address =>
    cases h
    exact ⟨Client.mail address, Client.turns_introduced i, fun _ _ => rfl⟩
  | recipient address =>
    cases h
    exact ⟨Client.recipient address, Client.turns_recipient address i, fun _ _ => rfl⟩
  | reset =>
    cases h
    exact ⟨Client.reset, Client.turns_introduced i, fun _ _ => rfl⟩
  | header content => cases h
  | body content => cases h
  | unknown kind => cases h

/-- A step that is one command ends the session, or the rest is played for the name that the
client has given then. -/
theorem comes_command {step : Step} {c : Command} (h : step.command? accounts i = some c)
    {rest : Script} {stream : Option Stuffing} {result : Except Ending Decision} :
    Comes (playSteps accounts (step :: rest) stream) i deals result i' ↔
      (∃ s, c.turnout deals (.error s) ∧ result = .error (endingOf c.stage s) ∧ i' = c.name) ∨
        ∃ first second, deals = first ++ second ∧ c.turnout first (.ok ()) ∧
          Comes (playSteps accounts rest stream) c.name second result i' := by
  obtain ⟨x, turns, played⟩ := playSteps_command h
  rw [played]
  exact comes_during turns

theorem turns_content (octets : Bytes) (i : Introduction) :
    Turns (Client.write octets) i i fun deals result => deals = [⟨.write octets, result⟩] :=
  fun _ _ _ => Client.comes_write

/-- Writing content ends the session, or the session goes on with the encoder that has moved on. -/
theorem comes_content {stream : Stuffing} {content : Bytes} {k : Stuffing → Play Decision}
    {result : Except Ending Decision} :
    Comes (writeContent (some stream) content >>= k) i deals result i' ↔
      (∃ s, deals = [⟨.write (stream.written content), .error s⟩] ∧
        result = .error (endingOf .any s) ∧ i' = i) ∨
      ∃ second, deals = .said (stream.written content) :: second ∧
        Comes (k (stream.encode content).1) i second result i' := by
  have parts : writeContent (some stream) content >>= k =
      during .any (Client.write (stream.written content)) >>= fun _ => k (stream.encode content).1 :=
    bind_assoc _ _ _
  rw [parts, comes_during (turns_content _ i)]
  constructor
  · rintro (failed | ⟨_, second, rfl, rfl, rest⟩)
    · exact .inl failed
    · exact .inr ⟨second, rfl, rest⟩
  · rintro (failed | ⟨second, rfl, rest⟩)
    · exact .inl failed
    · exact .inr ⟨[_], second, rfl, rfl, rest⟩

/-- A header opens a stream of its own. -/
theorem comes_header {content : Bytes} {rest : Script} {stream : Option Stuffing}
    {result : Except Ending Decision} :
    Comes (playSteps accounts (.header content :: rest) stream) i deals result i' ↔
      (∃ s, command "DATA" [354] deals (.error s) ∧ result = .error (endingOf .data s) ∧ i' = i) ∨
        ∃ first second, deals = first ++ second ∧ command "DATA" [354] first (.ok ()) ∧
          ((∃ s, second = [⟨.write (({} : Stuffing).written content), .error s⟩] ∧
            result = .error (endingOf .any s) ∧ i' = i) ∨
          ∃ third, second = .said (({} : Stuffing).written content) :: third ∧
            Comes (playSteps accounts rest (some (({} : Stuffing).encode content).1)) i third result
              i') := by
  have turns : Turns Client.data i i (command "DATA" [354]) := Client.turns_command "DATA" 354 i
  rw [playSteps, comes_during turns]
  simp only [comes_content]

end Session

namespace Client

variable {i i' : Introduction} {deals : List Dealing}

theorem comes_close {result : Except Setback Unit} :
    Comes close i deals result i' ↔ deals = [.closed] ∧ result = .ok () ∧ i' = i := by
  rw [comes_request (q := .close) (f := fun _ => .ok ()) rfl]
  constructor
  · rintro ⟨_, rfl, rfl, rfl⟩
    exact ⟨rfl, rfl, rfl⟩
  · rintro ⟨rfl, rfl, rfl⟩
    exact ⟨(), rfl, rfl, rfl⟩

/-- The connection is given up whatever is answered. -/
theorem comes_quit {result : Except Setback Unit} : Comes quit i deals result i' ↔
    ∃ first, deals = first ++ [Dealing.closed] ∧ Turnout.command "QUIT" [221] first result ∧
      i' = i := by
  have turns := turns_command "QUIT" 221 i
  rw [quit, comes_bind]
  simp only [comes_tryCatch, comes_bind, comes_close, comes_throw]
  constructor
  · rintro (⟨s, rfl, given⟩ | ⟨first, _, j, second, rfl, given, rfl, rfl, rfl⟩)
    · rcases given with ⟨_, same, _⟩ | ⟨first, s', j, second, rfl, asked, given⟩
      · cases same
      · obtain ⟨turnout, rfl⟩ := (turns _ _ _).1 asked
        rcases given with ⟨_, _, _, same, _⟩ | ⟨_, _, _, _, rfl, ⟨rfl, _, rfl⟩, rfl, same, rfl⟩
        · cases same
        · cases same
          exact ⟨first, rfl, turnout, rfl⟩
    · rcases given with ⟨_, _, asked⟩ | ⟨_, s', k, _, rfl, _, given⟩
      · obtain ⟨turnout, rfl⟩ := (turns _ _ _).1 asked
        exact ⟨first, rfl, turnout, rfl⟩
      · rcases given with ⟨_, same, _⟩ | ⟨_, _, _, _, _, _, _, same, _⟩
        · cases same
        · cases same
  · rintro ⟨first, rfl, turnout, rfl⟩
    have asked := (turns first result i').2 ⟨turnout, rfl⟩
    cases result with
    | ok _ => exact .inr ⟨first, (), i', _, rfl, .inl ⟨(), trivial, asked⟩, rfl, rfl, rfl⟩
    | error s =>
      refine .inl ⟨s, rfl, .inr ⟨first, s, i', _, rfl, asked, .inr ?_⟩⟩
      exact ⟨[.closed], (), i', [], rfl, ⟨rfl, trivial, rfl⟩, rfl, rfl, rfl⟩

end Client

namespace Session

variable {accounts : Accounts} {i i' : Introduction} {deals : List Dealing}

/-- Taking leave never fails. -/
theorem comes_takeLeave {result : Except Setback Unit} :
    Comes takeLeave i deals result i' ↔ Leaves deals ∧ result = .ok () ∧ i' = i := by
  have noted : ∀ {text : String} {deals : List Dealing} {result : Except Setback Unit}
      {j : Introduction},
      Comes (liftM (Dialogue.request (.note text)) : Exchange Unit) i deals result j ↔
        deals = [.noted text] ∧ result = .ok () ∧ j = i := by
    intro text deals result j
    rw [Client.comes_request (q := .note text) (f := fun _ => .ok ()) rfl]
    constructor
    · rintro ⟨_, rfl, rfl, rfl⟩
      exact ⟨rfl, rfl, rfl⟩
    · rintro ⟨rfl, rfl, rfl⟩
      exact ⟨(), rfl, rfl, rfl⟩
  rw [takeLeave, comes_tryCatch]
  simp only [Client.comes_quit]
  constructor
  · rintro (⟨_, rfl, first, rfl, turnout, rfl⟩ | ⟨_, s, j, second, rfl, ⟨first, rfl, turnout, rfl⟩, rest⟩)
    · exact ⟨.answered turnout, rfl, rfl⟩
    · obtain ⟨rfl, rfl, rfl⟩ := noted.1 rest
      rw [List.append_assoc]
      exact ⟨.remarked turnout, rfl, rfl⟩
  · rintro ⟨leaves, rfl, rfl⟩
    cases leaves with
    | answered turnout => exact .inl ⟨(), rfl, _, rfl, turnout, rfl⟩
    | @remarked first s turnout =>
      refine .inr ⟨first ++ [.closed], s, i', _, ?_, ⟨first, rfl, turnout, rfl⟩,
        noted.2 ⟨rfl, rfl, rfl⟩⟩
      rw [List.append_assoc]
      rfl

/-- What is left of a play once the message was accepted. -/
def leaving : Play Decision := during .any takeLeave >>= fun _ => pure .queued

theorem comes_leaving {result : Except Ending Decision} :
    Comes leaving i deals result i' ↔ Leaves deals ∧ result = .ok .queued ∧ i' = i := by
  have turns : Turns takeLeave i i fun deals result => Leaves deals ∧ result = .ok () := by
    intro deals result i'
    rw [comes_takeLeave, and_assoc]
  rw [leaving, comes_during turns]
  simp only [comes_pure]
  constructor
  · rintro (⟨s, ⟨_, same⟩, _⟩ | ⟨first, _, rfl, ⟨leaves, _⟩, rfl, rfl, rfl⟩)
    · cases same
    · rw [List.append_nil]
      exact ⟨leaves, rfl, rfl⟩
  · rintro ⟨leaves, rfl, rfl⟩
    exact .inr ⟨deals, [], (List.append_nil _).symm, ⟨leaves, trivial⟩, rfl, rfl, rfl⟩

theorem comes_body {stream : Stuffing} {content : Bytes} {rest : Script}
    {result : Except Ending Decision} :
    Comes (playSteps accounts (.body content :: rest) (some stream)) i deals result i' ↔
      (∃ s, deals = [⟨.write (stream.written content), .error s⟩] ∧
        result = .error (endingOf .any s) ∧ i' = i) ∨
      ∃ second, deals = .said (stream.written content) :: second ∧
        ((∃ s, asks (stream.endMark content) [250] second (.error s) ∧
          result = .error (endingOf .eom s) ∧ i' = i) ∨
        ∃ third fourth, second = third ++ fourth ∧
          asks (stream.endMark content) [250] third (.ok ()) ∧
          Comes leaving i fourth result i') := by
  have parts : playSteps accounts (.body content :: rest) (some stream) =
      writeContent (some stream) content >>= fun s =>
        during .eom (Client.endData s.finish.2) >>= fun _ => leaving := rfl
  rw [parts, comes_content]
  have turns := Client.turns_endData (stream.endMark content) i
  exact or_congr_right (exists_congr fun second => and_congr_right fun _ => comes_during turns)

theorem plays_of_comes {script : Script} {stream : Option Stuffing} {result : Except Ending Decision}
    (h : Comes (playSteps accounts script stream) i deals result i') :
    script.Plays accounts i stream deals (ending result) := by
  induction script generalizing i stream deals with
  | nil =>
    obtain ⟨rfl, rfl, rfl⟩ := comes_throw.1 h
    exact .exhausted
  | cons step rest ih =>
    rcases single : step.command? accounts i with _ | c
    · cases step with
      | header content =>
        obtain ⟨s, asked, rfl, rfl⟩ | ⟨first, _, rfl, asked, rest⟩ := comes_header.1 h
        · exact .unopened asked
        · obtain ⟨s, rfl, rfl, rfl⟩ | ⟨third, rfl, played⟩ := rest
          · exact .untold asked
          · exact .opened asked (ih played)
      | body content =>
        cases stream with
        | none =>
          obtain ⟨rfl, rfl, rfl⟩ := comes_throw.1 h
          exact .streamless
        | some stream =>
          obtain ⟨s, rfl, rfl, rfl⟩ | ⟨_, rfl, rest⟩ := comes_body.1 h
          · exact .unfilled
          · obtain ⟨s, asked, rfl, rfl⟩ | ⟨third, fourth, rfl, asked, left⟩ := rest
            · exact .unaccepted asked
            · obtain ⟨leaves, rfl, rfl⟩ := comes_leaving.1 left
              exact .accepted asked leaves
      | unknown kind =>
        obtain ⟨rfl, rfl, rfl⟩ := comes_throw.1 h
        exact .unknown
      | _ => cases single
    · obtain ⟨s, turnout, rfl, rfl⟩ | ⟨first, second, rfl, turnout, played⟩ :=
        (comes_command single).1 h
      · exact .fails single turnout
      · exact .goesOn single turnout (ih played)

theorem comes_of_plays {script : Script} {stream : Option Stuffing} {e : Ending}
    (h : script.Plays accounts i stream deals e) : ∃ result j,
      Comes (playSteps accounts script stream) i deals result j ∧ ending result = e := by
  induction h with
  | @exhausted i => exact ⟨_, i, comes_throw.2 ⟨rfl, rfl, rfl⟩, rfl⟩
  | @unknown i => exact ⟨_, i, comes_throw.2 ⟨rfl, rfl, rfl⟩, rfl⟩
  | goesOn single succeeded _ ih =>
    obtain ⟨result, j, comes, ends⟩ := ih
    exact ⟨result, j, (comes_command single).2 (.inr ⟨_, _, rfl, succeeded, comes⟩), ends⟩
  | @fails i _ _ _ c _ s single failed =>
    exact ⟨_, c.name, (comes_command single).2 (.inl ⟨s, failed, rfl, rfl⟩), rfl⟩
  | @unopened i _ _ _ _ s asked => exact ⟨_, i, comes_header.2 (.inl ⟨s, asked, rfl, rfl⟩), rfl⟩
  | @untold i _ _ _ _ s asked =>
    exact ⟨_, i, comes_header.2 (.inr ⟨_, _, rfl, asked, .inl ⟨s, rfl, rfl, rfl⟩⟩), rfl⟩
  | opened asked _ ih =>
    obtain ⟨result, j, comes, ends⟩ := ih
    exact ⟨result, j, comes_header.2 (.inr ⟨_, _, rfl, asked, .inr ⟨_, rfl, comes⟩⟩), ends⟩
  | @streamless i => exact ⟨_, i, comes_throw.2 ⟨rfl, rfl, rfl⟩, rfl⟩
  | @unfilled i _ _ _ s => exact ⟨_, i, comes_body.2 (.inl ⟨s, rfl, rfl, rfl⟩), rfl⟩
  | @unaccepted i _ _ _ _ s asked =>
    exact ⟨_, i, comes_body.2 (.inr ⟨_, rfl, .inl ⟨s, asked, rfl, rfl⟩⟩), rfl⟩
  | @accepted i _ _ _ _ _ asked leaves =>
    have left : Comes leaving i _ (.ok .queued) i := comes_leaving.2 ⟨leaves, rfl, rfl⟩
    exact ⟨_, i, comes_body.2 (.inr ⟨_, rfl, .inr ⟨_, _, rfl, asked, left⟩⟩), rfl⟩

theorem comes_written (s : Stuffing) (content : Bytes) (i : Introduction) :
    Comes (writeContent (some s) content) i [.said (s.written content)] (.ok (s.encode content).1) i :=
  .step (q := .write (s.written content)) (Except.ok ()) (.here _)

/-- Once the message was accepted, only taking leave is left. -/
theorem leads_of_accepted {script : Script} {stream : Option Stuffing}
    (h : script.Accepted accounts i stream deals) :
    ∃ j, Leads ((playSteps accounts script stream).run.run i) deals (leaving.run.run j) := by
  induction h with
  | @command i stream step rest c first second single turnout _ ih =>
    obtain ⟨x, turns, played⟩ := playSteps_command single
    obtain ⟨j, leads⟩ := ih
    have came : Comes (during c.stage x) i first (.ok ()) c.name :=
      comes_adapt.2 ⟨.ok (), rfl, (turns _ _ _).2 ⟨turnout, rfl⟩⟩
    rw [played]
    exact ⟨j, came.leads_bind leads⟩
  | @header i stream content rest first second asked _ ih =>
    obtain ⟨j, leads⟩ := ih
    have came : Comes (during .data Client.data) i first (.ok ()) i :=
      comes_adapt.2 ⟨.ok (), rfl, (Client.turns_command "DATA" 354 i _ _ _).2 ⟨asked, rfl⟩⟩
    exact ⟨j, came.leads_bind ((comes_written {} content i).leads_bind leads)⟩
  | @body i s content rest r accepted =>
    have asked : asks (s.endMark content) [250] [.said (s.endMark content), .got r] (.ok ()) :=
      .accepted (.answered r) (by simp [accepted])
    have came : Comes (during .eom (Client.endData (s.endMark content))) i
        [.said (s.endMark content), .got r] (.ok ()) i :=
      comes_adapt.2 ⟨.ok (), rfl, (Client.turns_endData _ i _ _ _).2 ⟨asked, rfl⟩⟩
    exact ⟨i, (comes_written s content i).leads_bind (came.leads_bind (.here _))⟩

/-! ## Whole sessions -/

/-- The dealings of a whole session, and its ending. -/
inductive Passes (accounts : Accounts) (script : Script) : List Dealing → Ending → Prop
  | unanswered (s : Setback) : Passes accounts script [⟨.await, .error s⟩, .closed]
      (.error (s.thrown.inSession .any))
  | unwelcome {greeting : Reply} : greeting.code ≠ 220 →
      Passes accounts script [.got greeting, .closed]
        (.error ((Setback.refused greeting).thrown.inSession .any))
  | greeted {greeting : Reply} {deals : List Dealing} {e : Ending} : greeting.code = 220 →
      script.Plays accounts none none deals e →
      Passes accounts script (.got greeting :: (deals ++ [.closed])) e

theorem comes_greeting {result : Except Setback Unit} :
    Comes Client.greeting i deals result i' ↔ i' = i ∧
      ((∃ s, deals = [⟨.await, .error s⟩, .closed] ∧ result = .error s) ∨
        (∃ r, r.code ≠ 220 ∧ deals = [.got r, .closed] ∧ result = .error (.refused r)) ∨
        ∃ r, r.code = 220 ∧ deals = [.got r] ∧ result = .ok ()) := by
  have judged : ∀ r : Reply, ((r.code : Int) == 220) = decide (r.code = 220) := by
    intro r
    rw [Bool.eq_iff_iff]
    simp only [beq_iff_eq, decide_eq_true_eq]
    omega
  rw [Client.greeting, comes_tryCatch]
  simp only [comes_bind, Client.comes_reply, Client.comes_expect, Client.comes_close, comes_throw,
    judged, decide_eq_true_eq]
  constructor
  · rintro (⟨_, rfl, waited⟩ | ⟨first, s, j, second, rfl, waited, given⟩)
    · rcases waited with ⟨_, same, _⟩ | ⟨_, r, j, _, rfl, ⟨rfl, rfl⟩, rfl, same, rfl⟩
      · cases same
      · split at same
        · rename_i fine
          exact ⟨rfl, .inr (.inr ⟨r, fine, rfl, rfl⟩)⟩
        · cases same
    · rcases given with ⟨_, _, _, same, _⟩ | ⟨_, _, _, _, rfl, ⟨rfl, _, rfl⟩, rfl, rfl, rfl⟩
      · cases same
      · rcases waited with ⟨_, same, rfl, rfl⟩ | ⟨_, r, j, _, rfl, ⟨rfl, rfl⟩, rfl, same, rfl⟩
        · cases same
          exact ⟨rfl, .inl ⟨s, rfl, rfl⟩⟩
        · split at same
          · cases same
          · rename_i other
            cases same
            exact ⟨rfl, .inr (.inl ⟨r, other, rfl, rfl⟩)⟩
  · rintro ⟨rfl, ⟨s, rfl, rfl⟩ | ⟨r, other, rfl, rfl⟩ | ⟨r, fine, rfl, rfl⟩⟩
    · refine .inr ⟨[_], s, i', [.closed], rfl, .inl ⟨s, rfl, rfl, rfl⟩, .inr ?_⟩
      exact ⟨[.closed], (), i', [], rfl, ⟨rfl, trivial, rfl⟩, rfl, rfl, rfl⟩
    · refine .inr ⟨[_], .refused r, i', [.closed], rfl, .inr ?_, .inr ?_⟩
      · exact ⟨[_], r, i', [], rfl, ⟨rfl, rfl⟩, rfl, (if_neg other).symm, rfl⟩
      · exact ⟨[.closed], (), i', [], rfl, ⟨rfl, trivial, rfl⟩, rfl, rfl, rfl⟩
    · exact .inl ⟨(), rfl, .inr ⟨[_], r, i', [], rfl, ⟨rfl, rfl⟩, rfl, (if_pos fine).symm, rfl⟩⟩

/-- What follows a play: the connection is closed. -/
def closing (r : Except Ending Decision × Introduction) : Dialogue Ending :=
  .ask .close fun _ => .done (ending r.1)

theorem dialogue_parts (accounts : Accounts) (script : Script) :
    dialogue accounts script = (Client.greeting.run.run none).bind fun (greeted, i) =>
      match greeted with
      | .error s => .done (.error (s.thrown.inSession .any))
      | .ok _ => ((playSteps accounts script none).run.run i).bind closing := rfl

theorem passes_of_leads {script : Script} {e : Ending}
    (h : Leads (dialogue accounts script) deals (.done e)) : Passes accounts script deals e := by
  rw [dialogue_parts, Leads.bind_iff] at h
  obtain ⟨first, ⟨greeted, i⟩, second, rfl, greets, rest⟩ := h
  obtain ⟨rfl, ⟨s, rfl, rfl⟩ | ⟨r, other, rfl, rfl⟩ | ⟨r, fine, rfl, rfl⟩⟩ := comes_greeting.1 greets
  · obtain ⟨rfl, same⟩ := Leads.done_iff.1 rest
    cases same
    exact .unanswered s
  · obtain ⟨rfl, same⟩ := Leads.done_iff.1 rest
    cases same
    exact .unwelcome other
  · obtain ⟨third, ⟨result, i'⟩, fourth, rfl, played, closes⟩ := Leads.bind_iff.1 rest
    obtain ⟨_, rfl, rfl⟩ := Leads.request_iff.1 closes
    exact .greeted fine (plays_of_comes played)

theorem leads_of_passes {script : Script} {e : Ending} (h : Passes accounts script deals e) :
    Leads (dialogue accounts script) deals (.done e) := by
  rw [dialogue_parts, Leads.bind_iff]
  cases h with
  | unanswered s =>
    have greets : Comes Client.greeting none [⟨.await, .error s⟩, .closed] (.error s) none :=
      comes_greeting.2 ⟨rfl, .inl ⟨s, rfl, rfl⟩⟩
    exact ⟨_, (.error s, none), [], rfl, greets, .here _⟩
  | @unwelcome greeting other =>
    have greets : Comes Client.greeting none [.got greeting, .closed] (.error (.refused greeting))
      none := comes_greeting.2 ⟨rfl, .inr (.inl ⟨greeting, other, rfl, rfl⟩)⟩
    exact ⟨_, (.error (.refused greeting), none), [], rfl, greets, .here _⟩
  | @greeted greeting played _ fine plays =>
    have greets : Comes Client.greeting none [.got greeting] (.ok ()) none :=
      comes_greeting.2 ⟨rfl, .inr (.inr ⟨greeting, fine, rfl, rfl⟩)⟩
    obtain ⟨result, j, comes, rfl⟩ := comes_of_plays plays
    have closes : Leads (closing (result, j)) [.closed] (.done (ending result)) :=
      Leads.request_iff.2 ⟨(), rfl, rfl⟩
    exact ⟨[.got greeting], (.ok (), none), _, rfl, greets, (Leads.bind comes closing).append closes⟩

/-- After the greeting and an accepted message, leave is taken and the connection closed. -/
theorem leads_dialogue {script : Script} {greeting : Reply} (fine : greeting.code = 220)
    (h : script.Accepted accounts none none deals) :
    ∃ j, Leads (dialogue accounts script) (.got greeting :: deals)
      ((leaving.run.run j).bind closing) := by
  obtain ⟨j, leads⟩ := leads_of_accepted h
  have greets : Comes Client.greeting none [.got greeting] (.ok ()) none :=
    comes_greeting.2 ⟨rfl, .inr (.inr ⟨greeting, fine, rfl, rfl⟩)⟩
  rw [dialogue_parts]
  exact ⟨j, (greets.bind _).append (leads.bind closing)⟩

end Session

end FilterBench
