import FilterBench.Proofs.Message.Receiving
import FilterBench.Proofs.Session.Writing

/-!
# What the peer gets as the message

The message of a script is its first body, with the last header before it (`Script.Message`). If a
session tells that a message was queued, it is this one, and the peer was written its content, in two
pieces, and the end mark (`Session.message_conveyed`). The steps that a script puts between the
header and the body are not kept back: their commands go to the peer too, into the open stream, as
does a header that is not the last one. Nothing else does.
-/
namespace FilterBench
open Utf8 Turnout Session

theorem commandLine_inj {line line' : String} (h : commandLine line = commandLine line') :
    line = line' := by
  have text := congrArg decode h
  simp only [commandLine, decode_encode, String.toList_append, List.append_cancel_right_eq] at text
  exact String.toList_injective text

theorem data_not_greeting (name : String) : "DATA" ∉ greetings name := by
  intro mem
  simp only [greetings, List.mem_cons, List.not_mem_nil, or_false] at mem
  obtain same | same := mem
  · simpa using congrArg String.toList same
  · simpa using congrArg String.toList same

/-- No other step says that content follows. -/
theorem Step.Says.header_of_data {accounts : Accounts} {step : Step}
    (h : step.Says accounts (commandLine "DATA")) :
    (∃ content, step = .header content) ∨ ∃ content, step = .body content := by
  generalize same : commandLine "DATA" = octets at h
  cases h with
  | asks asks =>
    cases asks with
    | header => exact .inl ⟨_, rfl⟩
    | body => exact .inr ⟨_, rfl⟩
    | helo mem | introduction _ mem =>
      rw [← commandLine_inj same] at mem
      exact (data_not_greeting _ mem).elim
    | _ => simpa using congrArg String.toList (commandLine_inj same)
  | cancels => simpa using congrArg String.toList (commandLine_inj same)

namespace Script

variable {accounts : Accounts} {script : Script} {i j : Introduction} {deals : List Dealing}
  {own es : List Event} {stream : Option Stuffing} {octets : Bytes}

/-- Steps without a header write nothing but commands. -/
theorem Passed.commands {answer : Except Setback Unit} (h : Passed accounts i script deals j)
    (plain : ∀ content, .header content ∉ script) (met : ⟨.write octets, answer⟩ ∈ deals) :
    ∃ step ∈ script, step.Says accounts octets := by
  induction h with
  | nil => cases met
  | command single succeeded _ ih =>
    obtain met | met := List.mem_append.1 met
    · exact ⟨_, List.mem_cons_self, says_command single _ _ succeeded _ met octets rfl⟩
    · obtain ⟨step, mem, such⟩ := ih (fun content mem => plain content (.tail _ mem)) met
      exact ⟨step, .tail _ mem, such⟩
  | header => exact (plain _ List.mem_cons_self).elim

/-- Steps without a header show nothing but commands. -/
theorem Shown.commands (h : script.Shown accounts i es j)
    (plain : ∀ content, .header content ∉ script) (mem : .wrote octets ∈ es) :
    ∃ step ∈ script, step.Says accounts octets := by
  obtain ⟨deals, passed, traced⟩ := h
  obtain ⟨pre, post, rfl⟩ := List.append_of_mem mem
  obtain ⟨first, answer, second, rfl, -⟩ := traced.wrote
  exact passed.commands plain (List.mem_append_right _ List.mem_cons_self)

theorem Shown.nil (h : Shown accounts [] i es j) : es = [] := by
  obtain ⟨deals, passed, traced⟩ := h
  cases passed
  exact Traced.nil_iff.1 traced

/-- The first body ends the content of the open stream, and the peer accepts this. -/
inductive Completes (accounts : Accounts) (s : Stuffing) (i : Introduction) :
    Script → List Dealing → Prop
  | body {between rest : Script} {content : Bytes} {inside : List Dealing} {ok : Reply}
      {j : Introduction} : Passed accounts i between inside j →
      (∀ content, .header content ∉ between) → ok.code = 250 →
      Completes accounts s i (between ++ .body content :: rest)
        (inside ++ [.said (s.written content), .said (s.endMark content), .got ok])

/-- A header opens the stream that the first body ends. -/
inductive Delivers (accounts : Accounts) (i : Introduction) : Script → List Dealing → Prop
  | header {before rest : Script} {content : Bytes} {earlier later : List Dealing} {go : Reply}
      {j : Introduction} : Passed accounts i before earlier j → go.code = 354 →
      Completes accounts (({} : Stuffing).encode content).1 j rest later →
      Delivers accounts i (before ++ .header content :: rest)
        (earlier ++ .said (commandLine "DATA") :: .got go ::
          .said (({} : Stuffing).written content) :: later)

theorem opened {deals : List Dealing} (h : Turnout.command "DATA" [354] deals (.ok ())) :
    ∃ go : Reply, go.code = 354 ∧ deals = [.said (commandLine "DATA"), .got go] := by
  cases h with
  | accepted heard code =>
    cases heard
    exact ⟨_, by simpa using code, rfl⟩

/-- The stream that a body ends was open before, or the last header before it opened it. -/
theorem Accepted.delivers (h : script.Accepted accounts i stream deals) :
    (∃ s, stream = some s ∧ Completes accounts s i script deals) ∨
      Delivers accounts i script deals := by
  induction h with
  | command single succeeds _ ih =>
    obtain ⟨s, open', completes⟩ | delivers := ih
    · cases completes with
      | body passed plain code =>
        refine .inl ⟨s, open', ?_⟩
        rw [← List.append_assoc]
        refine .body (.command single succeeds passed) ?_ code
        rintro content (_ | ⟨_, mem⟩)
        · cases single
        · exact plain content mem
    · cases delivers with
      | header passed code completes =>
        rw [← List.append_assoc]
        exact .inr (.header (.command single succeeds passed) code completes)
  | @header i stream content rest first second asked _ ih =>
    obtain ⟨s, open', completes⟩ | delivers := ih
    · cases open'
      obtain ⟨go, code, rfl⟩ := opened asked
      exact .inr (.header (.nil i) code completes)
    · cases delivers with
      | header passed code completes =>
        rw [← List.cons_append, ← List.cons_append, ← List.append_assoc]
        exact .inr (.header (.header asked passed) code completes)
  | body code => exact .inl ⟨_, rfl, .body (.nil _) (by simp) code⟩

/-- The message of a script: its first body, with the last header before it. -/
structure Message (script : Script) where
  before : Script
  header : Bytes
  between : Script
  body : Bytes
  rest : Script
  parts : script = before ++ .header header :: (between ++ .body body :: rest)
  last : ∀ content, .header content ∉ between
  first : ∀ content, .body content ∉ before ++ between

namespace Message

variable (m : script.Message)

/-- What is written of the header. -/
def head : Bytes := ({} : Stuffing).written m.header

/-- What is written of the body. -/
def tail : Bytes := (({} : Stuffing).encode m.header).1.written m.body

def mark : Bytes := (({} : Stuffing).encode m.header).1.endMark m.body

/-- A receiver gets the content, and there is nothing after the end mark. -/
theorem received : Content.receive (m.head ++ m.tail ++ m.mark) =
    some (Content.canonical (m.header ++ m.body), []) := by
  obtain ⟨state, out⟩ := Stuffing.encode_append {} m.header m.body
  have received := Content.receive_encode (m.header ++ m.body) []
  rw [state, out, List.append_nil] at received
  exact received

end Message

/-- What a session did and took to bring the message of a script to the peer. -/
structure Conveyance (accounts : Accounts) (script : Script) (own : List Event) where
  message : script.Message
  greeting : Reply
  /-- The reply that opened the stream. -/
  go : Reply
  /-- The reply that accepted the message. -/
  ok : Reply
  earlier : List Event
  inside : List Event
  later : List Event
  /-- The name that the client had given when the stream was opened, and when it was ended. -/
  opening : Introduction
  ending : Introduction
  course : own = .took greeting :: (earlier ++ .wrote (commandLine "DATA") :: .took go ::
    .wrote message.head :: (inside ++ .wrote message.tail :: .wrote message.mark ::
      .took ok :: later))
  welcome : greeting.code = 220
  opens : go.code = 354
  accepts : ok.code = 250
  before : message.before.Shown accounts none earlier opening
  between : message.between.Shown accounts opening inside ending

/-- No stream was opened before if there is no header before. -/
theorem Conveyance.unopened (c : script.Conveyance accounts own)
    (first : ∀ content, .header content ∉ c.message.before) :
    .wrote (commandLine "DATA") ∉ c.earlier := by
  intro mem
  obtain ⟨step, mem, such⟩ := c.before.commands first mem
  obtain ⟨content, rfl⟩ | ⟨content, rfl⟩ := such.header_of_data
  · exact first content mem
  · exact c.message.first content (List.mem_append_left _ mem)

/-- What a session that has its message accepted leaves in its history. -/
theorem Delivers.conveyed {greeting : Reply} {up post : List Dealing}
    (h : Delivers accounts none script up) (welcome : greeting.code = 220)
    (traced : Traced (.got greeting :: (up ++ post)) own) :
    Nonempty (script.Conveyance accounts own) := by
  cases h with
  | @header before rest header earlier _ go opening passed opens completes =>
    cases completes with
    | @body between rest body inside ok ending passed' last accepts =>
      -- The history falls into pieces as the dealings do.
      simp only [Traced.got_iff, Traced.append_iff, Traced.said_iff, Traced.nil_iff] at traced
      obtain ⟨_, rfl, _, later, rfl, ⟨earlier', _, rfl, told, _, rfl, _, rfl, _, rfl,
        inside', _, rfl, told', _, rfl, _, rfl, _, rfl, rfl⟩, -⟩ := traced
      refine ⟨{
        message := ⟨before, header, between, body, rest, rfl, last, ?_⟩
        greeting, go, ok, later, opening, ending, welcome, opens, accepts
        earlier := earlier'
        inside := inside'
        before := ⟨earlier, passed, told⟩
        between := ⟨inside, passed', told'⟩
        course := ?_ }⟩
      · intro content mem
        obtain mem | mem := List.mem_append.1 mem
        · exact passed.bodiless content mem
        · exact passed'.bodiless content mem
      · simp only [List.append_assoc, List.cons_append, List.nil_append]
        rfl

end Script

namespace Session

variable {route : Route} {accounts : Accounts} {script : Script} {peer : Peer}

/-- A session that tells that its message was queued has written the content of the last header before
the first body, and that of this body, so that a receiver gets it. In between it has written what
the steps between the two say, and nothing else. And whatever comes of a session, each thing that
it writes it writes for a step, when the steps before have passed. -/
theorem message_conveyed (route : Route) (accounts : Accounts) (script : Script) (peer : Peer) :
    ((run route accounts script peer).ending = some (.ok .queued) →
      ∃ c : script.Conveyance accounts
          ((run route accounts script peer).history.filter Event.isOwn),
        Content.receive (c.message.head ++ c.message.tail ++ c.message.mark) =
          some (Content.canonical (c.message.header ++ c.message.body), []) ∧
        (∀ octets, .wrote octets ∈ c.inside →
          ∃ step ∈ c.message.between, step.Says accounts octets) ∧
        (c.message.between = [] → c.inside = []) ∧
        ((∀ content, .header content ∉ c.message.before) →
          .wrote (commandLine "DATA") ∉ c.earlier)) ∧
    ∀ (pre post : List Event) (octets : Bytes),
      (run route accounts script peer).history.filter Event.isOwn = pre ++ .wrote octets :: post →
      script.Yields accounts pre octets := by
  refine ⟨fun queued => ?_, fun pre post octets wrote => yields_of_wrote wrote⟩
  obtain ⟨greeting, deals, dealt, welcome, ⟨-, up, post, rfl, accepted⟩ | refused⟩ := decided queued
  · have traced : Traced (dealings route accounts script peer) _ := traced_history
    rw [dealt, List.append_assoc] at traced
    obtain ⟨_, unopened, -⟩ | delivers := accepted.delivers
    · cases unopened
    · obtain ⟨c⟩ := delivers.conveyed welcome traced
      refine ⟨c, c.message.received, fun _ mem => c.between.commands c.message.last mem,
        fun none => ?_, c.unopened⟩
      exact Script.Shown.nil (none ▸ c.between)
  · exact absurd rfl refused.ne_queued

theorem message_conveyed_curt :
    (run { timeout := { ms := 500 } } {} [.helo "me", .header [65], .body [66]]
      curtPeer).ending = some (.ok .queued) ∧
    ∃ c : Script.Conveyance {} [.helo "me", .header [65], .body [66]]
        ((run { timeout := { ms := 500 } } {} [.helo "me", .header [65], .body [66]]
          curtPeer).history.filter Event.isOwn),
      Content.receive (c.message.head ++ c.message.tail ++ c.message.mark) =
        some (Content.canonical (c.message.header ++ c.message.body), []) ∧
      ∀ octets, .wrote octets ∈ c.inside →
        ∃ step ∈ c.message.between, step.Says {} octets := by
  have queued : (run { timeout := { ms := 500 } } {} [.helo "me", .header [65], .body [66]]
      curtPeer).ending = some (.ok .queued) := decision_of_toOption (by decide +kernel)
  obtain ⟨c, received, commands, -⟩ := (message_conveyed { timeout := { ms := 500 } } {} _ curtPeer).1 queued
  exact ⟨queued, c, received, commands⟩

/-- A server that answers every line, also those that come as content. -/
def heedlessPeer : Peer where
  turns :=
    [[.sends (encode "220 hi\r\n")], [.sends (encode "250 ok\r\n")],
      [.sends (encode "354 go\r\n")], [], [.sends (encode "250 ok\r\n")],
      [.sends (encode "354 go\r\n")], [], [], [.sends (encode "250 ok\r\n")],
      [.sends (encode "221 bye\r\n")]]

/-- What a script puts between a header and its body gets into the open stream, be it another command
or another header, and is received as content. -/
theorem commands_in_content :
    (run { timeout := { ms := 500 } } {}
      [.helo "me", .header [65], .recipient "b", .header [67], .body [66]]
      heedlessPeer).ending = some (.ok .queued) ∧
    (run { timeout := { ms := 500 } } {}
      [.helo "me", .header [65], .recipient "b", .header [67], .body [66]]
      heedlessPeer).sent = [commandLine "EHLO me", commandLine "DATA", [65],
        commandLine "RCPT TO:<b>", commandLine "DATA", [67], [66], encode "\r\n.\r\n",
        commandLine "QUIT"] ∧
    Content.receive ([65] ++ commandLine "RCPT TO:<b>" ++ commandLine "DATA" ++ [67] ++ [66] ++
        encode "\r\n.\r\n") =
      some (encode "ARCPT TO:<b>\r\nDATA\r\nCB\r\n", []) ∧
    encode "ARCPT TO:<b>\r\nDATA\r\nCB\r\n" ≠ Content.canonical ([65] ++ [67] ++ [66]) := by
  refine ⟨decision_of_toOption (by decide +kernel), by decide +kernel, ?_, by decide +kernel⟩
  exact Content.receive_encode (encode "ARCPT TO:<b>\r\nDATA\r\nCB") []

end Session

end FilterBench
