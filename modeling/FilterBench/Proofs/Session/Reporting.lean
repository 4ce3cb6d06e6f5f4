import FilterBench.Proofs.Reply.RoundTrip
import FilterBench.Proofs.Session.Acceptance

/-!
# What is reported of a refusal

A reply whose code a command does not accept ends the command with a refusal, and the session with a
decision of the same code and message (`Client.comes_refused`, `Session.comes_decided`). Code and message
are those that the server put into the reply, whatever the lines and the chunks that it came in
(`Session.refusal_reported`).
-/
namespace FilterBench
open Utf8 Turnout

namespace Client

variable {accepted : Int → Bool} {r : Reply}

/-- Something is said, and the reply to it is not accepted. -/
theorem comes_refused (other : accepted r.code = false) (octets : Bytes) (i : Introduction) :
    Comes (write octets >>= fun _ => reply >>= expect accepted) i [.said octets, .got r]
      (.error (.refused r)) i := by
  have heard : Comes (write octets >>= fun _ => reply) i [.said octets, .got r] (.ok r) i :=
    comes_hears.2 ⟨.answered r, rfl⟩
  have refused : Comes (expect accepted r) i [] (.error (.refused r)) i :=
    comes_expect.2 ⟨rfl, by rw [other]; rfl, rfl⟩
  rw [← bind_assoc]
  exact comes_bind.2 (.inr ⟨_, r, i, [], rfl, heard, refused⟩)

theorem comes_command_refused (other : accepted r.code = false) (line : String)
    (i : Introduction) : Comes (command line accepted) i [.said (commandLine line), .got r]
      (.error (.refused r)) i :=
  comes_refused other (commandLine line) i

theorem comes_endData_refused (other : r.code ≠ 250) (mark : Bytes) (i : Introduction) :
    Comes (endData mark) i [.said mark, .got r] (.error (.refused r)) i := by
  have unaccepted : ((r.code : Int) == 250) = false := by
    rw [beq_eq_false_iff_ne]
    omega
  exact comes_refused unaccepted mark i

theorem comes_login_refused (other : r.code ∉ [235, 334]) (m : Mechanism) (name : String) :
    Comes (login m) (some name) [.said (loginLine m), .got r] (.error (.refused r))
      (some name) := by
  have known : introduces (some name) [] (.ok ()) := .known name
  have refused : logsIn m [.said (loginLine m), .got r] (.error (.refused r)) :=
    .refused (.answered r) other
  exact (turns_login m (some name) _ _ _).2 ⟨.goesOn known refused, rfl⟩

end Client

namespace Session

variable {r : Reply}

/-- Where a part of a step ends with a refusal, the decision is taken, whatever was to follow. -/
theorem comes_decided {x : Exchange Unit} {i j : Introduction} {deals : List Dealing}
    (h : Comes x i deals (.error (.refused r)) j) (stage : Stage) (k : Unit → Play Decision) :
    Comes (during stage x >>= k) i deals
      (.error (.ok ⟨r.code, String.ofList r.split.2, stage⟩)) j := by
  have ends : Comes (during stage x) i deals (.error (endingOf stage (.refused r))) j :=
    comes_adapt.2 ⟨.error (.refused r), rfl, h⟩
  exact comes_bind.2 (.inl ⟨_, rfl, ends⟩)

/-- A decision other than that the message was queued is what the last reply says. -/
theorem decision_of_last {route : Route} {accounts : Accounts} {script : Script} {peer : Peer}
    {d : Decision} {pre : List Dealing}
    (ends : (run route accounts script peer).ending = some (.ok d)) (other : d ≠ .queued)
    (last : dealings route accounts script peer = pre ++ [.got r, .closed]) :
    d.code = r.code ∧ d.message = String.ofList r.split.2 := by
  obtain ⟨greeting, deals, same, -, ⟨queued, -⟩ | refused⟩ := decided ends
  · exact absurd queued other
  · cases refused with
    | @last _ stage octets _ pre' r' =>
      rw [last] at same
      have split : pre ++ [.got r, .closed] =
          (.got greeting :: pre' ++ [.said octets]) ++ [.got r', .closed] := by
        simpa using same
      obtain ⟨-, final⟩ := List.append_inj' split rfl
      cases final
      exact ⟨rfl, rfl⟩

open Reply

/-- However a server cuts and ends the lines of a reply, with or without a status code before its
texts: the one reply that is read says what the server said, and where it is not accepted the refusal
and the decision say the same. -/
theorem refusal_reported {code : ℕ} {status : Option (List Char)} {texts lines : List (List Char)}
    {chunks : List (List Char)} (small : code < 1000) (some_text : texts ≠ [])
    (clean : ∀ text ∈ texts, text.any isSeparator = false) (bears : Bears status texts lines)
    (rendered : Rendered code lines chunks.flatten) :
    let r : Reply := ⟨code, lines⟩
    let message := ['\n'].intercalate texts
    ({} : Reader).pushAll chunks = ({}, .ok [r]) ∧
    r.split = (status, message) ∧
    (Setback.refused r).thrown =
      .refusal ⟨code, String.ofList message, status.map String.ofList⟩ ∧
    (∀ (accepted : Int → Bool) (line : String) (i : Introduction), accepted code = false →
      Comes (Client.command line accepted) i [.said (commandLine line), .got r]
        (.error (.refused r)) i) ∧
    (∀ (mark : Bytes) (i : Introduction), code ≠ 250 →
      Comes (Client.endData mark) i [.said mark, .got r] (.error (.refused r)) i) ∧
    (∀ (m : Mechanism) (name : String), code ∉ [235, 334] →
      Comes (Client.login m) (some name) [.said (loginLine m), .got r] (.error (.refused r))
        (some name)) ∧
    (∀ (x : Exchange Unit) (i j : Introduction) (deals : List Dealing),
      Comes x i deals (.error (.refused r)) j → ∀ (stage : Stage) (k : Unit → Play Decision),
        Comes (during stage x >>= k) i deals
          (.error (.ok ⟨code, String.ofList message, stage⟩)) j) ∧
    ∀ (route : Route) (accounts : Accounts) (script : Script) (peer : Peer) (d : Decision)
      (pre : List Dealing), (run route accounts script peer).ending = some (.ok d) → d ≠ .queued →
      dealings route accounts script peer = pre ++ [.got r, .closed] →
        d.code = code ∧ d.message = String.ofList message := by
  intro r message
  have written : Written r chunks.flatten := rendered.written small (bears.clean clean)
  have split : r.split = (status, message) := bears.split (bears.ne_nil some_text) code
  have text : r.split.2 = message := by rw [split]
  refine ⟨pushAll_written written, split, ?_, ?_, ?_, ?_, ?_, ?_⟩
  · rw [Setback.thrown, Setback.refusal, split]
  · intro accepted line i other
    exact Client.comes_command_refused other line i
  · intro mark i other
    exact Client.comes_endData_refused other mark i
  · intro m name other
    exact Client.comes_login_refused other m name
  · intro x i j deals refused stage k
    rw [← text]
    exact comes_decided refused stage k
  · intro route accounts script peer d pre ends other last
    rw [← text]
    exact decision_of_last ends other last

/-- A server that tells on two lines why it refuses the sender. -/
def wordyPeer : Peer where
  turns :=
    [[.sends (encode "220 hi\r\n")], [.sends (encode "250 ok\r\n")],
      [.sends (encode "550-5.7.1 no\r\n550 5.7.1 \n")]]

/-- Two texts, of which the second is empty, cut in the first line end and in the second code. -/
theorem refusal_reported_wordy :
    let status := ['5', '.', '7', '.', '1']
    let r : Reply := ⟨550, [status ++ [' ', 'n', 'o'], status ++ [' ']]⟩
    let chunks := [codeDigits 550 ++ '-' :: status ++ [' ', 'n', 'o', '\r'],
      '\n' :: codeDigits 550 ++ [' ', '5', '.'], ['7', '.', '1', ' ', '\n']]
    ({} : Reader).pushAll chunks = ({}, .ok [r]) ∧
      r.split = (some status, ['n', 'o', '\n']) ∧
      Comes (during .from (Client.command "MAIL FROM:<a>" (· == 250)) >>=
          fun _ => (pure .queued : Play Decision))
        (some "me") [.said (commandLine "MAIL FROM:<a>"), .got r]
        (.error (.ok ⟨550, "no\n", .from⟩)) (some "me") ∧
      ∃ d, (run {} {} [.helo "me", .sender "a"] wordyPeer).ending = some (.ok d) ∧
        d.code = 550 ∧ d.message = "no\n" := by
  intro status r chunks
  have bears : Bears (some status) [['n', 'o'], []] r.lines := .coded (isStatusCode_iff.1 rfl)
  have second : Rendered 550 [status ++ [' ']] (codeDigits 550 ++ ' ' :: (status ++ [' ']) ++ ['\n']) :=
    .last .bare
  have both : Rendered 550 r.lines (codeDigits 550 ++ '-' :: (status ++ [' ', 'n', 'o']) ++
      ['\r', '\n'] ++ (codeDigits 550 ++ ' ' :: (status ++ [' ']) ++ ['\n'])) := .more .full second
  have rendered : Rendered 550 r.lines chunks.flatten := both
  obtain ⟨read, split, -, refused, -, -, decides, reported⟩ :=
    refusal_reported (by decide) (by decide) (by decide) bears rendered
  have asked := refused (· == 250) "MAIL FROM:<a>" (some "me") rfl
  have ended : (run {} {} [.helo "me", .sender "a"] wordyPeer).ending =
      some (.ok ⟨550, "no\n", .from⟩) := decision_of_toOption (by decide +kernel)
  have last : dealings {} {} [.helo "me", .sender "a"] wordyPeer =
      [.got ⟨220, [['h', 'i']]⟩, .said (commandLine "EHLO me"), .got ⟨250, [['o', 'k']]⟩,
        .said (commandLine "MAIL FROM:<a>")] ++ [.got r, .closed] := by
    decide +kernel
  have told := reported {} {} _ wordyPeer _ _ ended (by decide) last
  exact ⟨read, split, decides _ _ _ _ asked .from _, _, ended, told⟩

end Session

end FilterBench
