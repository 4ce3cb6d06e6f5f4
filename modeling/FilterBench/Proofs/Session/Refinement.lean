import FilterBench.Proofs.Dialogue
import FilterBench.Proofs.Session.Recital

/-!
# Sessions are readings of their scripts

A session with a server that answers whenever it is asked is the reading of its script against the
list of the server's replies: the same ending, and the same octets written
(`Session.run_eq_read`). Each reply has to be there before the time limit is over, as the timer counts
it: a limit that is too long for a timer breaks off a session whose server is in time
(`Session.overlong_timeout_fires`). The dialogue of a session follows the outlook of its script, command
by command; that the dialogue can be carried out on a connection with chunks, delays and handshakes is
`Connection.run_recites`.
-/
namespace FilterBench
open Utf8

namespace Session

/-- Whatever the replies are, the play recites what the outlook says, and comes to its ending. -/
def Follows (d : Dialogue (Except Ending Decision × Introduction)) (o : Outlook) : Prop :=
  ∀ replies, ∃ result, Recites d (o replies).said result ∧ ending result.1 = (o replies).ending

namespace Follows

variable {o : Outlook}

theorem ended {d : Dialogue (Except Ending Decision × Introduction)}
    (result : Except Ending Decision × Introduction) (h : Departs d result) :
    Follows d (.ended (ending result.1)) :=
  fun _ => ⟨result, .departs h, rfl⟩

theorem tells {octets : Bytes}
    {next : Except Setback Unit → Dialogue (Except Ending Decision × Introduction)}
    (h : Follows (next (.ok ())) o) : Follows (.ask (.write octets) next) (.tells octets o) := by
  intro replies
  obtain ⟨result, recites, ends⟩ := h replies
  exact ⟨result, .tells recites, ends⟩

theorem asks {octets : Bytes} {o : Reply → Outlook}
    {next : Except Setback Unit → Dialogue (Except Ending Decision × Introduction)}
    {next' : Except Setback Reply → Dialogue (Except Ending Decision × Introduction)}
    (waits : next (.ok ()) = .ask .await next') (h : ∀ r, Follows (next' (.ok r)) (o r)) :
    Follows (.ask (.write octets) next) (.asks octets o) := by
  intro replies
  obtain ⟨result, recites, ends⟩ := h replies.head replies.tail
  exact ⟨result, .asks waits recites, ends⟩

theorem secures {next : Except Setback Unit → Dialogue (Except Ending Decision × Introduction)}
    (h : Follows (next (.ok ())) o) : Follows (.ask .secure next) o := by
  intro replies
  obtain ⟨result, recites, ends⟩ := h replies
  exact ⟨result, .secures recites, ends⟩

end Follows

/-! ## Parts of a step -/

variable {stage : Stage} {k : Unit → Play Decision} {i : Introduction} {o : Outlook}

theorem during_bind {α β : Type} (stage : Stage) (x : Exchange α) (f : α → Exchange β) :
    during stage (x >>= f) = during stage x >>= fun a => during stage (f a) := by
  have maps : Except.mapError (endingOf stage) <$> (x.run >>= ExceptT.bindCont f) =
      (Except.mapError (endingOf stage) <$> x.run) >>=
        ExceptT.bindCont fun a => during stage (f a) := by
    rw [map_bind, bind_map_left]
    refine bind_congr fun result => ?_
    cases result with
    | ok a => rfl
    | error s => exact map_pure _ _
  exact maps

theorem accepts_one (n k : ℕ) : ((n : Int) == (k : Int)) = decide (n ∈ [k]) := by
  rw [Bool.eq_iff_iff]
  simp only [beq_iff_eq, List.mem_singleton, decide_eq_true_eq]
  omega

theorem follows_judge {accepted : Int → Bool} {codes : List ℕ}
    (same : ∀ n : ℕ, accepted n = decide (n ∈ codes)) (h : Follows ((k ()).run.run i) o) (r : Reply) :
    Follows ((during stage (Client.expect accepted r) >>= k).run.run i)
      (.judge stage codes o r) := by
  rw [Client.expect, same, Outlook.judge]
  by_cases mem : r.code ∈ codes
  · rw [if_pos mem, if_pos (decide_eq_true mem)]
    exact h
  · rw [if_neg mem, if_neg (by simpa using mem)]
    exact .ended (.error (endingOf stage (.refused r)), i) (.done _)

theorem follows_command {line : String} {accepted : Int → Bool} {codes : List ℕ}
    (same : ∀ n : ℕ, accepted n = decide (n ∈ codes)) (h : Follows ((k ()).run.run i) o) :
    Follows ((during stage (Client.command line accepted) >>= k).run.run i)
      (.command stage line codes o) :=
  .asks rfl fun r => follows_judge same h r

/-- What becomes of a reply to the extended greeting. -/
def afterHello (name : String) (r : Reply) : Exchange Unit :=
  tryCatch (Client.expect (· == 250) r) fun s =>
    if Client.unknownGreeting s then Client.command ("HELO " ++ name) (· == 250) else throw s

theorem follows_greet {name : String} (h : Follows ((k ()).run.run (some name)) o) :
    Follows ((during stage (Client.hello name) >>= k).run.run i) (.greet stage name o) := by
  refine .asks rfl fun r => ?_
  show Follows ((during stage (afterHello name r) >>= k).run.run (some name)) _
  rw [afterHello, Client.expect]
  by_cases accepted : r.code = 250
  · have fine : ((r.code : Int) == 250) = true := by rw [accepted]; rfl
    have known : ¬(r.code = 500 ∨ r.code = 502) := by omega
    rw [if_pos fine, if_neg known, Outlook.judge, if_pos (by simp [accepted])]
    exact h
  · have refused : ¬((r.code : Int) == 250) = true := by
      rw [beq_iff_eq]
      omega
    rw [if_neg refused]
    show Follows ((during stage (if Client.unknownGreeting (.refused r) then
      Client.command ("HELO " ++ name) (· == 250) else throw (.refused r)) >>= k).run.run
        (some name)) _
    by_cases unknown : r.code = 500 ∨ r.code = 502
    · have asked : Client.unknownGreeting (.refused r) = true := by
        rw [Client.unknownGreeting]
        simpa using unknown
      rw [if_pos asked, if_pos unknown]
      exact follows_command (accepts_one · 250) h
    · have final : ¬Client.unknownGreeting (.refused r) = true := by
        rw [Client.unknownGreeting]
        simpa using unknown
      rw [if_neg final, if_neg unknown, Outlook.judge, if_neg (by simp [accepted])]
      exact .ended (.error (endingOf stage (.refused r)), some name) (.done _)

theorem follows_introduce {k : Unit → Play Decision} {o : String → Outlook}
    (h : ∀ name, Follows ((k ()).run.run (some name)) (o name)) :
    Follows ((during stage Client.ensureHello >>= k).run.run i) (.introduce stage i o) := by
  cases i with
  | some name => exact h name
  | none => exact follows_greet (i := none) (h "localhost")

/-- A step whose exchange begins with making sure that the client has greeted. -/
theorem follows_greeted {x : Exchange Unit} {o : String → Outlook}
    (h : ∀ name, Follows ((during stage x >>= k).run.run (some name)) (o name)) :
    Follows ((during stage (Client.ensureHello >>= fun _ => x) >>= k).run.run i)
      (.introduce stage i o) := by
  rw [during_bind, bind_assoc]
  exact follows_introduce h

theorem follows_startTls {name : String} (h : Follows ((k ()).run.run (some name)) o) :
    Follows ((during .any (do
        Client.command "STARTTLS" (· == 220)
        Client.secure
        Client.extendedHello) >>= k).run.run (some name))
      (.command .any "STARTTLS" [220] (.command .any ("EHLO " ++ name) [250] o)) := by
  rw [during_bind, bind_assoc]
  refine follows_command (accepts_one · 220) ?_
  have greets : Follows ((during .any (Client.command ("EHLO " ++ name) (· == 250)) >>= k).run.run
      (some name)) (.command .any ("EHLO " ++ name) [250] o) := follows_command (accepts_one · 250) h
  exact .secures greets

/-- What becomes of the reply to a login. -/
def afterLogin (m : Mechanism) (r : Reply) : Exchange Unit := do
  if r.code = 334 then
    Client.writeLine "*"
    discard Client.reply
    throw (.challenged m.name)
  Client.expect (· == 235) r

/-- Logging in, once the client has greeted. -/
def greetedLogin (m : Mechanism) : Exchange Unit := do
  Client.writeLine ("AUTH " ++ m.name ++ " " ++ m.initial)
  let r ← Client.reply
  afterLogin m r

theorem login_eq (m : Mechanism) :
    Client.login m = Client.ensureHello >>= fun _ => greetedLogin m := rfl

theorem follows_mechanism {m : Mechanism} (h : Follows ((k ()).run.run i) o) :
    Follows ((during .any (greetedLogin m) >>= k).run.run i)
      (.asksLine ("AUTH " ++ m.name ++ " " ++ m.initial) fun r =>
        if r.code = 334 then
          .asksLine "*" fun _ => .ended (.error ((Setback.challenged m.name).thrown.inSession .any))
        else .judge .any [235] o r) := by
  refine .asks rfl fun r => ?_
  show Follows ((during .any (afterLogin m r) >>= k).run.run i) _
  rw [afterLogin]
  by_cases more : r.code = 334
  · rw [if_pos more, if_pos more]
    refine .asks rfl fun r => ?_
    exact .ended (.error (.error ((Setback.challenged m.name).thrown.inSession .any)), i)
      (.done _)
  · rw [if_neg more, if_neg more]
    exact follows_judge (accepts_one · 235) h r

/-- What a client says that logs in with a name and a password. -/
theorem login_line (user password : String) :
    "AUTH " ++ (Plain.mechanism ⟨"", user, password⟩).name ++ " " ++
        (Plain.mechanism ⟨"", user, password⟩).initial =
      "AUTH PLAIN " ++ String.ofList (Base64.encode
        (encode ("\x00" ++ user ++ "\x00" ++ password))) := by
  have nul : Plain.nul.toString = "\x00" := rfl
  have response : (Plain.mechanism ⟨"", user, password⟩).response =
      encode ("\x00" ++ user ++ "\x00" ++ password) := by
    rw [Plain.mechanism, Plain.response, nul, String.empty_append]
  have first : encode ("\x00" ++ user ++ "\x00" ++ password) =
      0 :: encode (user ++ "\x00" ++ password) := by
    rw [String.append_assoc, String.append_assoc, encode_append, String.append_assoc]
    rfl
  rw [Mechanism.initial, response, first, if_neg (by simp)]
  rfl

theorem follows_login {user password : String} (h : Follows ((k ()).run.run i) o) :
    Follows ((during .any (greetedLogin (Plain.mechanism ⟨"", user, password⟩)) >>= k).run.run i)
      (.login user password o) := by
  have follows := follows_mechanism (m := Plain.mechanism ⟨"", user, password⟩) h
  rw [login_line] at follows
  have challenge : (Setback.challenged "PLAIN").thrown.inSession .any = .session .any
      { code := .smtpProtocol, message := "Unexpected server challenge during AUTH PLAIN" } := rfl
  have name : (Plain.mechanism ⟨"", user, password⟩).name = "PLAIN" := rfl
  rw [name, challenge] at follows
  exact follows

theorem follows_content {s : Stuffing} {content : Bytes} {k : Stuffing → Play Decision}
    (h : Follows ((k (s.encode content).1).run.run i) o) :
    Follows ((writeContent (some s) content >>= k).run.run i)
      (.tells (s.encode content).2 o) :=
  .tells h

theorem follows_endData {mark : Bytes} (h : Follows ((k ()).run.run i) o) :
    Follows ((during stage (Client.endData mark) >>= k).run.run i)
      (.asks mark (.judge stage [250] o)) := by
  refine .asks rfl fun r => ?_
  show Follows ((during stage (Client.expect (· == 250) r) >>= k).run.run i) _
  exact follows_judge (accepts_one · 250) h r

/-- What becomes of the reply to taking leave. -/
def afterQuit (r : Reply) : Exchange Unit :=
  try
    try
      Client.expect (· == 221) r
    catch s =>
      Client.close
      throw s
    Client.close
  catch s =>
    let remark := "# QUIT after queued message failed: " ++ s.message ++ "\n"
    (liftM (Dialogue.request (.note remark)) : Exchange Unit)

/-- Whatever the answer to taking leave is, the message was accepted. -/
theorem follows_takeLeave :
    Follows ((during .any takeLeave >>= fun _ => (pure .queued : Play Decision)).run.run i)
      (.asksLine "QUIT" fun _ => .ended (.ok .queued)) := by
  refine .asks rfl fun r => ?_
  show Follows ((during .any (afterQuit r) >>= fun _ => (pure .queued : Play Decision)).run.run i) _
  rw [afterQuit, Client.expect]
  split
  · exact .ended (.ok .queued, i) (.close (.done _))
  · exact .ended (.ok .queued, i) (.close (.note (.done _)))

theorem follows_playSteps (accounts : Accounts) (script : Script) (i : Introduction)
    (stream : Option Stuffing) : Follows ((playSteps accounts script stream).run.run i)
      (script.outlook accounts i stream) := by
  induction script generalizing i stream with
  | nil => exact .ended _ (.done _)
  | cons step rest ih =>
    cases step with
    | helo name => exact follows_greet (ih (some name) stream)
    | startTls => exact follows_greeted fun name => follows_startTls (ih (some name) stream)
    | login user =>
      rw [playSteps, login_eq]
      exact follows_greeted fun name => follows_login (ih (some name) stream)
    | sender address =>
      exact follows_greeted fun name => follows_command (accepts_one · 250) (ih (some name) stream)
    | recipient address =>
      refine follows_command (fun n => ?_) (ih i stream)
      rw [Bool.eq_iff_iff]
      simp only [Bool.or_eq_true, beq_iff_eq, List.mem_cons, List.not_mem_nil, or_false,
        decide_eq_true_eq]
      omega
    | reset =>
      exact follows_greeted fun name => follows_command (accepts_one · 250) (ih (some name) stream)
    | header content =>
      exact follows_command (accepts_one · 354) (follows_content (ih i (some _)))
    | body content =>
      cases stream with
      | none => exact .ended _ (.done _)
      | some s =>
        exact follows_content (follows_endData follows_takeLeave)
    | unknown kind => exact .ended _ (.done _)

/-- What becomes of the greeting of the server. -/
def afterGreeting (r : Reply) : Exchange Unit :=
  try
    Client.expect (· == 220) r
  catch s =>
    Client.close
    throw s

/-- A whole session waits for the greeting first, and then recites what the reading says. -/
theorem recites_dialogue (accounts : Accounts) (script : Script) (replies : Stream' Reply) :
    ∃ next, dialogue accounts script = .ask .await next ∧
      Recites (next (.ok replies.head)) (script.read accounts replies).said
        (script.read accounts replies).ending := by
  refine ⟨_, rfl, ?_⟩
  show Recites (((afterGreeting replies.head).run.run none).bind _) _ _
  rw [afterGreeting, Client.expect, Script.read]
  by_cases greeted : replies.head.code = 220
  · have fine : ((replies.head.code : Int) == 220) = true := by rw [greeted]; rfl
    obtain ⟨result, recites, ends⟩ := follows_playSteps accounts script none none replies.tail
    rw [if_pos fine, if_pos greeted, ← ends]
    exact recites.bind (.close (.done _))
  · have refused : ¬((replies.head.code : Int) == 220) = true := by
      rw [beq_iff_eq]
      omega
    rw [if_neg refused, if_neg greeted]
    exact .departs (.close (.done _))

end Session

/-- The peer accepts the connection, completes every handshake, greets, and answers each utterance
of a list. -/
structure Peer.Answers (p : Peer) (timeout : Timeout) (greeting : Reply) (said : List Utterance) :
    Prop where
  accepts : ∃ after, p.arrival = .settles after none
  secures : Secures p.handshakes
  greets : (p.turns.headD []).Delivers greeting timeout
  answers : Answered timeout said p.turns.tail

namespace Connection

/-- A new connection to a peer that delivers its greeting. -/
theorem pledged_greeting {greeting : Reply} {timeout : Timeout} {turn : Turn}
    (greets : turn.Delivers greeting timeout) (after : ℕ) (turns : List Turn)
    (handshakes : List Attempt) : Pledged greeting
      { timeout := timeout, now := after, turns := turns, handshakes := handshakes
        upcoming := [{ due := after, turn := turn }] } := by
  refine ⟨rfl, rfl, .inr ⟨{ due := after, turn := turn }, [], ?_, rfl, ?_, greets.owes after⟩⟩
  · exact ⟨[], [], rfl, by simp, by simp [Schedule.Silent]⟩
  · exact ⟨{}, rfl, Reply.readLines_of_none rfl _ _⟩

end Connection

namespace Session

/-- A session with a peer that answers ends as the reading of its script against the replies, and
writes exactly what the reading says. -/
theorem run_eq_read (route : Route) (accounts : Accounts) (script : Script)
    (replies : Stream' Reply) (peer : Peer)
    (h : peer.Answers route.timeout replies.head (script.read accounts replies).said) :
    (run route accounts script peer).ending = some (script.read accounts replies).ending ∧
      (run route accounts script peer).sent =
        (script.read accounts replies).said.map Utterance.octets := by
  obtain ⟨after, accepts⟩ := h.accepts
  obtain ⟨next, waits, recites⟩ := recites_dialogue accounts script replies
  have connects : peer.connect route.host route.port route.timeout = .connected
      { timeout := route.timeout, now := after, turns := peer.turns.tail
        handshakes := peer.handshakes
        upcoming := [{ due := after, turn := peer.turns.headD [] }] } := by
    simp only [Peer.connect, accepts]
  have pledged := Connection.pledged_greeting h.greets after peer.turns.tail peer.handshakes
  obtain ⟨c₁, awaited, ready, keeps⟩ := Connection.await_pledged pledged
  obtain ⟨c₂, ran, sent⟩ := Connection.run_recites recites ready
    (by rw [keeps.timeout, keeps.turns]; exact h.answers)
    (by rw [keeps.handshakes]; exact h.secures)
  have final : run route accounts script peer =
      report (c₂, some (script.read accounts replies).ending) := by
    simp only [run, connects, waits, Connection.run, Connection.perform, awaited, ran]
  rw [final]
  refine ⟨rfl, ?_⟩
  show c₂.sent = _
  rw [sent, keeps.sent]
  rfl

/-- The replies of a server that knows only the old greeting until the channel is secure. -/
def upgradeReplies : Stream' Reply := fun n =>
  [⟨220, ["hello".toList]⟩, ⟨502, ["what?".toList]⟩, ⟨250, ["ok".toList]⟩, ⟨220, ["go on".toList]⟩,
    ⟨250, ["grüße".toList, "SIZE".toList]⟩].getD n ⟨451, ["later".toList]⟩

/-- This server, with replies that are delayed, and cut within a character. -/
def upgradePeer : Peer where
  arrival := .settles 3 none
  handshakes := [.settles 20 none]
  turns :=
    [[.sends (encode "220 hello\r\n")],
      [.waits 10, .sends (encode "502 "), .waits 10, .sends (encode "what?\n")],
      [.sends (encode "250 ok\r\n")],
      [.sends (encode "220 go on\r"), .waits 1, .sends [10]],
      [.sends (encode "250-gr" ++ [0xC3]), .waits 29, .sends ([0xBC] ++ encode "ße\r\n250 SIZE\r\n")],
      [.sends (encode "451 later\n")]]

theorem run_eq_read_upgrade :
    upgradePeer.Answers { ms := 30 } (upgradeReplies.head)
        (Script.read {} [.helo "me", .startTls, .sender "me@a"] upgradeReplies).said ∧
      (run { timeout := { ms := 30 } } {} [.helo "me", .startTls, .sender "me@a"] upgradePeer).ending =
        some (.ok ⟨451, "later", .from⟩) ∧
      (run { timeout := { ms := 30 } } {} [.helo "me", .startTls, .sender "me@a"] upgradePeer).sent =
        [encode "EHLO me\r\n", encode "HELO me\r\n", encode "STARTTLS\r\n", encode "EHLO me\r\n",
          encode "MAIL FROM:<me@a>\r\n"] := by
  have answers : upgradePeer.Answers { ms := 30 } (upgradeReplies.head)
      (Script.read {} [.helo "me", .startTls, .sender "me@a"] upgradeReplies).said := by
    have greets : Turn.Delivers ⟨220, ["hello".toList]⟩ { ms := 30 } (upgradePeer.turns[0]!) :=
      Turn.delivers_render (by decide) (by decide) (by decide) .full (by decide) rfl rfl
    have refuses : Turn.Delivers ⟨502, ["what?".toList]⟩ { ms := 30 } (upgradePeer.turns[1]!) :=
      Turn.delivers_render (by decide) (by decide) (by decide) .bare (by decide) rfl rfl
    have accepts : Turn.Delivers ⟨250, ["ok".toList]⟩ { ms := 30 } (upgradePeer.turns[2]!) :=
      Turn.delivers_render (by decide) (by decide) (by decide) .full (by decide) rfl rfl
    have upgrades : Turn.Delivers ⟨220, ["go on".toList]⟩ { ms := 30 } (upgradePeer.turns[3]!) :=
      Turn.delivers_render (by decide) (by decide) (by decide) .full (by decide) rfl rfl
    have accepts_again :
        Turn.Delivers ⟨250, ["grüße".toList, "SIZE".toList]⟩ { ms := 30 } (upgradePeer.turns[4]!) :=
      Turn.delivers_render (by decide) (by decide) (by decide) .full (by decide) rfl rfl
    have declines : Turn.Delivers ⟨451, ["later".toList]⟩ { ms := 30 } (upgradePeer.turns[5]!) :=
      Turn.delivers_render (by decide) (by decide) (by decide) .bare (by decide) rfl rfl
    exact ⟨⟨3, rfl⟩, by simp [upgradePeer, Secures], greets, refuses, accepts, upgrades,
      accepts_again, declines, trivial⟩
  have equal := run_eq_read { timeout := { ms := 30 } } {} [.helo "me", .startTls, .sender "me@a"]
    upgradeReplies upgradePeer answers
  refine ⟨answers, equal.1.trans ?_, equal.2.trans ?_⟩
  · rfl
  · rfl

def tardyReplies : Stream' Reply := fun n => [⟨220, ["hi".toList]⟩].getD n ⟨550, ["no".toList]⟩

/-- A server with these replies, whose greeting takes some time. -/
def tardyPeer : Peer where
  turns :=
    [[.waits 10, .sends (encode "220 hi\r\n")], [.sends (encode "550 no\r\n")]]

/-- The server answers within the timeout that is asked for. This is too long for a timer: the session is
broken off after a millisecond. -/
theorem overlong_timeout_fires :
    tardyPeer.Answers { ms := 2147483648, timers := .ideal } tardyReplies.head
        (Script.read {} [.helo "me"] tardyReplies).said ∧
      (Script.read {} [.helo "me"] tardyReplies).ending = .ok ⟨550, "no", .helo⟩ ∧
      (∃ t, (run { timeout := { ms := 2147483648 } } {} [.helo "me"] tardyPeer).ending =
        some (.error t)) ∧
      (run { timeout := { ms := 2147483648 } } {} [.helo "me"] tardyPeer).elapsed = 1 := by
  have failed : (run { timeout := { ms := 2147483648 } } {} [.helo "me"] tardyPeer).ending.map
      Except.isOk = some false := by decide +kernel
  refine ⟨⟨⟨0, rfl⟩, by simp [tardyPeer, Secures], ?_, ?_, trivial⟩, rfl, ?_, by decide +kernel⟩
  · exact Turn.delivers_render (by decide) (by decide) (by decide) .full (by decide) rfl rfl
  · exact Turn.delivers_render (by decide) (by decide) (by decide) .full (by decide) rfl rfl
  · obtain ⟨e, ends, bad⟩ := Option.map_eq_some_iff.1 failed
    cases e with
    | error t => exact ⟨t, ends⟩
    | ok d => cases bad

end Session

end FilterBench
