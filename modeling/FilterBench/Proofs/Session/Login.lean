import FilterBench.Proofs.Client.Operating
import FilterBench.Proofs.Credentials
import FilterBench.Proofs.Session.Etiquette

/-!
# Logging in

Whatever credentials a client logs in with, it writes them as one line (`Plain.isLine_loginLine`), from
which a server reads them back if no NUL is in them, and nothing otherwise
(`Plain.ofLine?_loginLine`). A login of a client writes this line, besides a greeting that is still
owed and a cancel (`Operation.login_wrote`). In a session each login that passes has written the line
of its user, and no other step begins a command with `AUTH` (`Session.login_recovered`).
-/
namespace FilterBench
open Utf8 Turnout Session

/-! ## The line -/

/-- The octets are one line: they end with CRLF, and hold no other CR or LF. -/
def IsLine (octets : Bytes) : Prop :=
  ∃ line, octets = line ++ [carriageReturn, lineFeed] ∧
    carriageReturn ∉ line ∧ lineFeed ∉ line

namespace Plain

/-- What stands before the response in a line that logs in. -/
def opening : List Char := "AUTH PLAIN ".toList

/-- The line that logs in, without its end. -/
def loginText (p : Plain) : String := String.ofList (opening ++ Base64.encode p.response)

theorem loginLine_mechanism (p : Plain) :
    loginLine p.mechanism = encode p.loginText ++ [carriageReturn, lineFeed] := by
  have ends : encode "\r\n" = [carriageReturn, lineFeed] := by decide +kernel
  have words : "AUTH ".toList ++ "PLAIN".toList ++ " ".toList = opening := by decide +kernel
  have text : "AUTH " ++ p.mechanism.name ++ " " ++ p.mechanism.initial = p.loginText := by
    rw [initial_mechanism, mechanism]
    apply String.toList_injective
    simp only [loginText, String.toList_append, String.toList_ofList, words]
  rw [loginLine, commandLine, encode_append, ends, text]

/-- Only characters that end no line are in it. -/
theorem le_of_mem_loginText {p : Plain} {c : Char} (mem : c ∈ p.loginText.toList) : 32 ≤ c.toNat := by
  have spaced : opening.all (fun c => 32 ≤ c.toNat) = true := by decide +kernel
  rw [loginText, String.toList_ofList, List.mem_append] at mem
  obtain first | word := mem
  · exact of_decide_eq_true (List.all_eq_true.1 spaced c first)
  · exact (Base64.space_lt_of_mem (Base64.mem_alphabet_of_encode _ c word)).le

theorem not_mem_loginText (p : Plain) {b : UInt8} (control : b.toNat < 32) :
    b ∉ encode p.loginText := by
  intro mem
  have back : ∀ n < 32, (Char.ofNat n).toNat = n := by decide +kernel
  have high := le_of_mem_loginText (mem_of_mem_encode (by omega) mem)
  rw [back _ control] at high
  omega

theorem isLine_loginLine (p : Plain) : IsLine (loginLine p.mechanism) :=
  ⟨_, p.loginLine_mechanism, p.not_mem_loginText (by decide), p.not_mem_loginText (by decide)⟩

/-- A server reads the credentials back, unless a part of them holds a NUL: then it reads nothing. -/
theorem ofLine?_loginLine (p : Plain) :
    ofLine? (loginLine p.mechanism) = if p.Clean then some p else none := by
  have split : Content.splitLine? (loginLine p.mechanism) = some (encode p.loginText, []) := by
    rw [loginLine_mechanism]
    exact Content.splitLine?_feed (p.not_mem_loginText (by decide)) []
  have word : lastWord (decode (encode p.loginText)) = Base64.encode p.response := by
    have whole : ' ' ∉ Base64.encode p.response := by
      intro mem
      have := Base64.space_lt_of_mem (Base64.mem_alphabet_of_encode _ _ mem)
      exact absurd this (by decide)
    rw [decode_encode, loginText, String.toList_ofList]
    exact lastWord_append whole "AUTH PLAIN".toList
  rw [ofLine?, split, Option.bind_eq_bind, Option.bind_some, word, Base64.decode?_encode,
    Option.bind_eq_bind, Option.bind_some, read?_response]

/-- Only the same credentials give the same line. -/
theorem eq_of_loginLine {p q : Plain} (clean : p.Clean)
    (same : loginLine p.mechanism = loginLine q.mechanism) : q = p := by
  have read := q.ofLine?_loginLine
  rw [← same, ofLine?_loginLine, if_pos clean] at read
  split at read
  · exact (Option.some.inj read).symm
  · cases read

end Plain

/-! ## What is written -/

theorem Turnout.said_logsIn {m : Mechanism} {deals : List Dealing} (h : logsIn m deals (.ok ())) :
    .said (loginLine m) ∈ deals := by
  cases h with
  | accepted heard =>
    cases heard
    exact List.mem_cons_self

/-- A login can write its line, the cancel that gives it up, and a greeting of a client that is not
introduced. -/
inductive LoginWrites (m : Mechanism) : Introduction → Bytes → Prop
  | line {i : Introduction} : LoginWrites m i (loginLine m)
  | cancel {i : Introduction} : LoginWrites m i (commandLine "*")
  | greeting {octets : Bytes} : IsGreeting Client.defaultName octets → LoginWrites m none octets

theorem Turnout.says_login (m : Mechanism) (i : Introduction) :
    ((introduces i).andThen (logsIn m)).Says (LoginWrites m i) := by
  have introduces : (introduces i).Says (LoginWrites m i) := by
    cases i with
    | none => exact says_introduces fun line mem => .greeting (isGreeting_of_mem mem)
    | some name =>
      rintro deals result ⟨⟩ x mem
      cases mem
  exact says_andThen introduces (says_logsIn .line .cancel)

namespace Connection

variable {c : Connection} {octets : Bytes}

/-- On a connection in order, what a dialogue writes first is written. -/
theorem goes_writing {α : Type} (failure : c.inbox.failure = none) (going : c.isOver = false)
    (next : Except Setback Unit → Dialogue α) :
    ∃ es, c.Goes (.wrote octets :: es) (c.run (.ask (.write octets) next)).1 := by
  have performed : c.perform (.write octets) = ((c.write octets).1, some (c.write octets).2) := rfl
  have wrote : c.Goes [.wrote octets] (c.write octets).1 := by
    have recorded : c.Goes [.wrote octets] (c.record (.wrote octets)) := (Goes.refl c).record rfl
    rw [write_going failure going]
    exact (Goes.steady c _).respond (fun _ h => h.elsewhere rfl rfl) recorded
  obtain ⟨es, -, goes⟩ := traced_run (next (c.write octets).2) (c.write octets).1
  refine ⟨es, ?_⟩
  rw [(dealings_ask performed).2]
  refine ⟨goes.timeout.trans wrote.timeout, ?_⟩
  rw [goes.own, wrote.own, List.append_assoc]
  rfl

end Connection

namespace Operation

/-- Whatever the connection: what a login writes, that the line is the first thing if the client is
introduced and the connection in order, and that a login that succeeds has written it. -/
theorem login_wrote (c : Connection) (caller : Caller) (m : Mechanism) :
    ∃ es, c.Goes es (c.run ((login m).dialogue caller)).1 ∧
      (∀ octets, .wrote octets ∈ es → LoginWrites m caller.introduction octets) ∧
      (caller.introduction ≠ none → c.inbox.failure = none → c.isOver = false →
        es.head? = some (.wrote (loginLine m))) ∧
      ∀ c' caller', c.run ((login m).dialogue caller) = (c', some (.ok (), caller')) →
        .wrote (loginLine m) ∈ es := by
  obtain ⟨es, traced, goes⟩ := Connection.traced_run ((login m).dialogue caller) c
  refine ⟨es, goes, ?_, ?_, ?_⟩
  · intro octets mem
    obtain ⟨pre, post, rfl⟩ := List.append_of_mem mem
    obtain ⟨first, answer, second, split, -⟩ := traced.wrote
    -- A login that waits for ever has made the first dealings of one that comes to an end.
    obtain ⟨more, ⟨result, caller'⟩, leads⟩ := Connection.leads_more ((login m).dialogue caller) c
    have turnout := leads_iff.1 ⟨caller', leads⟩
    have met : ⟨.write octets, answer⟩ ∈ c.dealings ((login m).dialogue caller) ++ more := by
      simp [split]
    exact says_login m _ _ _ turnout _ met octets rfl
  · intro introduced failure going
    obtain ⟨introduction, streams⟩ := caller
    cases introduction with
    | none => exact absurd rfl introduced
    | some name =>
      obtain ⟨next, begins⟩ : ∃ next, (login m).dialogue ⟨some name, streams⟩ =
        .ask (.write (loginLine m)) next := ⟨_, rfl⟩
      obtain ⟨rest, first⟩ := Connection.goes_writing failure going next
      rw [← begins] at first
      rw [List.append_cancel_left (goes.own.symm.trans first.own)]
      rfl
  · intro c' caller' ran
    have turnout := leads_iff.1 ⟨caller', Connection.leads_dealings ran⟩
    generalize c.dealings ((login m).dialogue caller) = deals at turnout traced
    cases turnout with
    | goesOn _ logged =>
      exact traced.wrote_of_said (List.mem_append_right _ (Turnout.said_logsIn logged))

end Operation

/-! ## In a session -/

/-- The line that logs a user in: for the user itself, with the password that it has. -/
def Accounts.lineFor (accounts : Accounts) (user : String) : Bytes :=
  loginLine (Plain.mechanism ⟨"", user, accounts.passwordFor user⟩)

variable {accounts : Accounts} {script : Script} {step : Step} {i j : Introduction} {octets : Bytes}
  {user : String}

theorem Script.Passed.said_line {deals : List Dealing} (h : Passed accounts i script deals j)
    (mem : .login user ∈ script) : .said (accounts.lineFor user) ∈ deals := by
  induction h with
  | nil => cases mem
  | command single succeeded _ ih =>
    obtain _ | ⟨_, mem⟩ := mem
    · cases single
      cases succeeded with
      | goesOn _ logged =>
        have said : Dealing.said (accounts.lineFor user) ∈ _ := Turnout.said_logsIn logged
        exact List.mem_append_left _ (List.mem_append_right _ said)
    · exact List.mem_append_right _ (ih mem)
  | header _ _ ih =>
    obtain _ | ⟨_, mem⟩ := mem
    exact List.mem_append_right _ (List.mem_cons_of_mem _ (ih mem))

/-- What a login says in a session. -/
theorem Step.Says.of_login (h : (Step.login user).Says accounts octets) :
    octets = accounts.lineFor user ∨ octets = commandLine "*" ∨ ∃ name, IsGreeting name octets := by
  cases h with
  | asks asks =>
    cases asks with
    | introduction _ mem => exact .inr (.inr ⟨_, isGreeting_of_mem mem⟩)
    | login => exact .inl rfl
  | cancels => exact .inr (.inl rfl)

theorem verb_auth (h : encode "AUTH " <+: octets) : verb octets = [65, 85] := by
  obtain ⟨rest, rfl⟩ := h
  rw [verb, List.take_append_of_le_length (by decide +kernel)]
  decide +kernel

/-- Only a login says something that begins with these octets. -/
theorem Step.Says.login_of_verb (h : step.Says accounts octets) (auth : verb octets = [65, 85]) :
    ∃ user, step = .login user ∧ octets = accounts.lineFor user := by
  have greets : ∀ {name line : String}, line ∈ greetings name → verb (commandLine line) ≠ [65, 85] := by
    intro name line mem same
    have among := verb_greeting (isGreeting_of_mem mem)
    rw [same] at among
    exact absurd among (by decide)
  cases h with
  | asks asks =>
    cases asks with
    | helo mem | introduction _ mem => exact absurd auth (greets mem)
    | @login user => exact ⟨user, rfl, rfl⟩
    | startTls | reset | header => exact absurd auth (by decide +kernel)
    | sender | recipient =>
      rw [String.append_assoc, verb_commandLine (by decide +kernel)] at auth
      exact absurd auth (by decide +kernel)
    | @body content s =>
      have unruled := unruled_endMark s content
      rw [Unruled, auth] at unruled
      exact absurd (by decide) unruled
  | cancels => exact absurd auth (by decide +kernel)

/-- What begins with them and is no content is written for a login. -/
theorem Step.Writes.login_of_verb {part : List Event} (h : step.Writes accounts part octets)
    (mem : step ∈ script) (plain : ¬ IsContent script octets) (auth : verb octets = [65, 85]) :
    ∃ user, step = .login user ∧ octets = accounts.lineFor user := by
  cases h with
  | command said => exact said.login_of_verb auth
  | header => exact absurd ⟨_, .inl mem, _, rfl⟩ plain
  | body s => exact absurd ⟨_, .inr mem, s, rfl⟩ plain
  | leave => exact absurd auth (by decide +kernel)

namespace Session

/-- A login is one line, from which a server reads the credentials back if no NUL is in them, so that
others never give the same line. This is what a client writes that logs in, on whatever connection. In
a session the logins that have passed have written the lines of their users, and whatever is written
that begins with `AUTH` and is no content is such a line, written for its login. -/
theorem login_recovered :
    (∀ p : Plain, IsLine (loginLine p.mechanism) ∧
      Plain.ofLine? (loginLine p.mechanism) = if p.Clean then some p else none) ∧
    (∀ p q : Plain, p.Clean → loginLine p.mechanism = loginLine q.mechanism → q = p) ∧
    (∀ (c : Connection) (caller : Caller) (p : Plain), ∃ es,
      c.Goes es (c.run ((Operation.login p.mechanism).dialogue caller)).1 ∧
        (∀ octets, .wrote octets ∈ es → LoginWrites p.mechanism caller.introduction octets) ∧
        (caller.introduction ≠ none → c.inbox.failure = none → c.isOver = false →
          es.head? = some (.wrote (loginLine p.mechanism))) ∧
        ∀ c' caller', c.run ((Operation.login p.mechanism).dialogue caller) =
          (c', some (.ok (), caller')) → .wrote (loginLine p.mechanism) ∈ es) ∧
    ∀ (route : Route) (accounts : Accounts) (script : Script) (peer : Peer),
      (∀ user, (⟨"", user, accounts.passwordFor user⟩ : Plain).Clean →
        Plain.ofLine? (accounts.lineFor user) = some ⟨"", user,
          if user = accounts.otherIdentity then accounts.otherPassword else accounts.common⟩) ∧
      ∀ pre octets post,
        (run route accounts script peer).history.filter Event.isOwn = pre ++ .wrote octets :: post →
        ∃ greeting before step after told part i, script = before ++ step :: after ∧
          pre = .took greeting :: (told ++ part) ∧ Script.Shown accounts before none told i ∧
          (∀ user, .login user ∈ before → .wrote (accounts.lineFor user) ∈ told) ∧
          (∀ user, step = .login user → octets = accounts.lineFor user ∨
            octets = commandLine "*" ∨ ∃ name, IsGreeting name octets) ∧
          (encode "AUTH " <+: octets → ¬ IsContent script octets →
            ∃ user, step = .login user ∧ octets = accounts.lineFor user) := by
  refine ⟨fun p => ⟨p.isLine_loginLine, p.ofLine?_loginLine⟩,
    fun p q clean same => Plain.eq_of_loginLine clean same,
    fun c caller p => Operation.login_wrote c caller p.mechanism, ?_⟩
  intro route accounts script peer
  constructor
  · intro user clean
    rw [Accounts.lineFor, Plain.ofLine?_loginLine, if_pos clean]
    rfl
  · intro pre octets post wrote
    have yields := yields_of_wrote wrote
    cases yields with
    | @step greeting before after step told part _ i _ _ shown writes =>
      refine ⟨greeting, before, step, after, told, part, i, rfl, rfl, shown, ?_, ?_, ?_⟩
      · intro user mem
        obtain ⟨deals, passed, traced⟩ := shown
        exact traced.wrote_of_said (passed.said_line mem)
      · rintro user rfl
        cases writes with
        | command said => exact said.of_login
      · intro auth plain
        exact writes.login_of_verb (by simp) plain (verb_auth auth)

/-- A server that lets the client in. -/
def openPeer : Peer where
  turns :=
    [[.sends (encode "220 hi\r\n")], [.sends (encode "250 ok\r\n")],
      [.sends (encode "235 in\r\n")]]

/-- Credentials with spaces, a line end and characters that are no ASCII, others that differ only in
where a part ends, and the session of a user with a password of its own. -/
theorem login_recovered_foreign :
    let p : Plain := ⟨"ü", "a b\r\n", "=é"⟩
    let script : Script := [.helo "me", .login "user2@example.com"]
    p.Clean ∧ Plain.ofLine? (loginLine p.mechanism) = some p ∧
      loginLine p.mechanism ≠ loginLine (Plain.mechanism ⟨"ü", "a", " b\r\n=é"⟩) ∧
      ∃ octets ∈ (run { timeout := { ms := 500 } } {} script openPeer).sent,
        (∃ user, .login user ∈ script ∧ octets = Accounts.lineFor {} user) ∧
        Plain.ofLine? octets = some ⟨"", "user2@example.com", "password2"⟩ := by
  intro p script
  obtain ⟨lines, distinct, -, sessions⟩ := login_recovered
  have clean : p.Clean := by decide +kernel
  have read := (lines p).2
  rw [if_pos clean] at read
  refine ⟨clean, read, fun same => absurd (distinct p _ clean same) (by decide +kernel), ?_⟩
  obtain ⟨recovered, attributed⟩ := sessions { timeout := { ms := 500 } } {} script openPeer
  let line := Accounts.lineFor {} "user2@example.com"
  let own := (run { timeout := { ms := 500 } } {} script openPeer).history.filter Event.isOwn
  have wrote : own = own.take 3 ++ .wrote line :: own.drop 4 := by decide +kernel
  have plain : ¬ IsContent script line := by
    rintro ⟨content, mem, -⟩
    simp [script] at mem
  obtain ⟨_, before, _, after, _, _, _, split, -, -, -, -, login⟩ := attributed _ _ _ wrote
  obtain ⟨user, rfl, same⟩ := login (by decide +kernel) plain
  refine ⟨line, by decide +kernel, ⟨user, by simp [split], same⟩, ?_⟩
  exact recovered "user2@example.com" (by decide +kernel)

end Session

end FilterBench
