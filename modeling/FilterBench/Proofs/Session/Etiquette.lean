import FilterBench.Proofs.Session.Attending
import FilterBench.Proofs.Session.Exchanges

/-!
# Greetings come first

A command that needs a name greets, and goes on only if the greeting is accepted; after `STARTTLS` the
client greets anew. Nothing in a client tells whether its greeting was accepted, only that it gave a
name: that no command comes after a greeting that was refused is due to the session, which a refusal
ends. So a command is `Mannerly` if it keeps to the order wherever it comes, provided that nothing
is written after it when it fails; and a session is orderly as a whole (`Session.greetings_first`).
-/
namespace FilterBench
open Utf8 Turnout Session

/-! ## Commands -/

/-- A command that keeps to the order wherever it comes. If it fails, nothing is written after it. -/
structure Mannerly (P : Turnout) (i j : Introduction) : Prop where
  opens : ∀ {deals result}, P deals result → Opens deals
  orderly : ∀ {told deals more result}, P deals result → Acquainted told i →
    (result = .ok () ∨ Quiet more) → Orderly told deals more
  acquainted : ∀ {told deals}, P deals (.ok ()) → Acquainted told i → Acquainted (told ++ deals) j

section

variable {P Q : Turnout} {i j k : Introduction} {octets : Bytes} {codes : List ℕ} {name : String}

theorem mannerly_andThen (first : Mannerly P i j) (second : Mannerly Q j k) :
    Mannerly (P.andThen Q) i k := by
  constructor
  · rintro deals result (⟨failed⟩ | ⟨succeeded, turnout⟩)
    · exact first.opens failed
    · exact opens_append (first.opens succeeded) (second.opens turnout)
  · rintro told deals more result (⟨failed⟩ | ⟨succeeded, turnout⟩) acquainted ends
    · exact first.orderly failed acquainted (.inr (ends.resolve_left (by simp)))
    · have known := first.acquainted succeeded acquainted
      exact (first.orderly succeeded acquainted (.inl rfl)).append
        (second.orderly turnout known ends) (second.opens turnout)
  · rintro told deals (_ | ⟨succeeded, turnout⟩) acquainted
    rw [← List.append_assoc]
    exact second.acquainted turnout (first.acquainted succeeded acquainted)

/-- A command that is no greeting, if it is proper where the client is acquainted. -/
theorem mannerly_asks (other : ∀ name, ¬ IsGreeting name octets)
    (proper : ∀ {told r post}, Acquainted told i → Proper told octets r post) :
    Mannerly (asks octets codes) i i := by
  constructor
  · exact opens_asks
  · intro told deals more result asked acquainted _
    exact orderly_asks asked fun r => proper acquainted
  · intro told deals asked acquainted
    obtain ⟨_, heard⟩ := hears_of_asks asked
    exact acquainted.append (opens_hears heard) (ungreeted_hears heard other)

theorem mannerly_unruled (unruled : Unruled octets) (i : Introduction) :
    Mannerly (asks octets codes) i i :=
  mannerly_asks unruled.not_greeting fun _ => unruled.proper

theorem mannerly_guarded (guarded : Guarded octets) (other : octets ≠ commandLine "STARTTLS")
    (name : String) : Mannerly (asks octets codes) (some name) (some name) :=
  mannerly_asks guarded.not_greeting fun acquainted =>
    proper_guarded guarded other (acquainted name rfl)

/-- The extended greeting, once it is known how to greet. -/
theorem mannerly_extended (name : String) :
    Mannerly (command ("EHLO " ++ name) [250]) i (some name) := by
  constructor
  · exact opens_asks
  · intro told deals more result asked _ _
    exact orderly_asks asked fun r => proper_extended name
  · rintro told deals (_ | _ | ⟨⟨⟩, mem⟩) _ _ ⟨⟩
    exact welcome_greeting (.inl rfl) (List.mem_singleton.1 mem)

/-- A greeting that is refused is one exchange. -/
theorem refused_of_asks {deals : List Dealing} {r : Reply}
    (asked : asks octets codes deals (.error (.refused r))) (sound : ∀ x ∈ deals, x.Sound) :
    deals = [.said octets, .got r] := by
  cases asked with
  | fails heard => exact absurd heard (Hears.not_refused sound)
  | refused heard =>
    cases heard
    rfl

theorem orderly_old {told first second more : List Dealing} {r : Reply}
    {result : Except Setback Unit}
    (extended : command ("EHLO " ++ name) [250] first (.error (.refused r)))
    (unknown : r.code ∈ [500, 502]) (old : command ("HELO " ++ name) [250] second result) :
    Orderly told (first ++ second) more := by
  intro pre octets r' post split sound
  obtain ⟨_, heard⟩ := hears_of_asks extended
  obtain ⟨_, heard'⟩ := hears_of_asks old
  obtain ⟨mid, same, rfl⟩ | ⟨mid, rfl, same⟩ := exchange_cases split (opens_hears heard')
  · obtain ⟨-, rfl, -⟩ := exchange_of_hears heard same
    exact proper_extended name
  · obtain ⟨rfl, rfl, -⟩ := exchange_of_hears heard' same
    rw [List.append_nil] at sound ⊢
    obtain rfl := refused_of_asks extended sound
    constructor
    · exact fun guarded => absurd (.inr rfl) (guarded.not_greeting name)
    · intro name' line
      obtain rfl : name = name' := by
        have text := congrArg String.toList (commandLine_inj line)
        simp only [String.toList_append, List.append_cancel_left_eq] at text
        exact String.toList_injective text
      exact ⟨told, r, rfl, unknown⟩
    · exact fun line => absurd (.inr line.symm) (Guarded.startTls.not_greeting name)

theorem mannerly_greets (name : String) : Mannerly (greets name) i (some name) := by
  have extended : Mannerly (command ("EHLO " ++ name) [250]) i (some name) := mannerly_extended name
  constructor
  · rintro deals result (⟨turnout, _⟩ | ⟨first, _, second⟩)
    · exact extended.opens turnout
    · exact opens_append (extended.opens first) (opens_asks second)
  · rintro told deals more result (⟨turnout, _⟩ | ⟨first, unknown, second⟩) acquainted ends
    · exact extended.orderly turnout acquainted ends
    · exact orderly_old first unknown second
  · rintro told deals (⟨turnout, _⟩ | ⟨first, unknown, _ | _ | ⟨⟨⟩, mem⟩⟩) acquainted
    · exact extended.acquainted turnout acquainted
    · rintro _ ⟨⟩
      rw [← List.append_assoc]
      exact welcome_greeting (.inr rfl) (List.mem_singleton.1 mem)

theorem mannerly_introduces (i : Introduction) :
    Mannerly (introduces i) i (some (introduced i)) := by
  have greets : Mannerly (greets Client.defaultName) i (some Client.defaultName) :=
    mannerly_greets Client.defaultName
  constructor
  · rintro deals result (_ | turnout)
    · intro r rest same
      cases same
    · exact greets.opens turnout
  · rintro told deals more result (_ | turnout) acquainted ends
    · exact orderly_quiet quiet_nil
    · exact greets.orderly turnout acquainted ends
  · rintro told deals (known | turnout) acquainted
    · rw [List.append_nil]
      exact acquainted
    · exact greets.acquainted turnout acquainted

theorem mannerly_logsIn (m : Mechanism) (name : String) :
    Mannerly (logsIn m) (some name) (some name) := by
  have guarded : Guarded (loginLine m) := .login m
  have other : loginLine m ≠ commandLine "STARTTLS" := by
    intro same
    have verbs := congrArg verb same
    rw [verb_login, verb_startTls] at verbs
    simp at verbs
  have cancel : Unruled (commandLine "*") := by decide +kernel
  have said : ∀ {told first more : List Dealing} {heard : Except Setback Reply},
      Hears (loginLine m) first heard → Acquainted told (some name) → Orderly told first more :=
    fun heard acquainted => orderly_hears heard fun _ _ =>
      proper_guarded guarded other (acquainted name rfl)
  have both : ∀ {told first second more : List Dealing} {heard heard' : Except Setback Reply},
      Hears (loginLine m) first heard → Hears (commandLine "*") second heard' →
      Acquainted told (some name) → Orderly told (first ++ second) more :=
    fun heard heard' acquainted => (said heard acquainted).append
      (orderly_hears heard' fun _ _ => cancel.proper) (opens_hears heard')
  constructor
  · rintro deals result (⟨heard⟩ | ⟨heard, _, heard'⟩ | ⟨heard, _, heard'⟩ | ⟨heard, _⟩ | ⟨heard, _⟩)
    · exact opens_hears heard
    · exact opens_append (opens_hears heard) (opens_hears heard')
    · exact opens_append (opens_hears heard) (opens_hears heard')
    · exact opens_hears heard
    · exact opens_hears heard
  · rintro told deals more result
      (⟨heard⟩ | ⟨heard, _, heard'⟩ | ⟨heard, _, heard'⟩ | ⟨heard, _⟩ | ⟨heard, _⟩) acquainted _
    · exact said heard acquainted
    · exact both heard heard' acquainted
    · exact both heard heard' acquainted
    · exact said heard acquainted
    · exact said heard acquainted
  · rintro told deals (_ | _ | _ | _ | ⟨heard, _⟩) acquainted
    exact acquainted.append (opens_hears heard) (ungreeted_hears heard guarded.not_greeting)

/-! ## Changing to a secure channel -/

theorem opens_secures {deals : List Dealing} {result : Except Setback Unit}
    (h : secures deals result) : Opens deals := by
  obtain rfl := h
  intro r rest same
  cases (List.cons.inj same).1

theorem quiet_secures {deals : List Dealing} {result : Except Setback Unit}
    (h : secures deals result) : Quiet deals := by
  obtain rfl := h
  exact quiet_cons (by simp) quiet_nil

/-- What comes of a change of the channel, and of the greeting after it. -/
theorem greetsAnew_of_secures {deals more : List Dealing} {result : Except Setback Unit}
    (h : (secures.andThen (command ("EHLO " ++ name) [250])) deals result)
    (ends : result = .ok () ∨ Quiet more) : GreetsAnew name (deals ++ more) := by
  cases h with
  | fails failed =>
    obtain rfl := failed
    exact .inl (quiet_cons (by simp) (ends.resolve_left (by simp)))
  | goesOn done asked =>
    obtain rfl := done
    cases asked with
    | fails heard =>
      have quiet : Quiet more := ends.resolve_left (by simp)
      cases heard with
      | unsaid => exact .inr ⟨_, more, rfl, .inl quiet⟩
      | unanswered => exact .inr ⟨.ok (), _, rfl, .inl (quiet_cons (by simp) quiet)⟩
    | @refused _ r heard _ =>
      have quiet : Quiet more := ends.resolve_left (by simp)
      cases heard
      exact .inr ⟨.ok (), .got r :: more, rfl, .inl (quiet_cons (by simp) quiet)⟩
    | @accepted _ r heard mem =>
      cases heard
      exact .inr ⟨.ok (), .got r :: more, rfl, .inr ⟨r, more, rfl, List.mem_singleton.1 mem⟩⟩

/-- `STARTTLS`, the change of the channel and the greeting after it. -/
def startsOver (name : String) : Turnout :=
  (command "STARTTLS" [220]).andThen (secures.andThen (command ("EHLO " ++ name) [250]))

theorem opens_changed {deals : List Dealing} {result : Except Setback Unit}
    (h : (secures.andThen (command ("EHLO " ++ name) [250])) deals result) : Opens deals := by
  cases h with
  | fails failed => exact opens_secures failed
  | goesOn done asked => exact opens_append (opens_secures done) (opens_asks asked)

theorem orderly_startsOver {told deals more : List Dealing} {result : Except Setback Unit}
    (h : startsOver name deals result) (welcome : Welcome told name)
    (ends : result = .ok () ∨ Quiet more) : Orderly told deals more := by
  have unlike : ∀ name', commandLine "STARTTLS" ≠ commandLine ("HELO " ++ name') :=
    fun name' same => Guarded.startTls.not_greeting name' (.inr same)
  -- Whatever follows an answer to the command that accepts it begins with the change of the channel.
  have proper : ∀ {r : Reply} {post : List Dealing}, (r.code = 220 → GreetsAnew name post) →
      Proper told (commandLine "STARTTLS") r post := fun anew =>
    ⟨fun _ => ⟨name, welcome⟩, fun name' same => absurd same (unlike name'),
      fun _ code => ⟨name, welcome, anew code⟩⟩
  cases h with
  | fails failed =>
    cases failed with
    | fails heard =>
      refine orderly_hears heard fun r answered => ?_
      cases answered
    | refused heard other =>
      refine orderly_hears heard fun r answered => proper fun code => ?_
      cases answered
      simp [code] at other
  | goesOn asked rest =>
    obtain ⟨_, heard⟩ := hears_of_asks asked
    refine Orderly.append (orderly_hears heard fun r _ => proper fun _ => ?_) ?_
      (opens_changed rest)
    · exact greetsAnew_of_secures rest ends
    · cases rest with
      | fails failed => exact orderly_quiet (quiet_secures failed)
      | goesOn done asked' =>
        exact Orderly.append (orderly_quiet (quiet_secures done))
          (orderly_asks asked' fun r => proper_extended name) (opens_asks asked')

theorem mannerly_startsOver (name : String) : Mannerly (startsOver name) (some name) (some name) := by
  constructor
  · intro deals result h
    cases h with
    | fails failed => exact opens_asks failed
    | goesOn asked rest => exact opens_append (opens_asks asked) (opens_changed rest)
  · intro told deals more result h acquainted ends
    exact orderly_startsOver h (acquainted name rfl) ends
  · intro told deals h acquainted
    cases h with
    | goesOn asked rest =>
      cases rest with
      | goesOn done asked' =>
        rw [← List.append_assoc, ← List.append_assoc]
        exact (mannerly_extended (i := none) name).acquainted asked' (by simp [Acquainted])

theorem mannerly_startsTls (i : Introduction) :
    Mannerly (startsTls i) i (some (introduced i)) :=
  mannerly_andThen (mannerly_introduces i) (mannerly_startsOver (introduced i))

theorem mannerly_command {accounts : Accounts} {step : Step} {c : Command}
    (single : step.command? accounts i = some c) : Mannerly c.turnout i c.name := by
  have introduces := mannerly_introduces i
  cases step with
  | helo name =>
    cases single
    exact mannerly_greets name
  | startTls =>
    cases single
    exact mannerly_startsTls i
  | login user =>
    cases single
    exact mannerly_andThen introduces (mannerly_logsIn _ _)
  | sender address =>
    cases single
    refine mannerly_andThen introduces (mannerly_guarded (.sender address) ?_ _)
    intro same
    simpa using congrArg String.toList (commandLine_inj same)
  | recipient address =>
    cases single
    refine mannerly_unruled ?_ i
    rw [Unruled, String.append_assoc, verb_commandLine (by decide +kernel)]
    decide +kernel
  | reset =>
    cases single
    refine mannerly_andThen introduces (mannerly_guarded .reset ?_ _)
    intro same
    simpa using congrArg String.toList (commandLine_inj same)
  | header content => cases single
  | body content => cases single
  | unknown kind => cases single

end

/-! ## Scripts and sessions -/

section

variable {accounts : Accounts} {script : Script} {i : Introduction} {stream : Option Stuffing}
  {told deals : List Dealing} {e : Ending}

theorem quiet_closed : Quiet [.closed] := quiet_cons (by simp) quiet_nil

theorem unruled_endMark (s : Stuffing) (content : Bytes) : Unruled (s.endMark content) := by
  rw [Stuffing.endMark, Stuffing.finish]
  split
  · decide
  · decide

/-- One thing that is said, and nothing that answers it. -/
theorem exchangeless_write {octets octets' : Bytes} {answer : Except Setback Unit} {r : Reply}
    {pre post : List Dealing} : [⟨.write octets, answer⟩] ≠ pre ++ .said octets' :: .got r :: post := by
  intro split
  have length := congrArg List.length split
  simp at length
  omega

theorem orderly_write {octets : Bytes} {answer : Except Setback Unit} {more : List Dealing} :
    Orderly told [⟨.write octets, answer⟩] more :=
  fun _ _ _ _ split => absurd split exchangeless_write

theorem Acquainted.write {octets : Bytes} {answer : Except Setback Unit} (h : Acquainted told i) :
    Acquainted (told ++ [⟨.write octets, answer⟩]) i :=
  h.append opens_write fun _ _ _ _ split => absurd split exchangeless_write

theorem mannerly_data (i : Introduction) : Mannerly (command "DATA" [354]) i i :=
  mannerly_unruled (by decide +kernel) i

theorem opens_quiet {x : Dealing} {rest : List Dealing} (other : x.request ≠ .await) :
    Opens (x :: rest) := by
  rintro r rest' same
  obtain ⟨rfl, -⟩ := List.cons.inj same
  exact other rfl

theorem orderly_leaves {more : List Dealing} (h : Leaves deals) :
    Orderly told deals more ∧ Opens deals := by
  have unruled : Unruled (commandLine "QUIT") := by decide +kernel
  -- After the reply to it nothing is written.
  have parts : ∃ first rest heard, deals = first ++ .closed :: rest ∧
      Hears (commandLine "QUIT") first heard ∧ Quiet rest := by
    cases h with
    | answered asked =>
      obtain ⟨_, heard⟩ := hears_of_asks asked
      exact ⟨_, _, _, rfl, heard, quiet_nil⟩
    | remarked asked =>
      obtain ⟨_, heard⟩ := hears_of_asks asked
      exact ⟨_, _, _, rfl, heard, quiet_cons (by simp) quiet_nil⟩
  obtain ⟨first, rest, _, rfl, heard, quiet⟩ := parts
  have opens : Opens (.closed :: rest) := opens_quiet (by simp)
  refine ⟨?_, opens_append (opens_hears heard) opens⟩
  exact (orderly_hears heard fun r _ => unruled.proper).append
    (orderly_quiet (quiet_cons (by simp) quiet)) opens

theorem Script.Plays.orderly (h : script.Plays accounts i stream deals e)
    (acquainted : Acquainted told i) : Orderly told deals [.closed] ∧ Opens deals := by
  have none : ∀ {told : List Dealing}, Orderly told [] [.closed] ∧ Opens [] :=
    ⟨orderly_quiet quiet_nil, fun _ _ same => by cases same⟩
  have ends : ∀ {told second : List Dealing} {s : Stuffing} {content : Bytes}
      {result : Except Setback Unit} {more : List Dealing}, asks (s.endMark content) [250] second result →
      Orderly told second more ∧ Opens second := by
    intro told second s content result more asked
    exact ⟨orderly_asks asked fun r => (unruled_endMark s content).proper, opens_asks asked⟩
  induction h generalizing told with
  | exhausted | unknown | streamless => exact none
  | goesOn single succeeded _ ih =>
    have command := mannerly_command single
    obtain ⟨orderly, opens⟩ := ih (command.acquainted succeeded acquainted)
    exact ⟨(command.orderly succeeded acquainted (.inl rfl)).append orderly opens,
      opens_append (command.opens succeeded) opens⟩
  | fails single failed =>
    have command := mannerly_command single
    exact ⟨command.orderly failed acquainted (.inr quiet_closed), command.opens failed⟩
  | @unopened i _ _ _ _ _ asked =>
    have data := mannerly_data i
    exact ⟨data.orderly asked acquainted (.inr quiet_closed), data.opens asked⟩
  | @untold i _ _ _ _ _ asked =>
    have data := mannerly_data i
    exact ⟨(data.orderly asked acquainted (.inl rfl)).append orderly_write opens_write,
      opens_append (data.opens asked) opens_write⟩
  | @opened i _ _ _ first second _ asked _ ih =>
    have data := mannerly_data i
    obtain ⟨orderly, opens⟩ := ih (data.acquainted asked acquainted).write
    have written := orderly_write.append orderly opens
    exact ⟨(data.orderly asked acquainted (.inl rfl)).append written opens_write,
      opens_append (data.opens asked) opens_write⟩
  | unfilled => exact ⟨orderly_write, opens_write⟩
  | unaccepted asked =>
    obtain ⟨orderly, opens⟩ := ends asked
    exact ⟨orderly_write.append orderly opens, opens_write⟩
  | accepted asked leaves =>
    obtain ⟨orderly, opens⟩ := ends asked
    obtain ⟨orderly', opens'⟩ := orderly_leaves leaves
    exact ⟨orderly_write.append (orderly.append orderly' opens') (opens_append opens opens'),
      opens_write⟩

end

namespace Session

variable {route : Route} {accounts : Accounts} {script : Script} {peer : Peer}
  {pre post deals : List Dealing} {octets : Bytes} {e : Ending}

theorem Passes.orderly (h : Passes accounts script deals e) : Orderly [] deals [] := by
  cases h with
  | unanswered | unwelcome =>
    exact orderly_quiet (quiet_cons (by simp) (quiet_cons (by simp) quiet_nil))
  | @greeted greeting deals e _ plays =>
    have unknown : Acquainted [.got greeting] none := fun _ given => by cases given
    obtain ⟨orderly, opens⟩ := plays.orderly unknown
    have closed : Opens [.closed] := opens_quiet (by simp)
    have played : Orderly [.got greeting] (deals ++ [.closed]) [] :=
      orderly.append (orderly_quiet quiet_closed) closed
    have first : Orderly [] [.got greeting] ((deals ++ [.closed]) ++ []) :=
      orderly_quiet (quiet_cons (by simp) quiet_nil)
    exact first.append played (opens_append opens closed)

/-- After these dealings the session writes the octets, and is to wait for a reply to them: it says a
command, or ends the message. -/
def Asks (accounts : Accounts) (script : Script) (deals : List Dealing) (octets : Bytes) : Prop :=
  ∃ next next', Leads (dialogue accounts script) deals (.ask (.write octets) next) ∧
    next (.ok ()) = .ask .await next'

/-- What a session asks after dealings that a channel can have is proper there. -/
theorem Asks.proper (h : Asks accounts script pre octets) (sound : ∀ x ∈ pre, x.Sound) (r : Reply) :
    ∃ post, Proper pre octets r post := by
  obtain ⟨next, next', leads, waits⟩ := h
  -- Some session goes on here with this reply.
  have answered : Leads (.ask (.write octets) next) [.said octets, .got r] (next' (.ok r)) := by
    refine .step (q := .write octets) (Except.ok ()) ?_
    rw [waits]
    exact .step (q := .await) (Except.ok r) (.here _)
  obtain ⟨more, e, ends⟩ := (next' (.ok r)).leads_done
  have passes := passes_of_leads ((leads.append answered).append ends)
  refine ⟨more ++ [], passes.orderly pre octets r more ?_ sound⟩
  simp

/-- The dealings of a session are what its history shows, and whatever it writes in them but content it
asks for a reply to. A guarded command comes only when the last greeting was accepted, and the old
greeting right after the extended one with the same name, if that was not known. When `STARTTLS` is
accepted, nothing is written until the channel is secure, then the extended greeting with the last
name, and nothing more unless that is accepted. -/
theorem greetings_first (route : Route) (accounts : Accounts) (script : Script) (peer : Peer) :
    let deals := dealings route accounts script peer
    Traced deals ((run route accounts script peer).history.filter Event.isOwn) ∧
      (∀ pre octets answer post, deals = pre ++ ⟨.write octets, answer⟩ :: post →
        IsContent script octets ∨ Asks accounts script pre octets) ∧
      (∀ pre octets answer post, deals = pre ++ ⟨.write octets, answer⟩ :: post →
        Asks accounts script pre octets →
          (Guarded octets → ∃ name, Welcome pre name) ∧
          ∀ name, octets = commandLine ("HELO " ++ name) → ∃ before r,
            pre = before ++ [.said (commandLine ("EHLO " ++ name)), .got r] ∧
              r.code ∈ [500, 502]) ∧
      ∀ pre r post, deals = pre ++ .said (commandLine "STARTTLS") :: .got r :: post →
        r.code = 220 → ∃ name, Welcome pre name ∧ GreetsAnew name post := by
  intro deals
  have sound : ∀ x ∈ deals, x.Sound := sound_dealings
  have before : ∀ {pre post : List Dealing} {x : Dealing}, deals = pre ++ x :: post →
      ∀ x ∈ pre, x.Sound := fun split x mem => sound x (by simp [split, mem])
  refine ⟨traced_history, ?_, ?_, ?_⟩
  · intro pre octets answer post split
    have met : ⟨.write octets, answer⟩ ∈ deals := by simp [split]
    obtain ⟨more, e, passes⟩ := passes_dealings met
    have leads := leads_of_passes passes
    rw [show dealings route accounts script peer = _ from split, List.append_assoc] at leads
    obtain ⟨next, leads, -⟩ := leads.at_dealing
    obtain content | ⟨next', waits⟩ := ((attends_dialogue accounts script).leads leads).write
    · exact .inl content
    · exact .inr ⟨next, next', leads, waits⟩
  · intro pre octets answer post split asks
    obtain ⟨_, proper⟩ := asks.proper (before split) default
    exact ⟨proper.guarded, proper.old⟩
  · intro pre r post split code
    have met : .got r ∈ deals := by simp [split]
    obtain ⟨more, e, passes⟩ := passes_dealings met
    have same : deals ++ more = pre ++ .said (commandLine "STARTTLS") :: .got r :: (post ++ more) := by
      rw [split]
      simp
    have proper := passes.orderly pre _ r (post ++ more) same (before split)
    rw [List.append_nil] at proper
    obtain ⟨name, welcome, anew⟩ := proper.secures rfl code
    exact ⟨name, welcome, anew.of_append⟩

/-- A server that knows only the old greeting until the channel is secure. -/
theorem greetings_first_upgrade :
    let deals := dealings { timeout := { ms := 30 } } {} [.helo "me", .startTls, .sender "me@a"] upgradePeer
    (∃ before r, deals.take 3 = before ++ [.said (commandLine ("EHLO " ++ "me")), .got r] ∧
        r.code ∈ [500, 502]) ∧
      (∃ name, Welcome (deals.take 5) name ∧ GreetsAnew name (deals.drop 7)) ∧
      ∃ name, Welcome (deals.take 10) name := by
  intro deals
  obtain ⟨-, writes, commands, secures⟩ := greetings_first { timeout := { ms := 30 } } {}
    [.helo "me", .startTls, .sender "me@a"] upgradePeer
  have asked : ∀ pre octets post, deals = pre ++ .said octets :: post →
      Asks {} [.helo "me", .startTls, .sender "me@a"] pre octets := by
    intro pre octets post split
    refine (writes pre octets _ post split).resolve_left ?_
    rintro ⟨content, mem, -⟩
    simp at mem
  have old : deals = deals.take 3 ++ .said (commandLine ("HELO " ++ "me")) :: deals.drop 4 := by
    decide +kernel
  have sender : deals = deals.take 10 ++
      .said (commandLine ("MAIL FROM:<" ++ "me@a" ++ ">")) :: deals.drop 11 := by
    decide +kernel
  have upgrade : deals = deals.take 5 ++
      .said (commandLine "STARTTLS") :: .got ⟨220, ["go on".toList]⟩ :: deals.drop 7 := by
    decide +kernel
  refine ⟨?_, ?_, ?_⟩
  · exact (commands _ _ _ _ old (asked _ _ _ old)).2 "me" rfl
  · exact secures _ _ _ upgrade rfl
  · exact (commands _ _ _ _ sender (asked _ _ _ sender)).1 (.sender "me@a")

end Session

end FilterBench
