import FilterBench.Proofs.Session.Fidelity

/-!
# Exchanges, and their order

A dealing that writes and one that takes a reply, one right after the other, are an exchange; content
is never answered, so that these are commands and their replies. `STARTTLS`, a login, a sender and a
reset are guarded: for these the client has to be known by a name. `Proper` says when a command may
come, and `Orderly` that all exchanges in some dealings do so; it is put together as the dealings are
(`Orderly.append`).
-/
namespace FilterBench
open Utf8 Turnout Session

/-! ## Telling commands apart -/

/-- The first two octets, by which commands are told apart. -/
def verb (octets : Bytes) : Bytes := octets.take 2

theorem verb_commandLine {word : String} (long : 2 ≤ (encode word).length) (rest : String) :
    verb (commandLine (word ++ rest)) = verb (encode word) := by
  rw [verb, commandLine, String.append_assoc, encode_append, List.take_append_of_le_length long, verb]

/-- The verbs of `STARTTLS`, `AUTH`, `MAIL` and `RSET`. -/
def guardedVerbs : List Bytes := [[83, 84], [65, 85], [77, 65], [82, 83]]

/-- The verbs of `EHLO` and `HELO`. -/
def greetingVerbs : List Bytes := [[69, 72], [72, 69]]

/-- Octets that are neither a guarded command nor a greeting. -/
def Unruled (octets : Bytes) : Prop := verb octets ∉ guardedVerbs ++ greetingVerbs

instance (octets : Bytes) : Decidable (Unruled octets) :=
  inferInstanceAs (Decidable (verb octets ∉ guardedVerbs ++ greetingVerbs))

/-- A command for which the client has to be known by a name. -/
inductive Guarded : Bytes → Prop
  | startTls : Guarded (commandLine "STARTTLS")
  | login (m : Mechanism) : Guarded (loginLine m)
  | sender (address : String) : Guarded (commandLine ("MAIL FROM:<" ++ address ++ ">"))
  | reset : Guarded (commandLine "RSET")

/-- The octets say a name in a greeting. -/
def IsGreeting (name : String) (octets : Bytes) : Prop :=
  octets = commandLine ("EHLO " ++ name) ∨ octets = commandLine ("HELO " ++ name)

theorem isGreeting_of_mem {name line : String} (mem : line ∈ greetings name) :
    IsGreeting name (commandLine line) := by
  simp only [greetings, List.mem_cons, List.not_mem_nil, or_false] at mem
  obtain rfl | rfl := mem
  · exact .inl rfl
  · exact .inr rfl

theorem verb_extended (name : String) : verb (commandLine ("EHLO " ++ name)) = [69, 72] :=
  verb_commandLine (by decide +kernel) name

theorem verb_old (name : String) : verb (commandLine ("HELO " ++ name)) = [72, 69] :=
  verb_commandLine (by decide +kernel) name

theorem verb_startTls : verb (commandLine "STARTTLS") = [83, 84] := by decide +kernel

theorem verb_login (m : Mechanism) : verb (loginLine m) = [65, 85] := by
  have first : verb (loginLine m) = verb (encode "AUTH ") := by
    rw [loginLine, String.append_assoc, String.append_assoc]
    exact verb_commandLine (by decide +kernel) _
  rw [first]
  decide +kernel

theorem verb_guarded {octets : Bytes} (h : Guarded octets) : verb octets ∈ guardedVerbs := by
  cases h with
  | startTls => simp [verb_startTls, guardedVerbs]
  | login m => simp [verb_login, guardedVerbs]
  | sender address =>
    rw [String.append_assoc, verb_commandLine (by decide +kernel)]
    decide +kernel
  | reset => decide +kernel

theorem verb_greeting {name : String} {octets : Bytes} (h : IsGreeting name octets) :
    verb octets ∈ greetingVerbs := by
  obtain rfl | rfl := h
  · rw [verb_extended]
    decide
  · rw [verb_old]
    decide

theorem Guarded.not_greeting {octets : Bytes} (h : Guarded octets) (name : String) :
    ¬ IsGreeting name octets := by
  intro greeting
  have apart : ∀ v ∈ guardedVerbs, v ∉ greetingVerbs := by decide
  exact apart _ (verb_guarded h) (verb_greeting greeting)

theorem Unruled.not_guarded {octets : Bytes} (h : Unruled octets) : ¬ Guarded octets :=
  fun guarded => h (List.mem_append_left _ (verb_guarded guarded))

theorem Unruled.not_greeting {octets : Bytes} (h : Unruled octets) (name : String) :
    ¬ IsGreeting name octets := fun greeting => h (List.mem_append_right _ (verb_greeting greeting))

/-! ## Exchanges -/

/-- No greeting is answered. -/
def Ungreeted (deals : List Dealing) : Prop :=
  ∀ pre octets r post, deals = pre ++ .said octets :: .got r :: post → ∀ name, ¬ IsGreeting name octets

/-- The last greeting that was answered gave this name, and was accepted. -/
def Welcome (deals : List Dealing) (name : String) : Prop :=
  ∃ pre octets r post, deals = pre ++ .said octets :: .got r :: post ∧ IsGreeting name octets ∧
    r.code = 250 ∧ Ungreeted post

/-- A client that gave a name is welcome under it. -/
def Acquainted (deals : List Dealing) (i : Introduction) : Prop :=
  ∀ name, i = some name → Welcome deals name

/-- Nothing is written any more. -/
def Quiet (deals : List Dealing) : Prop := ∀ octets answer, ⟨.write octets, answer⟩ ∉ deals

/-- Nothing is written until the channel is secure, then the name is given anew, and nothing follows
unless that greeting is accepted. -/
def GreetsAnew (name : String) (deals : List Dealing) : Prop :=
  Quiet deals ∨ ∃ answer rest,
    deals = .secured :: ⟨.write (commandLine ("EHLO " ++ name)), answer⟩ :: rest ∧
      (Quiet rest ∨ ∃ r rest', rest = .got r :: rest' ∧ r.code = 250)

/-- What was written may be written after these dealings, with those that follow the reply to it. -/
structure Proper (told : List Dealing) (octets : Bytes) (r : Reply) (post : List Dealing) :
    Prop where
  guarded : Guarded octets → ∃ name, Welcome told name
  old : ∀ name, octets = commandLine ("HELO " ++ name) → ∃ pre r',
    told = pre ++ [.said (commandLine ("EHLO " ++ name)), .got r'] ∧ r'.code ∈ [500, 502]
  secures : octets = commandLine "STARTTLS" → r.code = 220 →
    ∃ name, Welcome told name ∧ GreetsAnew name post

/-- Each exchange among some dealings is proper where it comes, if a channel can have answered so
before. -/
def Orderly (told deals more : List Dealing) : Prop :=
  ∀ pre octets r mid, deals = pre ++ .said octets :: .got r :: mid → (∀ x ∈ pre, x.Sound) →
    Proper (told ++ pre) octets r (mid ++ more)

/-- The dealings do not begin with a reply to something said before. -/
def Opens (deals : List Dealing) : Prop := ∀ r rest, deals ≠ .got r :: rest

section

variable {told first second more pre post deals : List Dealing} {octets : Bytes} {r : Reply}
  {name : String} {i j k : Introduction}

/-- An exchange among dealings is one among the first or among the second. -/
theorem exchange_cases (split : first ++ second = pre ++ .said octets :: .got r :: post)
    (opens : Opens second) :
    (∃ mid, first = pre ++ .said octets :: .got r :: mid ∧ post = mid ++ second) ∨
      ∃ mid, pre = first ++ mid ∧ second = mid ++ .said octets :: .got r :: post := by
  obtain ⟨mid, rfl⟩ | later := Script.split_cases split
  · rw [List.append_assoc, List.append_cancel_left_eq, List.cons_append] at split
    obtain ⟨-, rest⟩ := List.cons.inj split
    cases mid with
    | nil => exact absurd rest (opens r post)
    | cons x mid =>
      obtain ⟨rfl, rfl⟩ := List.cons.inj rest
      exact .inl ⟨mid, rfl, rfl⟩
  · exact .inr later

theorem opens_append (opens : Opens first) (opens' : Opens second) : Opens (first ++ second) := by
  cases first with
  | nil => exact opens'
  | cons x first =>
    intro r rest same
    obtain ⟨rfl, -⟩ := List.cons.inj same
    exact opens r first rfl

theorem opens_write {answer : Except Setback Unit} : Opens (⟨.write octets, answer⟩ :: deals) := by
  intro r rest same
  cases (List.cons.inj same).1

theorem Orderly.append (h : Orderly told first (second ++ more))
    (h' : Orderly (told ++ first) second more) (opens : Opens second) :
    Orderly told (first ++ second) more := by
  intro pre octets r post split sound
  obtain ⟨mid, same, rfl⟩ | ⟨mid, rfl, same⟩ := exchange_cases split opens
  · rw [List.append_assoc]
    exact h pre octets r mid same sound
  · rw [← List.append_assoc]
    exact h' mid octets r post same fun x mem => sound x (List.mem_append_right first mem)

/-- Where no greeting is answered, the last one is still the last. -/
theorem Welcome.append (h : Welcome told name) (opens : Opens deals) (ungreeted : Ungreeted deals) :
    Welcome (told ++ deals) name := by
  obtain ⟨pre, octets, r, post, rfl, greeting, accepted, last⟩ := h
  refine ⟨pre, octets, r, post ++ deals, by simp, greeting, accepted, ?_⟩
  intro pre' octets' r' post' split
  obtain ⟨mid, same, -⟩ | ⟨mid, -, same⟩ := exchange_cases split opens
  · exact last pre' octets' r' mid same
  · exact ungreeted mid octets' r' post' same

theorem Acquainted.append (h : Acquainted told i) (opens : Opens deals)
    (ungreeted : Ungreeted deals) : Acquainted (told ++ deals) i :=
  fun name given => (h name given).append opens ungreeted

/-- A greeting that is accepted is the last one. -/
theorem welcome_greeting (greeting : IsGreeting name octets) (accepted : r.code = 250) :
    Welcome (told ++ [.said octets, .got r]) name := by
  refine ⟨told, octets, r, [], rfl, greeting, accepted, ?_⟩
  intro pre' octets' r' post' split
  simp at split

theorem quiet_nil : Quiet [] := fun _ _ => List.not_mem_nil

theorem quiet_cons {x : Dealing} {deals : List Dealing} (other : ∀ octets, x.request ≠ .write octets)
    (quiet : Quiet deals) : Quiet (x :: deals) := by
  intro octets answer mem
  rw [List.mem_cons] at mem
  obtain rfl | mem := mem
  · exact other octets rfl
  · exact quiet octets answer mem

theorem orderly_quiet (quiet : Quiet deals) : Orderly told deals more := by
  rintro pre octets r mid rfl
  exact absurd (by simp) (quiet octets (.ok ()))

theorem Quiet.of_append (quiet : Quiet (first ++ second)) : Quiet first :=
  fun octets answer mem => quiet octets answer (List.mem_append_left second mem)

theorem GreetsAnew.of_append (h : GreetsAnew name (first ++ second)) : GreetsAnew name first := by
  obtain quiet | ⟨answer, rest, same, after⟩ := h
  · exact .inl quiet.of_append
  obtain ⟨rfl, -⟩ | ⟨_, rfl, greets⟩ := List.append_eq_cons_iff.1 same
  · exact .inl quiet_nil
  obtain ⟨rfl, -⟩ | ⟨left, rfl, rfl⟩ := List.append_eq_cons_iff.1 greets.symm
  · exact .inl (quiet_cons (by simp) quiet_nil)
  refine .inr ⟨answer, left, rfl, ?_⟩
  obtain quiet | ⟨r, _, answered, accepted⟩ := after
  · exact .inl quiet.of_append
  obtain ⟨rfl, -⟩ | ⟨rest, rfl, -⟩ := List.append_eq_cons_iff.1 answered
  · exact .inl quiet_nil
  · exact .inr ⟨r, rest, rfl, accepted⟩

/-! ## Saying something and hearing the reply -/

theorem opens_hears {result : Except Setback Reply} (heard : Hears octets deals result) :
    Opens deals := by
  cases heard <;> exact opens_write

/-- What is heard is one exchange at most. -/
theorem exchange_of_hears {octets' : Bytes} {result : Except Setback Reply}
    (heard : Hears octets' deals result) (split : deals = pre ++ .said octets :: .got r :: post) :
    pre = [] ∧ octets = octets' ∧ result = .ok r ∧ post = [] := by
  cases heard with
  | unsaid s =>
    have length := congrArg List.length split
    simp at length
    omega
  | unanswered s =>
    cases pre with
    | nil =>
      obtain ⟨-, rest⟩ := List.cons.inj split
      cases (List.cons.inj rest).1
    | cons x pre =>
      have length := congrArg List.length split
      simp at length
      omega
  | answered r' =>
    cases pre with
    | nil =>
      cases split
      exact ⟨rfl, rfl, rfl, rfl⟩
    | cons x pre =>
      have length := congrArg List.length split
      simp at length
      omega

theorem orderly_hears {result : Except Setback Reply} (heard : Hears octets deals result)
    (proper : ∀ r, result = .ok r → Proper told octets r more) : Orderly told deals more := by
  intro pre octets' r mid split _
  obtain ⟨rfl, rfl, answered, rfl⟩ := exchange_of_hears heard split
  rw [List.append_nil]
  exact proper r answered

theorem ungreeted_hears {result : Except Setback Reply} (heard : Hears octets deals result)
    (other : ∀ name, ¬ IsGreeting name octets) : Ungreeted deals := by
  intro pre octets' r post split
  obtain ⟨-, rfl, -⟩ := exchange_of_hears heard split
  exact other

theorem hears_of_asks {codes : List ℕ} {result : Except Setback Unit}
    (asked : asks octets codes deals result) : ∃ heard, Hears octets deals heard := by
  cases asked with
  | fails heard => exact ⟨_, heard⟩
  | refused heard => exact ⟨_, heard⟩
  | accepted heard => exact ⟨_, heard⟩

theorem opens_asks {codes : List ℕ} {result : Except Setback Unit}
    (asked : asks octets codes deals result) : Opens deals := by
  obtain ⟨_, heard⟩ := hears_of_asks asked
  exact opens_hears heard

/-- A command is orderly where it is proper whatever the reply. -/
theorem orderly_asks {codes : List ℕ} {result : Except Setback Unit}
    (asked : asks octets codes deals result) (proper : ∀ r, Proper told octets r more) :
    Orderly told deals more := by
  obtain ⟨_, heard⟩ := hears_of_asks asked
  exact orderly_hears heard fun r _ => proper r

/-- What is neither a guarded command nor an old greeting may be said at any time. -/
theorem proper_free (unguarded : ¬ Guarded octets)
    (other : ∀ name, octets ≠ commandLine ("HELO " ++ name)) : Proper told octets r post := by
  constructor
  · exact fun guarded => absurd guarded unguarded
  · exact fun name old => absurd old (other name)
  · rintro rfl
    exact absurd .startTls unguarded

theorem Unruled.proper (unruled : Unruled octets) : Proper told octets r post :=
  proper_free unruled.not_guarded fun name old => unruled.not_greeting name (.inr old)

/-- The extended greeting may be said at any time. -/
theorem proper_extended (name : String) :
    Proper told (commandLine ("EHLO " ++ name)) r post := by
  apply proper_free
  · intro guarded
    exact guarded.not_greeting name (.inl rfl)
  · intro name' same
    have verbs := congrArg verb same
    rw [verb_extended, verb_old] at verbs
    simp at verbs

/-- A guarded command, other than `STARTTLS`, may be said by a client that is welcome. -/
theorem proper_guarded (guarded : Guarded octets) (other : octets ≠ commandLine "STARTTLS")
    (welcome : Welcome told name) : Proper told octets r post := by
  constructor
  · exact fun _ => ⟨name, welcome⟩
  · exact fun name' old => absurd (.inr old) (guarded.not_greeting name')
  · exact fun same => absurd same other

end

end FilterBench
