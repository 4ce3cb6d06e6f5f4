import FilterBench.Proofs.Session.Dealings
import FilterBench.Proofs.Session.Refinement

/-!
# How commands and scripts turn out

A `Turnout` says which dealings a command can have, and with which result. Each command of the
client has one (`Turns`), and a script plays command after command until one of them fails or the
message is accepted (`Script.Plays`). Nothing is assumed of the answers: what a connection would
never answer is a turnout too.
-/
namespace FilterBench
open Utf8

/-- Octets are written, and the reply to them is awaited. -/
inductive Hears (octets : Bytes) : List Dealing → Except Setback Reply → Prop
  | unsaid (s : Setback) : Hears octets [⟨.write octets, .error s⟩] (.error s)
  | unanswered (s : Setback) : Hears octets [.said octets, ⟨.await, .error s⟩] (.error s)
  | answered (r : Reply) : Hears octets [.said octets, .got r] (.ok r)

abbrev Turnout := List Dealing → Except Setback Unit → Prop

/-- The octets of a command line. -/
def commandLine (line : String) : Bytes := encode (line ++ "\r\n")

def loginLine (m : Mechanism) : Bytes := commandLine ("AUTH " ++ m.name ++ " " ++ m.initial)

namespace Turnout

/-- What is said asks for a reply with one of some codes. -/
inductive asks (octets : Bytes) (codes : List ℕ) : Turnout
  | fails {deals : List Dealing} {s : Setback} :
      Hears octets deals (.error s) → asks octets codes deals (.error s)
  | refused {deals : List Dealing} {r : Reply} :
      Hears octets deals (.ok r) → r.code ∉ codes → asks octets codes deals (.error (.refused r))
  | accepted {deals : List Dealing} {r : Reply} :
      Hears octets deals (.ok r) → r.code ∈ codes → asks octets codes deals (.ok ())

/-- The second command follows if the first succeeds. -/
inductive andThen (P Q : Turnout) : Turnout
  | fails {deals : List Dealing} {s : Setback} : P deals (.error s) → andThen P Q deals (.error s)
  | goesOn {first second : List Dealing} {result : Except Setback Unit} :
      P first (.ok ()) → Q second result → andThen P Q (first ++ second) result

def secures : Turnout := fun deals result => deals = [⟨.secure, result⟩]

def command (line : String) (codes : List ℕ) : Turnout := asks (commandLine line) codes

/-- The old greeting follows when the extended one is not known. -/
inductive greets (name : String) : Turnout
  | extended {deals : List Dealing} {result : Except Setback Unit} :
      command ("EHLO " ++ name) [250] deals result →
      (∀ r, result = .error (.refused r) → r.code ∉ [500, 502]) → greets name deals result
  | old {first second : List Dealing} {r : Reply} {result : Except Setback Unit} :
      command ("EHLO " ++ name) [250] first (.error (.refused r)) → r.code ∈ [500, 502] →
      command ("HELO " ++ name) [250] second result → greets name (first ++ second) result

/-- A client that gave no name yet greets as `localhost`. -/
inductive introduces : Introduction → Turnout
  | known (name : String) : introduces (some name) [] (.ok ())
  | anew {deals : List Dealing} {result : Except Setback Unit} :
      greets Client.defaultName deals result → introduces none deals result

/-- The name that a client has given once it has introduced itself. -/
def introduced (i : Introduction) : String := i.getD Client.defaultName

def startsTls (i : Introduction) : Turnout :=
  (introduces i).andThen ((command "STARTTLS" [220]).andThen
    (secures.andThen (command ("EHLO " ++ introduced i) [250])))

/-- A login that is asked for more is cancelled, and fails whatever is answered then. -/
inductive logsIn (m : Mechanism) : Turnout
  | fails {deals : List Dealing} {s : Setback} :
      Hears (loginLine m) deals (.error s) → logsIn m deals (.error s)
  | uncancelled {first second : List Dealing} {r : Reply} {s : Setback} :
      Hears (loginLine m) first (.ok r) → r.code = 334 →
      Hears (commandLine "*") second (.error s) → logsIn m (first ++ second) (.error s)
  | challenged {first second : List Dealing} {r r' : Reply} :
      Hears (loginLine m) first (.ok r) → r.code = 334 → Hears (commandLine "*") second (.ok r') →
      logsIn m (first ++ second) (.error (.challenged m.name))
  | refused {deals : List Dealing} {r : Reply} :
      Hears (loginLine m) deals (.ok r) → r.code ∉ [235, 334] →
      logsIn m deals (.error (.refused r))
  | accepted {deals : List Dealing} {r : Reply} :
      Hears (loginLine m) deals (.ok r) → r.code = 235 → logsIn m deals (.ok ())

end Turnout

open Turnout

/-- An exchange has a turnout, and leaves the client with a name or without. -/
def Turns (x : Exchange Unit) (i j : Introduction) (P : Turnout) : Prop :=
  ∀ deals result i', Comes x i deals result i' ↔ P deals result ∧ i' = j

namespace Client

variable {i j i' : Introduction} {deals : List Dealing}

theorem comes_expect {accepted : Int → Bool} {r : Reply} {result : Except Setback Unit} :
    Comes (expect accepted r) i deals result i' ↔ deals = [] ∧
      result = (if accepted r.code then .ok () else .error (.refused r)) ∧ i' = i := by
  unfold expect
  split
  · exact comes_pure
  · exact comes_throw

/-- Saying something and waiting for the reply to it. -/
theorem comes_hears {octets : Bytes} {result : Except Setback Reply} :
    Comes (write octets >>= fun _ => reply) i deals result i' ↔
      Hears octets deals result ∧ i' = i := by
  rw [comes_bind]
  simp only [comes_write, comes_reply]
  constructor
  · rintro (⟨s, rfl, rfl, rfl⟩ | ⟨_, _, _, _, rfl, ⟨rfl, rfl⟩, rfl, rfl⟩)
    · exact ⟨.unsaid s, rfl⟩
    · cases result with
      | error s => exact ⟨.unanswered s, rfl⟩
      | ok r => exact ⟨.answered r, rfl⟩
  · rintro ⟨heard, rfl⟩
    cases heard with
    | unsaid s => exact .inl ⟨s, rfl, rfl, rfl⟩
    | unanswered s => exact .inr ⟨_, (), i', _, rfl, ⟨rfl, rfl⟩, rfl, rfl⟩
    | answered r => exact .inr ⟨_, (), i', _, rfl, ⟨rfl, rfl⟩, rfl, rfl⟩

/-- Whatever asks for a reply and judges it by its code. -/
theorem turns_asks {octets : Bytes} {accepted : Int → Bool} {codes : List ℕ}
    (same : ∀ n : ℕ, accepted n = decide (n ∈ codes)) (i : Introduction) :
    Turns (write octets >>= fun _ => reply >>= expect accepted) i i (asks octets codes) := by
  intro deals result i'
  rw [← bind_assoc, comes_bind]
  simp only [comes_hears, comes_expect, same, decide_eq_true_eq]
  constructor
  · rintro (⟨s, rfl, heard, rfl⟩ | ⟨first, r, j, second, rfl, ⟨heard, rfl⟩, rfl, rfl, rfl⟩)
    · exact ⟨.fails heard, rfl⟩
    · rw [List.append_nil]
      split
      · rename_i mem
        exact ⟨.accepted heard mem, rfl⟩
      · rename_i other
        exact ⟨.refused heard other, rfl⟩
  · rintro ⟨turnout, rfl⟩
    cases turnout with
    | fails heard => exact .inl ⟨_, rfl, heard, rfl⟩
    | @refused _ r heard other =>
      refine .inr ⟨deals, r, i', [], (List.append_nil _).symm, ⟨heard, rfl⟩, rfl, ?_, rfl⟩
      rw [if_neg other]
    | @accepted _ r heard mem =>
      refine .inr ⟨deals, r, i', [], (List.append_nil _).symm, ⟨heard, rfl⟩, rfl, ?_, rfl⟩
      rw [if_pos mem]

theorem turns_command (line : String) (code : ℕ) (i : Introduction) :
    Turns (Client.command line (· == (code : Int))) i i (Turnout.command line [code]) :=
  turns_asks (Session.accepts_one · code) i

theorem turns_endData (mark : Bytes) (i : Introduction) :
    Turns (endData mark) i i (asks mark [250]) :=
  turns_asks (Session.accepts_one · 250) i

theorem turns_recipient (address : String) (i : Introduction) :
    Turns (recipient address) i i (Turnout.command ("RCPT TO:<" ++ address ++ ">") [250, 251]) := by
  apply turns_asks
  intro n
  rw [Bool.eq_iff_iff]
  simp only [Bool.or_eq_true, beq_iff_eq, List.mem_cons, List.not_mem_nil, or_false,
    decide_eq_true_eq]
  omega

theorem turns_secure (i : Introduction) : Turns secure i i secures :=
  fun _ _ _ => comes_secure

theorem turns_andThen {x y : Exchange Unit} {P Q : Turnout} (hx : Turns x i j P)
    (hy : Turns y j j Q) : Turns (x >>= fun _ => y) i j (P.andThen Q) := by
  intro deals result i'
  rw [comes_bind]
  constructor
  · rintro (⟨s, rfl, came⟩ | ⟨first, _, k, second, rfl, came, follows⟩)
    · obtain ⟨turnout, rfl⟩ := (hx _ _ _).1 came
      exact ⟨.fails turnout, rfl⟩
    · obtain ⟨turnout, rfl⟩ := (hx _ _ _).1 came
      obtain ⟨turnout', rfl⟩ := (hy _ _ _).1 follows
      exact ⟨.goesOn turnout turnout', rfl⟩
  · rintro ⟨turnout, rfl⟩
    cases turnout with
    | fails failed => exact .inl ⟨_, rfl, (hx _ _ _).2 ⟨failed, rfl⟩⟩
    | goesOn first second =>
      exact .inr ⟨_, (), i', _, rfl, (hx _ _ _).2 ⟨first, rfl⟩, (hy _ _ _).2 ⟨second, rfl⟩⟩

theorem unknownGreeting_iff {s : Setback} :
    unknownGreeting s = true ↔ ∃ r, s = .refused r ∧ r.code ∈ [500, 502] := by
  cases s with
  | refused r =>
    simp only [unknownGreeting, Bool.or_eq_true, beq_iff_eq, Setback.refused.injEq,
      exists_eq_left', List.mem_cons, List.not_mem_nil, or_false]
  | _ => simp [unknownGreeting]

theorem turns_extendedHello (name : String) : Turns extendedHello (some name) (some name)
    (Turnout.command ("EHLO " ++ name) [250]) := by
  intro deals result i'
  have named : extendedHello.run.run (some name) =
    (Client.command ("EHLO " ++ name) (· == 250)).run.run (some name) := rfl
  unfold Comes
  rw [named]
  exact turns_command ("EHLO " ++ name) 250 (some name) deals result i'

theorem turns_hello (name : String) (i : Introduction) :
    Turns (hello name) i (some name) (greets name) := by
  intro deals result i'
  have begun : Comes (hello name) i deals result i' ↔ Comes (tryCatch extendedHello fun s =>
      if unknownGreeting s then Client.command ("HELO " ++ name) (· == 250) else throw s)
        (some name) deals result i' := Iff.rfl
  rw [begun, comes_tryCatch]
  constructor
  · rintro (⟨_, rfl, came⟩ | ⟨first, s, k, second, rfl, came, follows⟩)
    · obtain ⟨turnout, rfl⟩ := (turns_extendedHello name _ _ _).1 came
      exact ⟨.extended turnout (by simp), rfl⟩
    · obtain ⟨turnout, rfl⟩ := (turns_extendedHello name _ _ _).1 came
      split at follows
      · rename_i unknown
        obtain ⟨r, rfl, old⟩ := unknownGreeting_iff.1 unknown
        obtain ⟨turnout', rfl⟩ := (turns_command _ 250 _ _ _ _).1 follows
        exact ⟨.old turnout old turnout', rfl⟩
      · rename_i final
        obtain ⟨rfl, rfl, rfl⟩ := comes_throw.1 follows
        rw [List.append_nil]
        refine ⟨.extended turnout ?_, rfl⟩
        rintro r ⟨⟩ old
        exact final (unknownGreeting_iff.2 ⟨r, rfl, old⟩)
  · rintro ⟨turnout, rfl⟩
    cases turnout with
    | extended turnout final =>
      have came := (turns_extendedHello name _ _ _).2 ⟨turnout, rfl⟩
      cases result with
      | ok _ => exact .inl ⟨(), rfl, came⟩
      | error s =>
        refine .inr ⟨deals, s, some name, [], (List.append_nil _).symm, came, ?_⟩
        rw [if_neg]
        · exact comes_throw.2 ⟨rfl, rfl, rfl⟩
        · intro unknown
          obtain ⟨r, rfl, old⟩ := unknownGreeting_iff.1 unknown
          exact final r rfl old
    | @old first second r _ turnout code turnout' =>
      refine .inr ⟨first, .refused r, some name, second, rfl,
        (turns_extendedHello name _ _ _).2 ⟨turnout, rfl⟩, ?_⟩
      rw [if_pos (unknownGreeting_iff.2 ⟨r, rfl, code⟩)]
      exact (turns_command _ 250 _ _ _ _).2 ⟨turnout', rfl⟩

theorem turns_ensureHello (i : Introduction) :
    Turns ensureHello i (some (introduced i)) (introduces i) := by
  intro deals result i'
  cases i with
  | some name =>
    have begun : Comes ensureHello (some name) deals result i' ↔
      Comes (pure () : Exchange Unit) (some name) deals result i' := Iff.rfl
    rw [begun, comes_pure]
    constructor
    · rintro ⟨rfl, rfl, rfl⟩
      exact ⟨.known name, rfl⟩
    · rintro ⟨turnout, rfl⟩
      cases turnout
      exact ⟨rfl, rfl, rfl⟩
  | none =>
    have begun : Comes ensureHello none deals result i' ↔
      Comes (hello defaultName) none deals result i' := Iff.rfl
    rw [begun, turns_hello]
    constructor
    · rintro ⟨turnout, rfl⟩
      exact ⟨.anew turnout, rfl⟩
    · rintro ⟨turnout, rfl⟩
      cases turnout with
      | anew turnout => exact ⟨turnout, rfl⟩

theorem turns_startTls (i : Introduction) :
    Turns startTls i (some (introduced i)) (startsTls i) := by
  have hello := turns_extendedHello (introduced i)
  have secured := turns_andThen (turns_secure (some (introduced i))) hello
  have asked := turns_andThen (turns_command "STARTTLS" 220 _) secured
  exact turns_andThen (turns_ensureHello i) asked

/-- A command for which the client has to be introduced. -/
theorem turns_introduced {line : String} {code : ℕ} (i : Introduction) :
    Turns (ensureHello >>= fun _ => Client.command line (· == (code : Int))) i
      (some (introduced i)) ((introduces i).andThen (Turnout.command line [code])) :=
  turns_andThen (turns_ensureHello i) (turns_command line code _)

/-- A login that is asked for more says one thing more. -/
theorem comes_cancel {m : Mechanism} {r : Reply} (more : r.code = 334)
    {result : Except Setback Unit} : Comes (Session.afterLogin m r) i deals result i' ↔
      ((∃ s, Hears (commandLine "*") deals (.error s) ∧ result = .error s) ∨
        ∃ r', Hears (commandLine "*") deals (.ok r') ∧ result = .error (.challenged m.name)) ∧
        i' = i := by
  have cancels : Session.afterLogin m r = (write (commandLine "*") >>= fun _ => reply) >>= fun _ =>
      throw (.challenged m.name) := by
    rw [Session.afterLogin, if_pos more, bind_assoc]
    apply bind_congr
    intro said
    show (Function.const Reply PUnit.unit <$> reply) >>= _ = _
    rw [bind_map_left]
    rfl
  rw [cancels, comes_bind]
  simp only [comes_hears, comes_throw]
  constructor
  · rintro (⟨s, rfl, heard, rfl⟩ | ⟨first, r', j, second, rfl, ⟨heard, rfl⟩, rfl, rfl, rfl⟩)
    · exact ⟨.inl ⟨s, heard, rfl⟩, rfl⟩
    · rw [List.append_nil]
      exact ⟨.inr ⟨r', heard, rfl⟩, rfl⟩
  · rintro ⟨⟨s, heard, rfl⟩ | ⟨r', heard, rfl⟩, rfl⟩
    · exact .inl ⟨s, rfl, heard, rfl⟩
    · exact .inr ⟨deals, r', i', [], (List.append_nil _).symm, ⟨heard, rfl⟩, rfl, rfl, rfl⟩

theorem comes_judgeLogin {m : Mechanism} {r : Reply} (final : r.code ≠ 334)
    {result : Except Setback Unit} : Comes (Session.afterLogin m r) i deals result i' ↔
      deals = [] ∧ result = (if r.code = 235 then .ok () else .error (.refused r)) ∧ i' = i := by
  have judged : Session.afterLogin m r = expect (· == 235) r := by
    rw [Session.afterLogin, if_neg final]
  have same : ((r.code : Int) == 235) = decide (r.code = 235) := by
    rw [Bool.eq_iff_iff]
    simp only [beq_iff_eq, decide_eq_true_eq]
    omega
  rw [judged, comes_expect]
  simp only [same, decide_eq_true_eq]

theorem turns_greetedLogin (m : Mechanism) (i : Introduction) :
    Turns (Session.greetedLogin m) i i (logsIn m) := by
  intro deals result i'
  have parts : Session.greetedLogin m =
      (write (loginLine m) >>= fun _ => reply) >>= Session.afterLogin m := by
    rw [bind_assoc]
    rfl
  rw [parts, comes_bind]
  simp only [comes_hears]
  constructor
  · rintro (⟨s, rfl, heard, rfl⟩ | ⟨first, r, j, second, rfl, ⟨heard, rfl⟩, follows⟩)
    · exact ⟨.fails heard, rfl⟩
    · by_cases more : r.code = 334
      · obtain ⟨⟨s, cancelled, rfl⟩ | ⟨r', cancelled, rfl⟩, rfl⟩ := (comes_cancel more).1 follows
        · exact ⟨.uncancelled heard more cancelled, rfl⟩
        · exact ⟨.challenged heard more cancelled, rfl⟩
      · obtain ⟨rfl, rfl, rfl⟩ := (comes_judgeLogin more).1 follows
        rw [List.append_nil]
        split
        · rename_i accepted
          exact ⟨.accepted heard accepted, rfl⟩
        · rename_i other
          exact ⟨.refused heard (by simp [more, other]), rfl⟩
  · rintro ⟨turnout, rfl⟩
    cases turnout with
    | fails heard => exact .inl ⟨_, rfl, heard, rfl⟩
    | uncancelled heard more cancelled =>
      exact .inr ⟨_, _, i', _, rfl, ⟨heard, rfl⟩, (comes_cancel more).2 ⟨.inl ⟨_, cancelled, rfl⟩, rfl⟩⟩
    | challenged heard more cancelled =>
      exact .inr ⟨_, _, i', _, rfl, ⟨heard, rfl⟩, (comes_cancel more).2 ⟨.inr ⟨_, cancelled, rfl⟩, rfl⟩⟩
    | @refused _ r heard other =>
      have codes : r.code ≠ 235 ∧ r.code ≠ 334 := by simpa using other
      refine .inr ⟨deals, r, i', [], (List.append_nil _).symm, ⟨heard, rfl⟩, ?_⟩
      exact (comes_judgeLogin codes.2).2 ⟨rfl, (if_neg codes.1).symm, rfl⟩
    | @accepted _ r heard code =>
      refine .inr ⟨deals, r, i', [], (List.append_nil _).symm, ⟨heard, rfl⟩, ?_⟩
      exact (comes_judgeLogin (by omega)).2 ⟨rfl, (if_pos code).symm, rfl⟩

theorem turns_login (m : Mechanism) (i : Introduction) :
    Turns (login m) i (some (introduced i)) ((introduces i).andThen (logsIn m)) :=
  turns_andThen (turns_ensureHello i) (turns_greetedLogin m _)

end Client

end FilterBench
