import FilterBench.Client.Operation
import FilterBench.Proofs.Session.Writing

/-!
# How the operations of a client turn out

Each operation has a turnout (`Operation.turnout`), which depends on what its caller has kept. If
nothing that is dealt fails, the dealings are errands (`Operation.errands`): the client says something and
takes one reply to it, or writes content, to which it expects none, or changes or gives up the channel.
-/
namespace FilterBench
open Utf8 Turnout Session

/-- The encoder of a stream that can be written to, or why there is none. -/
def Caller.encoder (caller : Caller) (n : ℕ) : Except Setback Stuffing :=
  match caller.streams[n]? with
  | none => .error .noStream
  | some s => if s.isOpen then .ok s.encoder else .error .streamClosed

namespace Turnout

/-- Nothing is dealt. -/
def denied (s : Setback) : Turnout := fun deals result => deals = [] ∧ result = .error s

/-- Octets are written, and no reply is expected. -/
def tells (octets : Bytes) : Turnout := fun deals result => deals = [⟨.write octets, result⟩]

/-- Leave is taken, and the channel given up whatever is answered. -/
def quits : Turnout := fun deals result =>
  ∃ first, deals = first ++ [.closed] ∧ command "QUIT" [221] first result

def closes : Turnout := fun deals result => deals = [.closed] ∧ result = .ok ()

/-- What needs a stream is denied without one. -/
def streaming (encoder : Except Setback Stuffing) (P : Stuffing → Turnout) : Turnout :=
  match encoder with
  | .ok s => P s
  | .error e => denied e

end Turnout

namespace Operation

/-- How an operation turns out for a caller. -/
def turnout (caller : Caller) : Operation → Turnout
  | .hello name => greets name
  | .startTls => startsTls caller.introduction
  | .login m => (introduces caller.introduction).andThen (logsIn m)
  | .mail sender =>
    (introduces caller.introduction).andThen (command ("MAIL FROM:<" ++ sender ++ ">") [250])
  | .recipient address => command ("RCPT TO:<" ++ address ++ ">") [250, 251]
  | .reset => (introduces caller.introduction).andThen (command "RSET" [250])
  | .data => command "DATA" [354]
  | .write n chunk => streaming (caller.encoder n) fun s => tells (s.written chunk)
  | .endData n => streaming (caller.encoder n) fun s => asks s.finish.2 [250]
  | .quit => quits
  | .close => closes

variable {caller : Caller} {deals : List Dealing} {result : Except Setback Unit}

theorem begin_write (n : ℕ) (chunk : Bytes) : ((Operation.write n chunk).begin caller.streams).2 =
    match caller.encoder n with
    | .ok s => Client.write (s.written chunk)
    | .error e => throw e := by
  simp only [begin, Caller.encoder]
  cases caller.streams[n]? with
  | none => rfl
  | some s =>
    simp only [writeTo]
    split <;> rfl

theorem begin_endData (n : ℕ) : ((Operation.endData n).begin caller.streams).2 =
    match caller.encoder n with
    | .ok s => Client.endData s.finish.2
    | .error e => throw e := by
  simp only [begin, Caller.encoder]
  cases caller.streams[n]? with
  | none => rfl
  | some s =>
    simp only [endStream]
    split <;> rfl

/-- The exchange of an operation turns out as it says. -/
theorem turns_begin (op : Operation) (caller : Caller) :
    ∃ j, Turns (op.begin caller.streams).2 caller.introduction j (op.turnout caller) := by
  have denied : ∀ s i, Turns (throw s : Exchange Unit) i i (denied s) :=
    fun _ _ _ _ _ => comes_throw.trans and_assoc.symm
  cases op with
  | hello name => exact ⟨_, Client.turns_hello name _⟩
  | startTls => exact ⟨_, Client.turns_startTls _⟩
  | login m => exact ⟨_, Client.turns_login m _⟩
  | mail sender => exact ⟨_, Client.turns_introduced _⟩
  | recipient address => exact ⟨_, Client.turns_recipient address _⟩
  | reset => exact ⟨_, Client.turns_introduced _⟩
  | data => exact ⟨_, Client.turns_command "DATA" 354 _⟩
  | write n chunk =>
    rw [begin_write, turnout]
    cases caller.encoder n with
    | error e => exact ⟨_, denied e _⟩
    | ok s => exact ⟨_, turns_content _ _⟩
  | endData n =>
    rw [begin_endData, turnout]
    cases caller.encoder n with
    | error e => exact ⟨_, denied e _⟩
    | ok s => exact ⟨_, Client.turns_endData _ _⟩
  | quit =>
    refine ⟨caller.introduction, ?_⟩
    intro deals result i'
    rw [begin, Client.comes_quit, turnout, quits]
    simp only [← and_assoc, exists_and_right]
  | close => exact ⟨caller.introduction, fun _ _ _ => Client.comes_close.trans and_assoc.symm⟩

/-- What is left to the caller once the exchange is over. -/
def keeping (op : Operation) (caller : Caller) :
    Except Setback Unit × Introduction → Dialogue (Except Setback Unit × Caller)
  | (outcome, introduction) =>
    let streams := (op.begin caller.streams).1
    .done (outcome, {
      introduction := introduction
      streams := match outcome with
        | .ok _ => if op.opens then streams ++ [{}] else streams
        | .error _ => streams })

theorem dialogue_parts (op : Operation) (caller : Caller) : op.dialogue caller =
    ((op.begin caller.streams).2.run.run caller.introduction).bind (op.keeping caller) := rfl

/-- An operation comes to a result through the dealings with which it turns out so. -/
theorem leads_iff {op : Operation} : (∃ caller', Leads (op.dialogue caller) deals
    (.done (result, caller'))) ↔ op.turnout caller deals result := by
  obtain ⟨j, turns⟩ := op.turns_begin caller
  constructor
  · rintro ⟨caller', h⟩
    rw [dialogue_parts, Leads.bind_iff] at h
    obtain ⟨first, ⟨outcome, i⟩, second, rfl, comes, rest⟩ := h
    obtain ⟨rfl, same⟩ := Leads.done_iff.1 rest
    cases same
    rw [List.append_nil]
    exact ((turns _ _ _).1 comes).1
  · intro turnout
    have comes := (turns deals result j).2 ⟨turnout, rfl⟩
    rw [dialogue_parts]
    exact ⟨_, Leads.bind_iff.2 ⟨deals, _, [], (List.append_nil _).symm, comes, .here _⟩⟩

end Operation

/-! ## Errands -/

/-- Something that a client has done, to the end. -/
inductive Errand where
  /-- It said something, and took a reply to it. -/
  | asked (octets : Bytes) (answer : Reply)
  /-- It wrote content, to which there is no reply. -/
  | told (content : Bytes)
  | secured
  | closed

namespace Errand

def dealings : Errand → List Dealing
  | .asked octets answer => [.said octets, .got answer]
  | .told content => [.said content]
  | .secured => [.secured]
  | .closed => [.closed]

/-- What a history shows of it. -/
def events : Errand → List Event
  | .asked octets answer => [.wrote octets, .took answer]
  | .told content => [.wrote content]
  | .secured => [.secured]
  | .closed => []

def content? : Errand → Option Bytes
  | .told content => some content
  | _ => none

theorem traced {errand : Errand} {es : List Event} (h : Traced errand.dealings es) : es = errand.events := by
  cases errand with
  | asked octets answer =>
    simp only [dealings, Traced.said_iff, Traced.got_iff, Traced.nil_iff] at h
    obtain ⟨_, rfl, _, rfl, rfl⟩ := h
    rfl
  | told content =>
    simp only [dealings, Traced.said_iff, Traced.nil_iff] at h
    obtain ⟨_, rfl, rfl⟩ := h
    rfl
  | secured =>
    cases h with
    | cons one none =>
      cases one
      rw [Traced.nil_iff.1 none]
      rfl
  | closed =>
    cases h with
    | cons one none =>
      cases one
      rw [Traced.nil_iff.1 none]
      rfl

end Errand

/-- These dealings are errands, none of which is content. -/
def Asking (deals : List Dealing) : Prop :=
  ∃ errands : List Errand, deals = errands.flatMap Errand.dealings ∧ errands.filterMap Errand.content? = []

/-- One of these dealings fails, and so does the whole. -/
def Failing (deals : List Dealing) (result : Except Setback Unit) : Prop :=
  ∃ x ∈ deals, ∃ s, x.setback? = some s ∧ result = .error s

namespace Asking

variable {first second : List Dealing}

theorem nil : Asking [] := ⟨[], rfl, rfl⟩

theorem one (errand : Errand) (h : errand.content? = none) : Asking errand.dealings := by
  refine ⟨[errand], ?_, ?_⟩
  · rw [List.flatMap_singleton]
  · rw [List.filterMap_cons_none h, List.filterMap_nil]

theorem append (h : Asking first) (h' : Asking second) : Asking (first ++ second) := by
  obtain ⟨errands, rfl, plain⟩ := h
  obtain ⟨errands', rfl, plain'⟩ := h'
  refine ⟨errands ++ errands', List.flatMap_append.symm, ?_⟩
  rw [List.filterMap_append, plain, plain', List.append_nil]

end Asking

namespace Failing

variable {first second : List Dealing} {result : Except Setback Unit}

theorem left (h : Failing first result) : Failing (first ++ second) result := by
  obtain ⟨x, mem, fails⟩ := h
  exact ⟨x, List.mem_append_left _ mem, fails⟩

theorem right (h : Failing second result) : Failing (first ++ second) result := by
  obtain ⟨x, mem, fails⟩ := h
  exact ⟨x, List.mem_append_right _ mem, fails⟩

theorem not_ok : ¬Failing first (.ok ()) := by
  rintro ⟨x, mem, s, setback, same⟩
  cases same

/-- No channel refuses a reply. -/
theorem not_refused {r : Reply} (sound : ∀ x ∈ first, x.Sound) :
    ¬Failing first (.error (.refused r)) := by
  rintro ⟨x, mem, s, setback, same⟩
  cases same
  exact sound x mem _ setback

end Failing

namespace Turnout

/-- Every write is answered, unless a dealing fails. -/
def Asks (P : Turnout) : Prop :=
  ∀ deals result, (∀ x ∈ deals, x.Sound) → P deals result → Asking deals ∨ Failing deals result

variable {P P' : Turnout} {octets : Bytes} {deals : List Dealing}

theorem asking_hears {r : Reply} (heard : Hears octets deals (.ok r)) : Asking deals := by
  cases heard with
  | answered => exact .one (.asked octets r) rfl

theorem failing_hears {s : Setback} (heard : Hears octets deals (.error s)) :
    Failing deals (.error s) := by
  cases heard with
  | unsaid => exact ⟨_, List.mem_cons_self, s, rfl, rfl⟩
  | unanswered => exact ⟨_, List.mem_cons_of_mem _ List.mem_cons_self, s, rfl, rfl⟩

theorem asks_asks (octets : Bytes) (codes : List ℕ) : (asks octets codes).Asks := by
  intro deals result _ asked
  cases asked with
  | fails heard => exact .inr (failing_hears heard)
  | refused heard _ => exact .inl (asking_hears heard)
  | accepted heard _ => exact .inl (asking_hears heard)

/-- What comes after something in which nothing failed. -/
theorem asks_append {first second : List Dealing} {result : Except Setback Unit}
    (h : Asking first) (h' : Asking second ∨ Failing second result) :
    Asking (first ++ second) ∨ Failing (first ++ second) result := by
  obtain asking | failing := h'
  · exact .inl (h.append asking)
  · exact .inr failing.right

theorem asks_andThen (first : P.Asks) (second : P'.Asks) : (P.andThen P').Asks := by
  intro deals result sound turnout
  cases turnout with
  | fails failed => exact first _ _ sound failed
  | goesOn succeeded turnout =>
    obtain ⟨sound, sound'⟩ := List.forall_mem_append.1 sound
    obtain asking | failing := first _ _ sound succeeded
    · exact asks_append asking (second _ _ sound' turnout)
    · exact (failing.not_ok).elim

theorem asks_secures : secures.Asks := by
  intro deals result _ secured
  cases result with
  | ok _ =>
    rw [show deals = [.secured] from secured]
    exact .inl (.one .secured rfl)
  | error s =>
    rw [show deals = [⟨.secure, .error s⟩] from secured]
    exact .inr ⟨_, List.mem_cons_self, s, rfl, rfl⟩

theorem asks_greets (name : String) : (greets name).Asks := by
  intro deals result sound turnout
  cases turnout with
  | extended turnout _ => exact asks_asks _ _ _ _ sound turnout
  | old refused _ turnout =>
    obtain ⟨sound, sound'⟩ := List.forall_mem_append.1 sound
    obtain asking | failing := asks_asks _ _ _ _ sound refused
    · exact asks_append asking (asks_asks _ _ _ _ sound' turnout)
    · exact (failing.not_refused sound).elim

theorem asks_introduces (i : Introduction) : (introduces i).Asks := by
  intro deals result sound turnout
  cases turnout with
  | known => exact .inl .nil
  | anew turnout => exact asks_greets _ _ _ sound turnout

theorem asks_logsIn (m : Mechanism) : (logsIn m).Asks := by
  intro deals result _ turnout
  cases turnout with
  | fails heard => exact .inr (failing_hears heard)
  | uncancelled _ _ heard => exact .inr (failing_hears heard).right
  | challenged heard _ heard' => exact .inl ((asking_hears heard).append (asking_hears heard'))
  | refused heard _ => exact .inl (asking_hears heard)
  | accepted heard _ => exact .inl (asking_hears heard)

theorem asks_quits : quits.Asks := by
  rintro deals result sound ⟨first, rfl, asked⟩
  obtain ⟨sound, -⟩ := List.forall_mem_append.1 sound
  obtain asking | failing := asks_asks _ _ _ _ sound asked
  · exact .inl (asking.append (.one .closed rfl))
  · exact .inr failing.left

end Turnout

namespace Operation

/-- It writes content. -/
def tells : Operation → Bool
  | .write _ _ => true
  | _ => false

theorem asks_turnout {op : Operation} (plain : op.tells = false) (caller : Caller) :
    (op.turnout caller).Asks := by
  cases op with
  | hello name => exact asks_greets name
  | startTls =>
    exact asks_andThen (asks_introduces _)
      (asks_andThen (asks_asks _ _) (asks_andThen asks_secures (asks_asks _ _)))
  | login m => exact asks_andThen (asks_introduces _) (asks_logsIn m)
  | mail sender => exact asks_andThen (asks_introduces _) (asks_asks _ _)
  | recipient address => exact asks_asks _ _
  | reset => exact asks_andThen (asks_introduces _) (asks_asks _ _)
  | data => exact asks_asks _ _
  | write n chunk => cases plain
  | endData n =>
    rw [turnout]
    cases caller.encoder n with
    | ok s => exact asks_asks _ _
    | error e =>
      rintro deals result _ ⟨rfl, -⟩
      exact .inl .nil
  | quit => exact asks_quits
  | close =>
    rintro deals result _ ⟨rfl, -⟩
    exact .inl (.one .closed rfl)

/-- How much content an operation has written that came out so. -/
def contents (op : Operation) (outcome : Except Setback Unit) : ℕ :=
  if op.tells ∧ outcome.isOk then 1 else 0

/-- The dealings of an operation are errands, unless one of them fails, and then the operation fails as
this did. -/
theorem errands {op : Operation} {caller : Caller} {deals : List Dealing}
    {outcome : Except Setback Unit} (sound : ∀ x ∈ deals, x.Sound)
    (h : op.turnout caller deals outcome) :
    (∃ errands : List Errand, deals = errands.flatMap Errand.dealings ∧
      (errands.filterMap Errand.content?).length = op.contents outcome) ∨ Failing deals outcome := by
  rcases telling : op.tells with _ | _
  · obtain ⟨errands, same, plain⟩ | failing := asks_turnout telling caller _ _ sound h
    · refine .inl ⟨errands, same, ?_⟩
      rw [plain, contents, telling]
      rfl
    · exact .inr failing
  · cases op with
    | write n chunk =>
      rcases encoder : caller.encoder n with e | s
      all_goals rw [turnout, encoder] at h
      · obtain ⟨rfl, rfl⟩ := h
        exact .inl ⟨[], rfl, rfl⟩
      · obtain rfl : deals = [⟨.write (s.written chunk), outcome⟩] := h
        cases outcome with
        | ok _ => exact .inl ⟨[.told (s.written chunk)], rfl, rfl⟩
        | error e => exact .inr ⟨_, List.mem_cons_self, e, rfl, rfl⟩
    | _ => cases telling

end Operation

end FilterBench
