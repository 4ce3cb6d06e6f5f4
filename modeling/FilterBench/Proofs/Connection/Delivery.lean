import FilterBench.Proofs.Connection.Frame
import FilterBench.Proofs.Connection.Silence
import FilterBench.Proofs.Reply.Reading
import FilterBench.Proofs.Text.Encoding
import Mathlib.Algebra.GroupWithZero.Nat

/-!
# The delivery of one reply

A turn delivers a reply when it sends the octets of the reply, cut into chunks and delayed in any
way, completes it before the client's patience ends, and says nothing more. A client that writes
to a peer whose turn delivers a reply, and then waits, gets this reply (`write_pledged`,
`await_pledged`): meanwhile what is left of the turn owes the rest of the octets, and the inbox has
read the start of a reply.
-/
namespace FilterBench
open Utf8 Reply

/-- The peer only speaks or waits. -/
def PeerAct.Plain : PeerAct → Prop
  | .sends _ => True
  | .waits _ => True
  | _ => False

instance : DecidablePred PeerAct.Plain := fun a => match a with
  | .sends _ => isTrue trivial
  | .waits _ => isTrue trivial
  | .closes => isFalse id
  | .breaksDown _ => isFalse id
  | .failsWrite _ => isFalse id

namespace Turn

/-- All that a peer sends in a turn. -/
def octets (turn : Turn) : Bytes := turn.flatMap fun
  | .sends chunk => chunk
  | _ => []

/-- How long the waits of a turn are together. -/
def span (turn : Turn) : ℕ := (turn.map fun
  | .waits ms => ms
  | _ => 0).sum

/-- After the octets `w`, the rest of a turn that is played from a time on completes a reply
before the limit, and says nothing more. -/
def Owes (r : Reply) (limit : Option ℕ) (w : Bytes) (time : ℕ) (turn : Turn) : Prop :=
  ∃ lead tail text, turn = lead ++ tail ∧ (∀ a ∈ lead, a.Plain) ∧ Silent tail ∧
    Written r text ∧ encode (String.ofList text) = w ++ octets lead ∧
    limit.all (time + span lead < ·)

end Turn

/-- A turn is the octets of one reply, in any chunks and with any delays within the timeout. -/
def Turn.Delivers (r : Reply) (timeout : Timeout) (turn : Turn) : Prop :=
  turn.Owes r (timeout.deadline 0) [] 0

/-! ## The start of a reply -/

theorem Utf8.length_decode_cutBody (w : Bytes) :
    (decode (cutBody w)).length ≤ (decode w).length := by
  rcases cut_cases w with closed | ⟨u, h, rfl, s⟩
  · rw [cutBody_of_zero closed]
  · have both := s.decode_append u []
    rw [List.append_nil] at both
    rw [s.cutBody, both, List.length_append]
    omega

/-- A new reader that is given the start of a written reply makes no reply of it yet, or the start
is the whole. -/
theorem Reply.push_start {r : Reply} {text : List Char} (h : Written r text) {u v : Bytes}
    (eq : encode (String.ofList text) = u ++ v) :
    (v ≠ [] ∧ ∃ reader, ({} : Reader).push (decode (cutBody u)) = (reader, .ok [])) ∨
      v = [] ∧ cutTail u = [] ∧ ({} : Reader).push (decode (cutBody u)) = ({}, .ok [r]) := by
  obtain ⟨init, rfl⟩ := h.ends
  have ends : encode (String.ofList (init ++ ['\n'])) = encode (String.ofList init) ++ [10] := by
    rw [String.ofList_append, encode_append]
    rfl
  have closed : Decoder.cutLength (encode (String.ofList (init ++ ['\n']))) = 0 := by
    rw [ends]
    exact cutLength_ascii _ (by decide) (by decide)
  have whole : decode (cutBody (u ++ v)) = init ++ ['\n'] := by
    rw [← eq, cutBody_of_zero closed, decode_encode, String.toList_ofList]
  rcases List.eq_nil_or_concat v with rfl | ⟨v', b, rfl⟩
  · rw [List.append_nil] at eq whole
    refine .inr ⟨rfl, ?_, ?_⟩
    · rw [← eq, cutTail_of_zero closed]
    · rw [whole, push_written h]
  · refine .inl ⟨by simp, ?_⟩
    rw [List.concat_eq_append] at eq whole
    obtain ⟨t, -, text⟩ := read_afterReading u (v' ++ [b])
    rw [whole] at text
    rcases started : ({} : Reader).push (decode (cutBody u)) with ⟨reader, _ | replies⟩
    · have failed := Reader.push_error_append started t
      rw [← text, push_written h] at failed
      simp at failed
    · have joined := Reader.push_append started t
      rw [← text, push_written h] at joined
      rcases rest : reader.push t with ⟨reader', _ | more⟩
      · simp [rest, Except.map] at joined
      · simp only [rest, Except.map, Prod.mk.injEq, Except.ok.injEq] at joined
        obtain ⟨rfl, both⟩ := joined
        rcases replies with _ | ⟨first, replies⟩
        · exact ⟨reader, rfl⟩
        · -- The reply would be complete before its last octet, the line feed, has come.
          rw [List.cons_append, List.cons.injEq] at both
          obtain rfl : more = [] := (List.append_eq_nil_iff.1 both.2.symm).2
          obtain rfl : t = [] := (List.append_eq_nil_iff.1 (Reader.eq_nil_of_push rest)).2
          have start : encode (String.ofList init) = u ++ v' := by
            rw [ends, ← List.append_assoc] at eq
            exact (List.append_inj' eq rfl).1
          obtain ⟨t', -, before⟩ := read_afterReading u v'
          have bound := length_decode_cutBody (encode (String.ofList init))
          rw [start, before, ← start, decode_encode, String.toList_ofList] at bound
          have short := congrArg List.length text
          simp only [List.length_append, List.length_cons, List.length_nil] at bound short
          omega

theorem Reply.Reader.push_more {r : Reader} {x : List Char} (h : ({} : Reader).push x = (r, .ok []))
    (y : List Char) : ({} : Reader).push (x ++ y) = r.push y := by
  rw [push_append h]
  rcases r.push y with ⟨r', _ | replies⟩ <;> rfl

/-- The inbox has read some octets, the start of a reply that is not complete. -/
def Inbox.Reads (w : Bytes) (waiter : Waiter) (b : Inbox) : Prop :=
  ∃ reader, b = { decoder := .afterReading w, reader := reader, waiter := waiter } ∧
    ({} : Reader).push (decode (cutBody w)) = (reader, .ok [])

/-- The inbox after a reply came to a client that had read nothing else. -/
def Inbox.having (r : Reply) (waiter : Waiter) : Inbox := ({ waiter := waiter } : Inbox).deliver r

theorem Inbox.having_decoder (r : Reply) (waiter : Waiter) :
    (Inbox.having r waiter).decoder = .afterReading [] := by
  cases waiter <;> rfl

namespace Connection

variable {c : Connection} {r : Reply} {w : Bytes} {waiter : Waiter}

theorem decodes_of_reads (h : c.inbox.Reads w waiter) : c.Decodes := by
  obtain ⟨reader, eq, -⟩ := h
  exact ⟨w, by rw [eq]⟩

theorem decodes_of_having (h : c.inbox = .having r waiter) : c.Decodes :=
  ⟨[], by rw [h, Inbox.having_decoder]⟩

/-- A chunk of a reply completes it, or there is more of it to come. -/
theorem hear_reads (reads : c.inbox.Reads w waiter) (going : c.isOver = false) {text : List Char}
    (written : Written r text) {chunk more : Bytes}
    (eq : encode (String.ofList text) = w ++ chunk ++ more) :
    (c.hear chunk).isOver = false ∧ ((c.hear chunk).inbox.Reads (w ++ chunk) waiter ∨
      more = [] ∧ (c.hear chunk).inbox = .having r waiter) := by
  obtain ⟨reader, inbox, started⟩ := reads
  obtain ⟨t, read, settled⟩ := read_afterReading w chunk
  have pushed := Reader.push_more started t
  rw [← settled] at pushed
  have heard : c.inbox.decoder.read chunk = (.afterReading (w ++ chunk), t) := by rw [inbox, read]
  by_cases none : t = []
  · rw [none] at heard settled
    rw [hear_of_nil heard]
    refine ⟨going, .inl ⟨reader, by rw [inbox], ?_⟩⟩
    rw [settled, List.append_nil, started]
  · rw [hear_of_text heard none, inbox]
    rcases push_start written eq with ⟨-, reader', start⟩ | ⟨rfl, tail, whole⟩
    · rw [start] at pushed
      simp only [Inbox.readText, ← pushed, List.foldl_nil, Bool.or_false]
      exact ⟨going, .inl ⟨reader', rfl, start⟩⟩
    · rw [whole] at pushed
      have as_new : Decoder.afterReading (w ++ chunk) = {} := congrArg Decoder.mk tail
      simp only [Inbox.readText, ← pushed, as_new, List.foldl_cons, List.foldl_nil, Bool.or_false]
      exact ⟨going, .inr ⟨trivial, rfl⟩⟩

end Connection

/-! ## What is owed -/

namespace Turn

variable {r : Reply} {limit : Option ℕ} {w : Bytes} {time : ℕ} {turn : Turn}

theorem silent_of_octets {acts : Turn} (plain : ∀ a ∈ acts, a.Plain) (none : octets acts = []) :
    Silent acts := by
  intro a ha
  have nothing := List.flatMap_eq_nil_iff.1 none a ha
  have ha := plain a ha
  cases a with
  | sends chunk => exact nothing
  | waits ms => trivial
  | _ => exact ha.elim

theorem span_le_cons (a : PeerAct) (turn : Turn) : span turn ≤ span (a :: turn) := by
  rw [span, span, List.map_cons, List.sum_cons]
  exact Nat.le_add_left _ _

/-- What is earlier than a time before the limit is before the limit. -/
theorem earlier {x y : ℕ} (h : limit.all (y < ·)) (le : x ≤ y) : limit.all (x < ·) := by
  cases limit with
  | none => rfl
  | some d =>
    simp only [Option.all_some, decide_eq_true_eq] at h ⊢
    omega

theorem Silent.append {x y : Turn} (hx : Silent x) (hy : Silent y) : Silent (x ++ y) := by
  intro a ha
  exact (List.mem_append.1 ha).elim (hx a) (hy a)

/-- While a reply is not complete, more is owed. -/
theorem Owes.head {b : Inbox} {waiter : Waiter} (reads : b.Reads w waiter)
    (owes : turn.Owes r limit w time) :
    ∃ a lead tail text, turn = a :: (lead ++ tail) ∧ a.Plain ∧ (∀ a ∈ lead, a.Plain) ∧
      Silent tail ∧ Written r text ∧ encode (String.ofList text) = w ++ octets (a :: lead) ∧
      limit.all (time + span (a :: lead) < ·) := by
  obtain ⟨lead, tail, text, rfl, plain, silent, written, eq, time⟩ := owes
  cases lead with
  | nil =>
    obtain ⟨reader, -, started⟩ := reads
    have whole := push_start written (u := w) (v := []) eq
    simp [started] at whole
  | cons a lead =>
    exact ⟨a, lead, tail, text, rfl, plain a (by simp), fun b hb => plain b (by simp [hb]), silent,
      written, eq, time⟩

theorem Owes.before (owes : turn.Owes r limit w time) : limit.all (time < ·) := by
  obtain ⟨lead, tail, text, -, -, -, -, -, before⟩ := owes
  exact earlier before (Nat.le_add_right _ _)

theorem Owes.waits {b : Inbox} {waiter : Waiter} (reads : b.Reads w waiter) {ms : ℕ}
    (owes : Owes r limit w time (.waits ms :: turn)) : Owes r limit w (time + ms) turn := by
  obtain ⟨a, lead, tail, text, turn_eq, -, plain, silent, written, eq, before⟩ := owes.head reads
  obtain ⟨rfl, rfl⟩ := List.cons.inj turn_eq
  refine ⟨lead, tail, text, rfl, plain, silent, written, eq, ?_⟩
  rw [Nat.add_assoc]
  exact before

end Turn

namespace Connection

variable {c : Connection} {r : Reply} {limit : Option ℕ} {w : Bytes} {waiter : Waiter}

/-- A peer that plays a part of what it owes completes the reply, or owes the rest. -/
theorem foldl_act_owes (reads : c.inbox.Reads w waiter) (going : c.isOver = false) {time : ℕ}
    {acts rest : Turn} (owes : (acts ++ rest).Owes r limit w time) :
    (acts.foldl (act true) c).isOver = false ∧
      ((∃ w', (acts.foldl (act true) c).inbox.Reads w' waiter ∧ rest.Owes r limit w' time) ∨
        (acts.foldl (act true) c).inbox = .having r waiter ∧ rest.Silent) := by
  induction acts generalizing c w with
  | nil => exact ⟨going, .inl ⟨w, reads, owes⟩⟩
  | cons a acts ih =>
    obtain ⟨a', lead, tail, text, turn_eq, plain, plains, silent, written, eq, before⟩ :=
      owes.head reads
    obtain ⟨rfl, both⟩ := List.cons.inj turn_eq
    have sooner : limit.all (time + Turn.span lead < ·) :=
      Turn.earlier before (Nat.add_le_add_left (Turn.span_le_cons _ _) _)
    rw [List.foldl_cons]
    cases a with
    | sends chunk =>
      have heard : c.act true (.sends chunk) = c.hear chunk := by simp [act, going]
      have more : encode (String.ofList text) = w ++ chunk ++ Turn.octets lead := by
        rw [eq, List.append_assoc]
        rfl
      obtain ⟨going', reads' | ⟨none, having⟩⟩ := hear_reads reads going written more
      · rw [heard]
        exact ih reads' going' ⟨lead, tail, text, both, plains, silent, written, more, sooner⟩
      · have quiet : Turn.Silent (acts ++ rest) := by
          have split : acts ++ rest = lead ++ tail := both
          rw [split]
          exact (Turn.silent_of_octets plains none).append silent
        rw [heard, foldl_act_silent (decodes_of_having having) fun a ha => quiet a (by simp [ha])]
        exact ⟨going', .inr ⟨having, fun a ha => quiet a (by simp [ha])⟩⟩
    | waits ms =>
      have unmoved : c.act true (.waits ms) = c := by simp [act]
      rw [unmoved]
      exact ih reads going ⟨lead, tail, text, both, plains, silent, written, eq, sooner⟩
    | _ => exact plain.elim

/-- What a peer leaves of a part that owes a reply: a part that owes the rest of it, or, if the
reply has come, nothing but silence. -/
def Leaves (r : Reply) (limit : Option ℕ) (waiter : Waiter) (c : Connection) (p : Part) : Prop :=
  (∃ q w, c.left? p = some q ∧ q.stale = p.stale ∧ c.inbox.Reads w waiter ∧
      q.turn.Owes r limit w q.due) ∨
    c.inbox = .having r waiter ∧ ∀ q, c.left? p = some q → q.turn.Silent

theorem leaves_of_prompt (reads : c.inbox.Reads w waiter) (going : c.isOver = false) {p : Part}
    (owes : p.turn.Owes r limit w p.due) {c' : Connection}
    (played : c' = p.turn.prompt.foldl (act true) c) :
    c'.isOver = false ∧ c'.Leaves r limit waiter p := by
  rcases p.turn.prompt_cases with ⟨none, all⟩ | ⟨ms, rest, some, split⟩
  · have whole : (p.turn ++ []).Owes r limit w p.due := by rwa [List.append_nil]
    obtain ⟨going', ⟨w', reads', owes'⟩ | ⟨having, -⟩⟩ := foldl_act_owes reads going whole
    · obtain ⟨a, lead, tail, text, turn_eq, -⟩ := owes'.head reads'
      simp at turn_eq
    · rw [played, all]
      refine ⟨going', .inr ⟨having, ?_⟩⟩
      intro q hq
      simp [left?, going', Part.next?, none] at hq
  · have next : ∀ c : Connection, c.isOver = false →
        c.left? p = .some ⟨p.due + ms, rest, p.stale, true⟩ := by
      intro c going
      simp [left?, going, Part.next?, some]
    rw [split] at owes
    obtain ⟨going', delivered⟩ := foldl_act_owes reads going owes
    rw [← played] at going' delivered
    refine ⟨going', ?_⟩
    rcases delivered with ⟨w', reads', owes'⟩ | ⟨having, silent⟩
    · exact .inl ⟨_, w', next c' going', rfl, reads', owes'.waits reads'⟩
    · refine .inr ⟨having, ?_⟩
      intro q hq
      rw [next c' going', Option.some.injEq] at hq
      rw [← hq]
      exact fun a ha => silent a (List.mem_cons_of_mem _ ha)

end Connection

/-! ## A schedule with one part that is not silent -/

namespace Schedule

/-- A part has its place in a schedule, and all other parts are silent. -/
def Holds (p : Part) (s : Schedule) : Prop :=
  ∃ before after, s = before ++ p :: after ∧ (∀ q ∈ before, q.due ≤ p.due) ∧
    Silent (before ++ after)

theorem Silent.holds_add {s : Schedule} (h : s.Silent) (p : Part) :
    (Schedule.add p s).Holds p := by
  induction s with
  | nil => exact ⟨[], [], rfl, by simp, h⟩
  | cons q s ih =>
    rw [Schedule.add]
    split
    · rename_i le
      obtain ⟨before, after, eq, early, silent⟩ := ih fun x hx => h x (List.mem_cons_of_mem _ hx)
      refine ⟨q :: before, after, by rw [eq, List.cons_append], ?_, ?_⟩
      · intro x hx
        rcases List.mem_cons.1 hx with rfl | hx
        · exact le
        · exact early x hx
      · intro x hx
        rcases List.mem_cons.1 hx with rfl | hx
        · exact h x (by simp)
        · exact silent x hx
    · exact ⟨[], q :: s, rfl, by simp, h⟩

theorem Holds.add {p q : Part} {s : Schedule} (h : s.Holds p) (hq : q.turn.Silent) :
    (Schedule.add q s).Holds p := by
  obtain ⟨before, after, rfl, early, silent⟩ := h
  induction before with
  | nil =>
    rw [List.nil_append, Schedule.add]
    split
    · exact ⟨[], Schedule.add q after, rfl, by simp, Silent.add silent hq⟩
    · rename_i gt
      refine ⟨[q], after, rfl, ?_, ?_⟩
      · intro x hx
        rw [List.mem_singleton.1 hx]
        omega
      · exact fun x hx => (List.mem_cons.1 hx).elim (fun e => e ▸ hq) (silent x)
  | cons b before ih =>
    have rest := ih (fun x hx => early x (List.mem_cons_of_mem _ hx))
      fun x hx => silent x (List.mem_cons_of_mem _ hx)
    have b_early := early b (by simp)
    have b_silent := silent b (by simp)
    rw [List.cons_append, Schedule.add]
    split
    · obtain ⟨before', after', eq, early', silent'⟩ := rest
      refine ⟨b :: before', after', by rw [eq, List.cons_append], ?_, ?_⟩
      · exact fun x hx => (List.mem_cons.1 hx).elim (fun e => e ▸ b_early) (early' x)
      · exact fun x hx => (List.mem_cons.1 hx).elim (fun e => e ▸ b_silent) (silent' x)
    · rename_i gt
      refine ⟨q :: b :: before, after, rfl, ?_, ?_⟩
      · intro x hx
        rcases List.mem_cons.1 hx with rfl | hx
        · omega
        · exact early x hx
      · exact fun x hx => (List.mem_cons.1 hx).elim (fun e => e ▸ hq) (silent x)

theorem Holds.add? {p : Part} {q : Option Part} {s : Schedule} (h : s.Holds p)
    (hq : ∀ x, q = some x → x.turn.Silent) : (add? q s).Holds p := by
  cases q with
  | none => exact h
  | some q => exact h.add (hq q rfl)

theorem Holds.settled {p : Part} {s : Schedule} (h : s.Holds p) :
    (Schedule.settled s).Holds { p with late := false } := by
  obtain ⟨before, after, rfl, early, silent⟩ := h
  refine ⟨Schedule.settled before, Schedule.settled after, ?_, ?_, ?_⟩
  · simp [Schedule.settled]
  · intro q hq
    obtain ⟨x, hx, rfl⟩ := List.mem_map.1 hq
    exact early x hx
  · have both := Silent.settled silent
    rwa [Schedule.settled, List.map_append] at both

end Schedule

/-! ## Waiting for the reply -/

namespace Connection

variable {c : Connection} {r : Reply} {limit : Option ℕ} {w : Bytes} {waiter : Waiter}

theorem awaits_of_before {c : Connection} {p : Part} (wait : c.inbox.waiter = .waiting limit)
    (before : limit.all (p.due < ·)) : c.awaits p = true := by
  rw [awaits, wait]
  cases limit with
  | none => rfl
  | some d =>
    have sooner : p.due < d := by simpa using before
    simp [Part.isBefore, sooner]

theorem waiter_of_reads {b : Inbox} (h : b.Reads w waiter) : b.waiter = waiter := by
  obtain ⟨reader, rfl, -⟩ := h
  rfl

/-- A client that waits while a part of the schedule owes a reply gets the reply. -/
theorem playWhile_owes {s : Schedule} {c : Connection} {w : Bytes} {p : Part} (holds : s.Holds p)
    (listening : c.listening = true) (fresh : p.stale = false) (going : c.isOver = false)
    (reads : c.inbox.Reads w (.waiting limit)) (owes : p.turn.Owes r limit w p.due) :
    (playWhile awaits s c).isOver = false ∧
      (playWhile awaits s c).inbox = .having r (.waiting limit) ∧
      (playWhile awaits s c).upcoming.Silent := by
  fun_induction playWhile awaits s c generalizing w p with
  | case1 c =>
    obtain ⟨before, after, eq, -⟩ := holds
    simp at eq
  | case2 q rest c _ ih =>
    obtain ⟨before, after, eq, early, silent⟩ := holds
    cases before with
    | nil =>
      obtain ⟨rfl, rfl⟩ := List.cons.inj eq
      have reads' : ({ c with now := max c.now q.due } : Connection).inbox.Reads w
        (.waiting limit) := reads
      have heard : (c.listening && !q.stale) = true := by simp [listening, fresh]
      have played : c.play q =
          q.turn.prompt.foldl (act true) { c with now := max c.now q.due } := by rw [play, heard]
      obtain ⟨going', left⟩ := leaves_of_prompt reads' going owes played
      rcases left with ⟨q', w', some, stale, reads', owes'⟩ | ⟨having, quiet⟩
      · rw [some] at ih ⊢
        exact ih (Schedule.Silent.holds_add silent q') ((keeps_play c q).listening.trans listening)
          (stale.trans fresh) going' reads' owes'
      · have others : Schedule.Silent rest := silent
        obtain ⟨now, s', final, silent'⟩ := playWhile_silent awaits (others.add? quiet)
          (decodes_of_having having)
        rw [final]
        exact ⟨going', having, silent'⟩
    | cons b before =>
      obtain ⟨rfl, rfl⟩ := List.cons.inj eq
      have quiet : q.turn.Silent := silent q (by simp)
      rw [play_silent (decodes_of_reads reads) quiet] at ih ⊢
      refine ih (Schedule.Holds.add? ?_ fun x hx => silent_left? quiet hx) listening fresh going
        reads owes
      exact ⟨before, after, rfl, fun x hx => early x (List.mem_cons_of_mem _ hx),
        fun x hx => silent x (List.mem_cons_of_mem _ hx)⟩
  | case3 q rest c unwanted =>
    obtain ⟨before, after, eq, early, -⟩ := holds
    have due : q.due ≤ p.due := by
      cases before with
      | nil => rw [(List.cons.inj eq).1]
      | cons b before =>
        rw [(List.cons.inj eq).1]
        exact early b (by simp)
    exact absurd (awaits_of_before (waiter_of_reads reads) (Turn.earlier owes.before due)) unwanted

/-- Nothing is going on: the client has read all that it heard, and the peer is silent. -/
structure Ready (c : Connection) : Prop where
  listening : c.listening = true
  going : c.isOver = false
  inbox : c.inbox = {}
  quiet : c.upcoming.Silent

/-- The client has a reply in its queue, or will have it in time, and nothing more. -/
structure Pledged (r : Reply) (c : Connection) : Prop where
  listening : c.listening = true
  going : c.isOver = false
  reply : c.inbox = { queued := [r] } ∧ c.upcoming.Silent ∨
    ∃ p w, c.upcoming.Holds p ∧ p.stale = false ∧ c.inbox.Reads w .idle ∧
      p.turn.Owes r (c.timeout.deadline c.now) w p.due

theorem Ready.decodes (h : c.Ready) : c.Decodes := ⟨[], by rw [h.inbox]; rfl⟩

theorem Ready.reads (h : c.Ready) : c.inbox.Reads [] .idle :=
  ⟨{}, by rw [h.inbox]; rfl, readLines_of_none rfl _ _⟩

theorem answered_queued (h : c.inbox = { queued := [r] }) :
    c.answered = ({ c with inbox := {} }, some (.ok r)) := by
  have taken : c.inbox.take? = some (.ok r, {}) := by rw [h]; rfl
  simp only [answered, taken]

/-- What a client waits for that has read the start of a reply. -/
theorem answered_reads (h : c.inbox.Reads w .idle) : c.answered = settle { c with
    inbox := { c.inbox with waiter := .waiting (c.timeout.deadline c.now) }
    upcoming := Schedule.settled c.upcoming } := by
  have taken : c.inbox.take? = none := by
    obtain ⟨reader, eq, -⟩ := h
    rw [eq]
    rfl
  simp only [answered, taken]

theorem settle_having (h : (playWhile awaits c.upcoming c).inbox = .having r (.waiting limit)) :
    c.settle = ({ playWhile awaits c.upcoming c with inbox := {} }, some (.ok r)) := by
  simp only [settle, h, stopWaiting]
  rfl

/-- A pledged reply is got by waiting for it. -/
theorem await_pledged (h : c.Pledged r) :
    ∃ c', c.await = (c', some (.ok r)) ∧ c'.Ready ∧ c.Keeps c' := by
  obtain ⟨listening, going, ⟨inbox, quiet⟩ | ⟨p, w, holds, fresh, reads, owes⟩⟩ := h
  · refine ⟨({ c with inbox := {} } : Connection).record (.took r), ?_, ?_, ?_⟩
    · rw [await, answered_queued inbox]
    · exact ⟨listening, going, rfl, quiet⟩
    · exact .trans (d := { c with inbox := {} }) ⟨rfl, rfl, rfl, rfl, rfl⟩ (keeps_record _ rfl)
  · have waits : ({ c.inbox with waiter := .waiting (c.timeout.deadline c.now) } : Inbox).Reads w
        (.waiting (c.timeout.deadline c.now)) := by
      obtain ⟨reader, eq, started⟩ := reads
      exact ⟨reader, by rw [eq], started⟩
    obtain ⟨going', having, quiet⟩ := playWhile_owes (c := { c with
      inbox := { c.inbox with waiter := .waiting (c.timeout.deadline c.now) }
      upcoming := Schedule.settled c.upcoming }) holds.settled listening fresh going waits owes
    have keeps := keeps_playWhile awaits (Schedule.settled c.upcoming) { c with
      inbox := { c.inbox with waiter := .waiting (c.timeout.deadline c.now) }
      upcoming := Schedule.settled c.upcoming }
    generalize final : playWhile awaits (Schedule.settled c.upcoming) _ = c'
      at going' having quiet keeps
    refine ⟨({ c' with inbox := {} } : Connection).record (.took r), ?_, ?_, ?_⟩
    · rw [await, answered_reads reads, settle_having, final]
      exact final ▸ having
    · exact ⟨keeps.listening.trans listening, going', rfl, quiet⟩
    · refine .trans (d := { c' with inbox := {} }) ?_ (keeps_record _ rfl)
      exact ⟨keeps.timeout, keeps.listening, keeps.turns, keeps.handshakes, keeps.sent⟩

/-! ## Writing -/

theorem answer_plain {a : PeerAct} (h : a.Plain) (listening : c.listening = true)
    (error : Option String) : answer (c, error) a = (c.act true a, error) := by
  cases a with
  | failsWrite message => exact h.elim
  | _ => simp only [answer, listening]

theorem foldl_answer_plain {acts : Turn} (h : ∀ a ∈ acts, a.Plain) (listening : c.listening = true)
    (error : Option String) :
    acts.foldl answer (c, error) = (acts.foldl (act true) c, error) := by
  induction acts generalizing c with
  | nil => rfl
  | cons a acts ih =>
    rw [List.foldl_cons, answer_plain (h a (by simp)) listening, List.foldl_cons]
    exact ih (fun b hb => h b (List.mem_cons_of_mem _ hb))
      ((keeps_act true c a).listening.trans listening)

end Connection

theorem PeerAct.Silent.plain {a : PeerAct} (h : a.Silent) : a.Plain := by
  cases a with
  | sends chunk => trivial
  | waits ms => trivial
  | _ => exact h.elim

theorem Turn.Owes.plain {r : Reply} {limit : Option ℕ} {w : Bytes} {time : ℕ} {turn : Turn}
    (h : turn.Owes r limit w time) : ∀ a ∈ turn, a.Plain := by
  obtain ⟨lead, tail, text, rfl, plain, silent, -⟩ := h
  intro a ha
  exact (List.mem_append.1 ha).elim (plain a) fun ha => (silent a ha).plain

/-- However the octets of a reply are cut and delayed, they deliver it if they come in time. -/
theorem Turn.delivers_render {r : Reply} {turn : Turn} {timeout : Timeout} {ending : List Char}
    (small : r.code < 1000) (some_line : r.lines ≠ [])
    (clean : ∀ l ∈ r.lines, l.any isSeparator = false) (ends : LineEnd ending)
    (plain : ∀ a ∈ turn, a.Plain)
    (octets : encode (String.ofList (r.render ending)) = turn.octets)
    (soon : (timeout.deadline 0).all (turn.span < ·)) : turn.Delivers r timeout := by
  refine ⟨turn, [], _, (List.append_nil _).symm, plain, by simp [Silent],
    written_render small some_line clean ends, octets, ?_⟩
  rwa [Nat.zero_add]

/-- What is delivered within the timeout is delivered in time, whatever the time is. -/
theorem Turn.Delivers.owes {r : Reply} {timeout : Timeout} {turn : Turn} (h : turn.Delivers r timeout)
    (now : ℕ) : turn.Owes r (timeout.deadline now) [] now := by
  obtain ⟨lead, tail, text, rfl, plain, silent, written, eq, before⟩ := h
  refine ⟨lead, tail, text, rfl, plain, silent, written, eq, ?_⟩
  unfold Timeout.deadline at before ⊢
  split
  · rfl
  · rename_i patient
    simp only [patient, if_false, Option.all_some, decide_eq_true_eq, Nat.zero_add] at before ⊢
    omega

namespace Connection

variable {c : Connection} {r : Reply}

/-- What a write changes that the peer lets pass. -/
structure Writes (data : Bytes) (c c' : Connection) : Prop where
  timeout : c'.timeout = c.timeout
  turns : c'.turns = c.turns.tail
  handshakes : c'.handshakes = c.handshakes
  sent : c'.sent = c.sent ++ [data]

theorem write_ready (h : c.Ready) {data : Bytes} {c' : Connection}
    (responds : (c.record (.wrote data)).respond = (c', none)) : c.write data = (c', .ok ()) := by
  have failure : c.inbox.failure = none := by rw [h.inbox]
  have going : ¬c.isOver = true := by rw [h.going]; exact Bool.false_ne_true
  simp only [write, failure, if_neg going, responds]

/-- A write to which the peer says nothing. -/
theorem write_silent (h : c.Ready) (silent : (c.turns.headD []).Silent) (data : Bytes) :
    ∃ c', c.write data = (c', .ok ()) ∧ c'.Ready ∧ c.Writes data c' := by
  obtain ⟨s', responds, quiet⟩ := respond_silent (c := c.record (.wrote data)) h.decodes silent h.quiet
  refine ⟨_, write_ready h responds, ⟨h.listening, h.going, h.inbox, quiet⟩, rfl, rfl, rfl, ?_⟩
  exact sent_record c (.wrote data)

/-- A write to a peer whose turn delivers a reply. -/
theorem write_pledged (h : c.Ready) (delivers : (c.turns.headD []).Delivers r c.timeout)
    (data : Bytes) : ∃ c', c.write data = (c', .ok ()) ∧ c'.Pledged r ∧ c.Writes data c' := by
  have owes := delivers.owes c.now
  cases eq : c.turns with
  | nil =>
    rw [eq] at owes
    obtain ⟨a, lead, tail, text, turn_eq, -⟩ := owes.head h.reads
    simp at turn_eq
  | cons turn turns =>
    rw [eq, List.headD_cons] at owes
    have prompt : ∀ a ∈ turn.prompt, a.Plain := fun a ha =>
      owes.plain a ((List.takeWhile_sublist _).mem ha)
    have answers := foldl_answer_plain (c := { c.record (.wrote data) with turns := turns }) prompt
      h.listening none
    have keeps := keeps_foldl_act true turn.prompt { c.record (.wrote data) with turns := turns }
    have clock := foldl_act_clock true turn.prompt { c.record (.wrote data) with turns := turns }
    obtain ⟨going, left⟩ := leaves_of_prompt (c := { c.record (.wrote data) with turns := turns })
      (p := ⟨c.now, turn, false, false⟩) h.reads h.going owes rfl
    generalize turn.prompt.foldl (act true) _ = c' at answers keeps clock going left
    have upcoming : c'.upcoming = c.upcoming := clock.2
    have responds : (c.record (.wrote data)).respond = ({ c' with
        upcoming := Schedule.add? (c'.left? ⟨c.now, turn, false, false⟩) c.upcoming }, none) := by
      have turns_eq : (c.record (.wrote data)).turns = turn :: turns := eq
      simp only [respond, turns_eq, answers, upcoming]
      rfl
    refine ⟨_, write_ready h responds, ⟨keeps.listening.trans h.listening, going, ?_⟩, ?_⟩
    · rcases left with ⟨q, w, some, fresh, reads, owes⟩ | ⟨having, quiet⟩
      · refine .inr ⟨q, w, ?_, fresh, reads, ?_⟩
        · rw [some]
          exact h.quiet.holds_add q
        · have timeout : c'.timeout = c.timeout := keeps.timeout
          have now : c'.now = c.now := clock.1
          rw [timeout, now]
          exact owes
      · exact .inl ⟨having, h.quiet.add? quiet⟩
    · refine ⟨keeps.timeout, ?_, keeps.handshakes, ?_⟩
      · rw [eq]
        exact keeps.turns
      · exact keeps.sent.trans (sent_record c (.wrote data))

end Connection

end FilterBench
