import FilterBench.Proofs.Connection.Losing

/-!
# Octets that are sent one by one

Two connections are `Like` each other that can only differ in what was heard, and in what they
would read if they read on at all. A chunk leaves a connection like the one that hears its octets
one by one, unless it has cost replies (`Connection.Tidy.hear_singly`), and so do all acts of a
peer.
-/
namespace FilterBench
open Utf8 Reply

/-! ## Each octet on its own -/

def PeerAct.singly : PeerAct → Turn
  | .sends chunk => chunk.map fun b => .sends [b]
  | a => [a]

namespace Turn

def singly (turn : Turn) : Turn := turn.flatMap PeerAct.singly

theorem singly_cons (a : PeerAct) (turn : Turn) : singly (a :: turn) = a.singly ++ turn.singly :=
  List.flatMap_cons

/-- Octets that are sent are prompt. -/
theorem prompt_sends (chunk : Bytes) (turn : Turn) :
    prompt ((PeerAct.sends chunk).singly ++ turn) = (PeerAct.sends chunk).singly ++ prompt turn := by
  induction chunk with
  | nil => rfl
  | cons b chunk ih => exact congrArg (PeerAct.sends [b] :: ·) ih

theorem later?_sends (chunk : Bytes) (turn : Turn) :
    later? ((PeerAct.sends chunk).singly ++ turn) = later? turn := by
  induction chunk with
  | nil => rfl
  | cons b chunk ih => exact ih

theorem prompt_singly (turn : Turn) : turn.singly.prompt = turn.prompt.singly := by
  induction turn with
  | nil => rfl
  | cons a turn ih =>
    rw [singly_cons]
    cases a with
    | sends chunk =>
      rw [prompt_sends, ih]
      rfl
    | waits ms => rfl
    | _ => exact congrArg (_ :: ·) ih

theorem later?_singly (turn : Turn) :
    turn.singly.later? = turn.later?.map fun (ms, rest) => (ms, rest.singly) := by
  induction turn with
  | nil => rfl
  | cons a turn ih =>
    rw [singly_cons]
    cases a with
    | sends chunk =>
      rw [later?_sends, ih]
      rfl
    | waits ms => rfl
    | _ => exact ih

end Turn

def Part.singly (p : Part) : Part := { p with turn := p.turn.singly }

theorem Part.next?_singly (p : Part) : p.singly.next? = p.next?.map singly := by
  have later := p.turn.later?_singly
  rw [next?, next?, singly, later, Option.map_map, Option.map_map]
  rfl

namespace Schedule

def singly (s : Schedule) : Schedule := s.map Part.singly

theorem add_singly (p : Part) (s : Schedule) : add p.singly s.singly = (add p s).singly := by
  induction s with
  | nil => rfl
  | cons q s ih =>
    have next : singly (q :: s) = q.singly :: singly s := rfl
    have due : q.singly.due ≤ p.singly.due ↔ q.due ≤ p.due := .rfl
    rw [next, add, add]
    by_cases first : q.due ≤ p.due
    · rw [if_pos first, if_pos (due.2 first), ih]
      rfl
    · rw [if_neg first, if_neg (mt due.1 first)]
      rfl

theorem add?_singly (p : Option Part) (s : Schedule) :
    add? (p.map Part.singly) s.singly = (add? p s).singly := by
  cases p with
  | none => rfl
  | some p => exact add_singly p s

theorem settled_singly (s : Schedule) : s.singly.settled = s.settled.singly := by
  rw [singly, settled, settled, singly, List.map_map, List.map_map]
  rfl

end Schedule

namespace Connection

/-- The connection to a peer that will send each octet on its own. -/
def singly (c : Connection) : Connection :=
  { c with turns := c.turns.map Turn.singly, upcoming := c.upcoming.singly }

/-! ## Connections that differ in what was heard -/

/-- The connection, with another history and with what it reads put elsewhere. -/
def reading (c : Connection) (decoder : Decoder) (reader : Reader) (history : List Event) :
    Connection :=
  { c with inbox := c.inbox.reading decoder reader, history := history }

theorem fail_reading (c : Connection) (decoder : Decoder) (reader : Reader) (history : List Event)
    (s : Setback) :
    (c.reading decoder reader history).fail s = (c.fail s).reading decoder reader history := by
  have failed := c.inbox.fail_reading decoder reader s
  simp only [fail, reading, failed]

/-- The other connection differs in its history, in which the client has written the same, and in
its decoder and reader if nothing more will be read. -/
structure Like (c c' : Connection) : Prop where
  same : ∃ decoder reader history, c' = c.reading decoder reader history
  sent : c'.sent = c.sent
  reads : c.listening = true → c.isOver = false →
    c'.inbox.decoder = c.inbox.decoder ∧ c'.inbox.reader = c.inbox.reader

theorem sent_heard (c : Connection) (text : List Char) : (c.record (.heard text)).sent = c.sent := by
  rw [sent_record]
  exact List.append_nil _

variable {c c' d : Connection} {h : List Event}

namespace Like

theorem refl (c : Connection) : c.Like c := ⟨⟨_, _, _, rfl⟩, rfl, fun _ _ => ⟨rfl, rfl⟩⟩

theorem trans (first : c.Like d) (second : d.Like c') : c.Like c' := by
  obtain ⟨⟨_, _, _, rfl⟩, sent, reads⟩ := first
  obtain ⟨⟨decoder, reader, history, rfl⟩, sent', reads'⟩ := second
  refine ⟨⟨decoder, reader, history, rfl⟩, sent'.trans sent, ?_⟩
  intro listening going
  have before := reads listening going
  have after := reads' listening going
  exact ⟨after.1.trans before.1, after.2.trans before.2⟩

/-- What does not look at the history, nor at what is read, is the same of both. -/
theorem kept (like : c.Like c') {α : Type} (f : Connection → α)
    (blind : ∀ decoder reader history, f (c.reading decoder reader history) = f c) : f c' = f c := by
  obtain ⟨⟨decoder, reader, history, rfl⟩, -, -⟩ := like
  exact blind decoder reader history

theorem isOver (like : c.Like c') : c'.isOver = c.isOver := like.kept _ fun _ _ _ => rfl

theorem listening (like : c.Like c') : c'.listening = c.listening := like.kept _ fun _ _ _ => rfl

theorem now (like : c.Like c') : c'.now = c.now := like.kept _ fun _ _ _ => rfl

theorem upcoming (like : c.Like c') : c'.upcoming = c.upcoming := like.kept _ fun _ _ _ => rfl

/-- Connections that read on differ in their histories. -/
theorem history (like : c.Like c') (listening : c.listening = true) (going : c.isOver = false) :
    ∃ history, c' = { c with history := history } := by
  obtain ⟨⟨_, _, history, rfl⟩, -, reads⟩ := like
  obtain ⟨rfl, rfl⟩ := reads listening going
  exact ⟨history, rfl⟩

theorem record (like : c.Like c') (e : Event) : (c.record e).Like (c'.record e) := by
  obtain ⟨⟨decoder, reader, history, rfl⟩, sent, reads⟩ := like
  refine ⟨⟨decoder, reader, history ++ [e], rfl⟩, ?_, reads⟩
  rw [sent_record, sent_record, sent]

/-- What was heard does not matter. -/
theorem heard (like : c.Like c') (text text' : List Char) :
    (c.record (.heard text)).Like (c'.record (.heard text')) := by
  obtain ⟨⟨decoder, reader, history, rfl⟩, sent, reads⟩ := like
  refine ⟨⟨decoder, reader, history ++ [.heard text'], rfl⟩, ?_, reads⟩
  rw [sent_heard, sent_heard, sent]

theorem fail (like : c.Like c') (s : Setback) : (c.fail s).Like (c'.fail s) := by
  obtain ⟨⟨decoder, reader, history, rfl⟩, sent, reads⟩ := like
  have same := c.fail_reading decoder reader history s
  refine ⟨⟨decoder, reader, history, same⟩, sent, ?_⟩
  intro listening going
  have kept := c.inbox.fail_reads s
  rw [same]
  obtain ⟨decoder, reader⟩ := reads listening going
  exact ⟨decoder.trans kept.1.symm, reader.trans kept.2.symm⟩

theorem finish (like : c.Like c') (heard : Bool) (s : Setback) :
    (c.finish heard s).Like (c'.finish heard s) := by
  cases heard
  · exact like
  · exact like.fail s

theorem hear (like : c.Like c') (listening : c.listening = true) (going : c.isOver = false)
    (chunk : Bytes) : (c.hear chunk).Like (c'.hear chunk) := by
  have sent := like.sent
  obtain ⟨history, rfl⟩ := like.history listening going
  rcases read : c.inbox.decoder.read chunk with ⟨decoder, text⟩
  by_cases none : text = []
  · rw [none] at read
    rw [hear_of_nil read, hear_of_nil (c := { c with history := history }) read]
    exact ⟨⟨_, _, history, rfl⟩, sent, fun _ _ => ⟨rfl, rfl⟩⟩
  · rw [hear_of_text read none, hear_of_text (c := { c with history := history }) read none]
    apply Like.record
    exact ⟨⟨_, _, history, rfl⟩, sent, fun _ _ => ⟨rfl, rfl⟩⟩

theorem act (like : c.Like c') {heard : Bool} (listening : heard = true → c.listening = true)
    (a : PeerAct) : (c.act heard a).Like (c'.act heard a) := by
  have ends : Like { c with ended := true } { c' with ended := true } := by
    obtain ⟨⟨decoder, reader, history, rfl⟩, sent, -⟩ := like
    refine ⟨⟨decoder, reader, history, rfl⟩, sent, ?_⟩
    intro _ going
    simp [Connection.isOver] at going
  unfold Connection.act
  rw [like.isOver]
  cases going : c.isOver
  · cases a with
    | sends chunk =>
      cases heard
      · exact like
      · exact like.hear (listening rfl) going chunk
    | closes => exact ends.finish heard _
    | breaksDown message => exact ends.finish heard _
    | failsWrite message => exact like
    | waits ms => exact like
  · exact like

end Like

/-! ## One chunk in two -/

/-- Nothing that was heard has cost replies. -/
def Lossless (c : Connection) : Prop := losesFrom {} c.history = false

theorem Lossless.before (lossless : c'.Lossless) (tidy : c'.Tidy c.history) : c.Lossless :=
  losesFrom_of_prefix tidy.grown lossless

/-- A chunk that is heard without loss gives no text, or text that loses nothing. -/
theorem Tidy.not_loses (tidy : c.Tidy h) {chunk : Bytes} {decoder : Decoder} {text : List Char}
    (read : c.inbox.decoder.read chunk = (decoder, text)) (lossless : (c.hear chunk).Lossless) :
    text = [] ∨ c.inbox.reader.loses text = false := by
  by_cases none : text = []
  · exact .inl none
  · rw [Lossless, hear_of_text read none, Connection.record, losesFrom_append,
      Bool.or_eq_false_iff, losesFrom, Bool.or_eq_false_iff, ← tidy.reader] at lossless
    exact .inr lossless.2.1

theorem Tidy.lossless_hear_left (tidy : c.Tidy h) {x y : Bytes}
    (lossless : (c.hear (x ++ y)).Lossless) : (c.hear x).Lossless := by
  have before : c.Lossless := lossless.before (tidy.self.hear _)
  obtain ⟨w, decodes⟩ := tidy.decodes
  obtain ⟨t, u, first, -, both⟩ := read_append w x y
  rw [← decodes] at first both
  by_cases none : t = []
  · rw [none] at first
    rw [hear_of_nil first]
    exact before
  · have clean : c.inbox.reader.loses t = false := by
      rcases tidy.not_loses both lossless with empty | clean
      · exact absurd (List.append_eq_nil_iff.1 empty).1 none
      · exact Reader.not_loses_left clean
    rw [Lossless, hear_of_text first none, Connection.record, losesFrom_append]
    simp only [losesFrom, ← tidy.reader, clean, Bool.or_false]
    exact before

section Cut

variable {x y : Bytes} {t u : List Char} {d₁ d₂ : Decoder} {reader : Reader}
  (first : c.inbox.decoder.read x = (d₁, t)) (some : t ≠ [])
  (both : c.inbox.decoder.read (x ++ y) = (d₂, t ++ u))
include first some both

/-- After a malformed line nothing more is read. -/
theorem hear_after_error {line : List Char} (pushed : c.inbox.reader.push t = (reader, .error line)) :
    (c.hear (x ++ y)).Like ((c.hear x).act true (.sends y)) := by
  have whole := Reader.push_error_append pushed u
  have stays : (c.hear x).act true (.sends y) = c.hear x := by
    rw [hear_of_error first some pushed]
    rfl
  rw [stays, hear_of_error both (List.append_ne_nil_of_left_ne_nil some u) whole,
    hear_of_error first some pushed]
  apply Like.heard
  refine ⟨⟨d₁, reader, c.history, rfl⟩, rfl, ?_⟩
  rintro - ⟨⟩

/-- After text that was read, more is read as it would have been at once. -/
theorem hear_after_replies {replies : List Reply} (second : d₁.read y = (d₂, u))
    (pushed : c.inbox.reader.push t = (reader, .ok replies))
    (clean : c.inbox.reader.loses (t ++ u) = false) :
    (c.hear (x ++ y)).Like ((c.hear x).hear y) := by
  have heard := hear_of_ok first some pushed
  have later : (c.hear x).inbox.decoder.read y = (d₂, u) := by
    rw [heard]
    exact second
  by_cases more : u = []
  · subst more
    rw [List.append_nil] at both
    rw [hear_of_nil later, hear_of_ok both some pushed, heard]
    exact .refl _
  · have nonempty : t ++ u ≠ [] := List.append_ne_nil_of_left_ne_nil some u
    have whole := Reader.push_append pushed u
    have reads : (c.hear x).inbox.reader = reader := by
      rw [heard]
      rfl
    rcases rest : reader.push u with ⟨reader', line | replies'⟩
    · rw [rest] at whole
      obtain rfl : replies = [] := Reader.eq_nil_of_not_loses pushed whole clean
      have failed := c.inbox.fail_reading d₁ reader (.malformed line)
      rw [hear_of_error later more (reads ▸ rest), hear_of_error both nonempty whole, heard]
      apply Like.heard
      refine ⟨⟨d₂, reader', c.history ++ [.heard t], ?_⟩, sent_heard c t, ?_⟩
      · simp only [Connection.record, List.foldl_nil, failed]
        rfl
      · rintro - ⟨⟩
    · rw [rest] at whole
      have delivered := (replies.foldl Inbox.deliver c.inbox).foldl_deliver_reading d₁ reader replies'
      rw [hear_of_ok later more (reads ▸ rest), hear_of_ok both nonempty whole, heard]
      apply Like.heard
      refine ⟨⟨d₂, reader', c.history ++ [.heard t], ?_⟩, sent_heard c t, fun _ _ => ⟨rfl, rfl⟩⟩
      simp only [Connection.record, delivered, List.foldl_append]
      rfl

end Cut

/-- What is heard in two chunks is heard as in one that loses nothing. -/
theorem Tidy.hear_append (tidy : c.Tidy h) (going : c.isOver = false) {x y : Bytes}
    (lossless : (c.hear (x ++ y)).Lossless) :
    (c.hear (x ++ y)).Like ((c.hear x).act true (.sends y)) := by
  obtain ⟨w, decodes⟩ := tidy.decodes
  obtain ⟨t, u, first, second, both⟩ := read_append w x y
  rw [← decodes] at first both
  by_cases none : t = []
  · subst none
    have same : (c.hear x).act true (.sends y) = c.hear (x ++ y) := by
      rw [hear_of_nil first, Connection.act, if_neg (by simpa [isOver] using going)]
      simp only [if_true, Connection.hear, second, both, List.nil_append]
    rw [same]
    exact .refl _
  · have clean : c.inbox.reader.loses (t ++ u) = false := by
      rcases tidy.not_loses both lossless with empty | clean
      · exact absurd (List.append_eq_nil_iff.1 empty).1 none
      · exact clean
    rcases pushed : c.inbox.reader.push t with ⟨reader, line | replies⟩
    · exact hear_after_error first none both pushed
    · have hears : (c.hear x).act true (.sends y) = (c.hear x).hear y := by
        have goes : (c.hear x).isOver = false := by
          rw [hear_of_ok first none pushed]
          exact going
        rw [Connection.act, goes]
        rfl
      rw [hears]
      exact hear_after_replies first none both second pushed clean

/-- A chunk that loses nothing is heard as its octets are, one after the other. -/
theorem Tidy.hear_singly (tidy : c.Tidy h) (listening : c.listening = true)
    (going : c.isOver = false) (like : c.Like c') {chunk : Bytes}
    (lossless : (c.hear chunk).Lossless) :
    (c.hear chunk).Like ((PeerAct.sends chunk).singly.foldl (act true) c') := by
  induction chunk using List.reverseRecOn with
  | nil =>
    rw [hear_nil tidy.decodes]
    exact like
  | append_singleton chunk b ih =>
    have begun := ih (tidy.lossless_hear_left lossless)
    have listens : (c.hear chunk).listening = true := (keeps_hear c chunk).listening.trans listening
    have singly : (PeerAct.sends (chunk ++ [b])).singly =
        (PeerAct.sends chunk).singly ++ [.sends [b]] := List.map_append
    rw [singly, List.foldl_append]
    exact (tidy.hear_append going lossless).trans (begun.act (fun _ => listens) (.sends [b]))

/-! ## Acts and turns -/

theorem singly_hear (c : Connection) (chunk : Bytes) : c.singly.hear chunk = (c.hear chunk).singly := by
  rcases read : c.inbox.decoder.read chunk with ⟨decoder, text⟩
  by_cases none : text = []
  · rw [none] at read
    rw [hear_of_nil read, hear_of_nil (c := c.singly) read]
    rfl
  · rw [hear_of_text read none, hear_of_text (c := c.singly) read none]
    rfl

theorem singly_finish (c : Connection) (heard : Bool) (s : Setback) :
    c.singly.finish heard s = (c.finish heard s).singly := by
  cases heard <;> rfl

/-- An act is done the same whatever the peer is going to do. -/
theorem singly_act (c : Connection) (heard : Bool) (a : PeerAct) :
    c.singly.act heard a = (c.act heard a).singly := by
  have atEnd : c.singly.isOver = c.isOver := rfl
  have ends := ({ c with ended := true } : Connection).singly_finish heard
  unfold act
  rw [atEnd]
  cases c.isOver
  · cases a with
    | sends chunk =>
      cases heard
      · rfl
      · exact singly_hear c chunk
    | closes => exact ends _
    | breaksDown message => exact ends _
    | failsWrite message => rfl
    | waits ms => rfl
  · rfl

/-- Octets that nobody hears do nothing. -/
theorem foldl_act_missed (chunk : Bytes) {heard : Bool} (missed : c.isOver = true ∨ heard = false) :
    (PeerAct.sends chunk).singly.foldl (act heard) c = c := by
  have single (b : UInt8) : c.act heard (.sends [b]) = c := by
    unfold act
    rcases missed with atEnd | unheard
    · rw [atEnd]
      rfl
    · rw [unheard]
      exact ite_self c
  induction chunk with
  | nil => rfl
  | cons b chunk ih =>
    have first : (PeerAct.sends (b :: chunk)).singly = .sends [b] :: (PeerAct.sends chunk).singly := rfl
    rw [first, List.foldl_cons, single]
    exact ih

/-- An act that loses nothing, and the same act octet by octet. -/
theorem Tidy.act_singly (tidy : c.Tidy h) (like : c.singly.Like c') {heard : Bool}
    (listening : heard = true → c.listening = true) {a : PeerAct}
    (lossless : (c.act heard a).Lossless) :
    (c.act heard a).singly.Like (a.singly.foldl (act heard) c') := by
  rw [← singly_act]
  cases a with
  | sends chunk =>
    by_cases missed : c.isOver = true ∨ heard = false
    · have stays : c.singly.act heard (.sends chunk) = c.singly := by
        rcases missed with atEnd | unheard
        · exact if_pos atEnd
        · rw [unheard]
          exact ite_self _
      rw [stays, foldl_act_missed chunk (missed.imp_left (like.isOver.trans ·))]
      exact like
    · simp only [not_or, Bool.not_eq_true, Bool.not_eq_false] at missed
      obtain ⟨going, rfl⟩ := missed
      have hears : ∀ {d : Connection}, d.isOver = false → d.act true (.sends chunk) = d.hear chunk := by
        intro d going
        rw [act, going]
        rfl
      have same : c.singly.hear chunk = (c.hear chunk).singly := singly_hear c chunk
      rw [hears going] at lossless
      rw [hears (d := c.singly) going]
      have tidy' : c.singly.Tidy h := tidy.elsewhere rfl rfl rfl
      apply tidy'.hear_singly (listening rfl) going like
      rw [same]
      exact lossless
  | _ => exact like.act listening _

variable {heard : Bool} {acts : Turn}

theorem Tidy.foldl_act_singly (tidy : c.Tidy h) (like : c.singly.Like c')
    (listening : heard = true → c.listening = true)
    (lossless : (acts.foldl (act heard) c).Lossless) :
    (acts.foldl (act heard) c).singly.Like (acts.singly.foldl (act heard) c') := by
  induction acts generalizing c c' with
  | nil => exact like
  | cons a acts ih =>
    have tidy' := (steady_tidy h).act heard a tidy
    have first := lossless.before ((steady_tidy _).foldl_act heard acts tidy'.self)
    have listens : heard = true → (c.act heard a).listening = true :=
      fun yes => (keeps_act heard c a).listening.trans (listening yes)
    rw [Turn.singly_cons, List.foldl_append]
    exact ih tidy' (tidy.act_singly like listening first) listens lossless

theorem answer_act {a : PeerAct} (plain : ∀ m, a ≠ .failsWrite m) (r : Connection × Option String) :
    answer r a = (r.1.act r.1.listening a, r.2) := by
  cases a with
  | failsWrite m => exact absurd rfl (plain m)
  | _ => rfl

theorem foldl_answer_act (plain : ∀ a ∈ acts, ∀ m, a ≠ .failsWrite m) (c : Connection)
    (error : Option String) :
    acts.foldl answer (c, error) = (acts.foldl (act c.listening) c, error) := by
  induction acts generalizing c with
  | nil => rfl
  | cons a acts ih =>
    have listening := (keeps_act c.listening c a).listening
    have later := ih (fun b mem => plain b (List.mem_cons_of_mem _ mem)) (c.act c.listening a)
    rw [listening] at later
    rw [List.foldl_cons, List.foldl_cons, answer_act (plain a List.mem_cons_self)]
    exact later

theorem singly_unfailing {a : PeerAct} (plain : ∀ m, a ≠ .failsWrite m) :
    ∀ b ∈ a.singly, ∀ m, b ≠ .failsWrite m := by
  cases a with
  | sends chunk =>
    rintro _ mem m rfl
    obtain ⟨b, -, eq⟩ := List.mem_map.1 mem
    cases eq
  | _ =>
    intro b mem
    rw [List.mem_singleton.1 mem]
    exact plain

/-- The one comes to the same with a peer that sends each octet on its own: the connections are as
they were to each other, and the results are the same. -/
def Agrees {α : Type} (x x' : Connection × α) : Prop := x.1.singly.Like x'.1 ∧ x'.2 = x.2

theorem Tidy.answer_singly (tidy : c.Tidy h) (like : c.singly.Like c') (error : Option String)
    {a : PeerAct} (lossless : (answer (c, error) a).1.Lossless) :
    Agrees (answer (c, error) a) (a.singly.foldl answer (c', error)) := by
  by_cases fails : ∃ m, a = .failsWrite m
  · obtain ⟨m, rfl⟩ := fails
    have atEnd : c'.isOver = c.isOver := like.isOver
    have same : (PeerAct.failsWrite m).singly = [.failsWrite m] := rfl
    rw [same, List.foldl_cons, List.foldl_nil, answer, answer, atEnd]
    split
    · exact ⟨like, rfl⟩
    · exact ⟨like, rfl⟩
  · have plain : ∀ m, a ≠ .failsWrite m := fun m eq => fails ⟨m, eq⟩
    have listening : c'.listening = c.listening := like.listening
    rw [answer_act plain] at lossless
    rw [answer_act plain, foldl_answer_act (singly_unfailing plain), listening]
    exact ⟨tidy.act_singly like (fun yes => yes) lossless, rfl⟩

theorem Tidy.foldl_answer_singly (tidy : c.Tidy h) (like : c.singly.Like c') (acts : Turn)
    (error : Option String) (lossless : (acts.foldl answer (c, error)).1.Lossless) :
    Agrees (acts.foldl answer (c, error)) (acts.singly.foldl answer (c', error)) := by
  induction acts generalizing c c' error with
  | nil => exact ⟨like, rfl⟩
  | cons a acts ih =>
    have tidy' : (answer (c, error) a).1.Tidy h := (steady_tidy h).answer a tidy
    have first : (answer (c, error) a).1.Lossless :=
      lossless.before ((steady_tidy _).foldl_answer acts tidy'.self)
    have answered := tidy.answer_singly like error first
    rw [Turn.singly_cons, List.foldl_append, List.foldl_cons]
    rcases eq : a.singly.foldl answer (c', error) with ⟨d, error'⟩
    rw [eq] at answered
    obtain ⟨like', rfl⟩ := answered
    exact ih tidy' like' _ lossless

end Connection

end FilterBench
