import FilterBench.Proofs.Connection.Accounting
import FilterBench.Proofs.Connection.Silence
import FilterBench.Proofs.Reply.Reading
import Mathlib.Data.List.Infix

/-!
# Replies that are lost

A malformed line costs the replies that stand before it in the same piece of text, and no others:
`losesFrom` says whether what was heard has ever cost any. The history tells, since a connection
keeps its reader where the history leads it (`Connection.Tidy`), whatever the peer does and
whatever the client asks for.
-/
namespace FilterBench
open Utf8 Reply

/-- The text has a malformed line, and a reply before it. -/
def Reply.Reader.loses (reader : Reader) (text : List Char) : Bool :=
  match reader.push text with
  | (_, .ok _) => false
  | (_, .error _) => text.inits.any fun start =>
    match reader.push start with
    | (_, .ok replies) => !replies.isEmpty
    | (_, .error _) => false

/-- Whether any of what was heard has cost replies. -/
def losesFrom (reader : Reader) : List Event → Bool
  | [] => false
  | .heard text :: rest =>
    reader.loses text || losesFrom (Event.readBy reader (.heard text)).1 rest
  | e :: rest => losesFrom (e.readBy reader).1 rest

theorem losesFrom_append (reader : Reader) (h h' : List Event) :
    losesFrom reader (h ++ h') = (losesFrom reader h || losesFrom (readerAfter reader h) h') := by
  induction h generalizing reader with
  | nil => rfl
  | cons e h ih =>
    cases e with
    | heard text =>
      rw [List.cons_append, losesFrom, ih, losesFrom, Bool.or_assoc]
      rfl
    | _ => exact ih _

theorem losesFrom_of_prefix {reader : Reader} {h h' : List Event} (within : h <+: h')
    (none : losesFrom reader h' = false) : losesFrom reader h = false := by
  obtain ⟨rest, rfl⟩ := within
  rw [losesFrom_append, Bool.or_eq_false_iff] at none
  exact none.1

namespace Reply.Reader

variable {r r' : Reader} {x y line : List Char} {replies : List Reply}

theorem loses_of_ok (h : r.push x = (r', .ok replies)) : r.loses x = false := by
  rw [loses, h]

/-- Text that loses nothing makes no reply before a malformed line. -/
theorem eq_nil_of_not_loses (h : r.push x = (r', .ok replies)) {r'' : Reader}
    (malformed : r.push (x ++ y) = (r'', .error line)) (none : r.loses (x ++ y) = false) :
    replies = [] := by
  rw [loses, malformed] at none
  have start := List.any_eq_false.1 none x (by simp)
  simpa [h] using start

/-- What the whole loses not, its beginning does not lose. -/
theorem not_loses_left (none : r.loses (x ++ y) = false) : r.loses x = false := by
  rcases pushed : r.push x with ⟨r', line | replies⟩
  · rw [loses, push_error_append pushed] at none
    rw [loses, pushed]
    rw [List.any_eq_false] at none ⊢
    intro start within
    apply none
    rw [List.mem_inits] at within ⊢
    exact within.trans (List.prefix_append x y)
  · exact loses_of_ok pushed

end Reply.Reader

/-- Two chunks give the text of the one that they make together. -/
theorem Utf8.read_append (w x y : Bytes) : ∃ t u,
    (Decoder.afterReading w).read x = (.afterReading (w ++ x), t) ∧
      (Decoder.afterReading (w ++ x)).read y = (.afterReading (w ++ x ++ y), u) ∧
      (Decoder.afterReading w).read (x ++ y) = (.afterReading (w ++ x ++ y), t ++ u) := by
  obtain ⟨t, first, text⟩ := read_afterReading w x
  obtain ⟨u, second, text'⟩ := read_afterReading (w ++ x) y
  obtain ⟨v, both, text''⟩ := read_afterReading w (x ++ y)
  have joined : v = t ++ u := by
    rw [← List.append_assoc, text', text, List.append_assoc] at text''
    exact (List.append_cancel_left text'').symm
  rw [← List.append_assoc] at both
  exact ⟨t, u, first, second, joined ▸ both⟩

namespace Inbox

variable (b : Inbox) (d : Decoder) (reader : Reader)

/-- The inbox, with what it reads put elsewhere. -/
def reading : Inbox := { b with decoder := d, reader := reader }

theorem fail_reading (s : Setback) : (b.reading d reader).fail s = (b.fail s).reading d reader := by
  obtain ⟨_, _, _, waiter, failure⟩ := b
  cases failure
  · cases waiter <;> rfl
  · rfl

theorem deliver_reading (r : Reply) :
    (b.reading d reader).deliver r = (b.deliver r).reading d reader := by
  obtain ⟨_, _, _, waiter, _⟩ := b
  cases waiter <;> rfl

theorem foldl_deliver_reading (replies : List Reply) :
    replies.foldl deliver (b.reading d reader) = (replies.foldl deliver b).reading d reader := by
  induction replies generalizing b with
  | nil => rfl
  | cons r replies ih =>
    rw [List.foldl_cons, deliver_reading, ih]
    rfl

/-- A failure is not read, and moves nothing that reads. -/
theorem fail_reads (s : Setback) :
    (b.fail s).decoder = b.decoder ∧ (b.fail s).reader = b.reader := by
  have same : b.fail s = (b.fail s).reading b.decoder b.reader := b.fail_reading _ _ s
  rw [same]
  exact ⟨rfl, rfl⟩

theorem readText_ok {text : List Char} {replies : List Reply}
    (pushed : b.reader.push text = (reader, .ok replies)) :
    b.readText text = ((replies.foldl deliver b).reading b.decoder reader, false) := by
  have delivered := b.foldl_deliver_reading b.decoder reader replies
  rw [readText, pushed, ← delivered]
  rfl

theorem readText_error {text line : List Char}
    (pushed : b.reader.push text = (reader, .error line)) :
    b.readText text = ((b.fail (.malformed line)).reading b.decoder reader, true) := by
  have failed := b.fail_reading b.decoder reader (.malformed line)
  rw [readText, pushed, ← failed]
  rfl

theorem take?_reading :
    (b.reading d reader).take? = b.take?.map fun (answer, b) => (answer, b.reading d reader) := by
  obtain ⟨_, _, queued, _, failure⟩ := b
  cases queued
  · cases failure <;> rfl
  · rfl

variable {b} in
theorem take?_reads {b' : Inbox} {answer : Except Setback Reply}
    (taken : b.take? = some (answer, b')) : b'.decoder = b.decoder ∧ b'.reader = b.reader := by
  have same : b.take? = b.take?.map fun (answer, b') => (answer, b'.reading b.decoder b.reader) :=
    b.take?_reading _ _
  simp only [taken, Option.map_some, Option.some.injEq, Prod.mk.injEq, true_and] at same
  rw [same]
  exact ⟨rfl, rfl⟩

end Inbox

namespace Connection

theorem hear_of_ok {c : Connection} {chunk : Bytes} {d : Decoder} {text : List Char}
    {reader : Reader} {replies : List Reply} (read : c.inbox.decoder.read chunk = (d, text))
    (some : text ≠ []) (pushed : c.inbox.reader.push text = (reader, .ok replies)) :
    c.hear chunk = ({ c with
      inbox := (replies.foldl Inbox.deliver c.inbox).reading d reader } : Connection).record
        (.heard text) := by
  have made : ({ c.inbox with decoder := d } : Inbox).readText text =
      ((replies.foldl Inbox.deliver c.inbox).reading d reader, false) := by
    have made := (c.inbox.reading d c.inbox.reader).readText_ok reader pushed
    rw [Inbox.foldl_deliver_reading] at made
    exact made
  rw [hear_of_text read some, made, Bool.or_false]

theorem hear_of_error {c : Connection} {chunk : Bytes} {d : Decoder} {text line : List Char}
    {reader : Reader} (read : c.inbox.decoder.read chunk = (d, text))
    (some : text ≠ []) (pushed : c.inbox.reader.push text = (reader, .error line)) :
    c.hear chunk = ({ c with
      inbox := (c.inbox.fail (.malformed line)).reading d reader
      dropped := true } : Connection).record (.heard text) := by
  have made : ({ c.inbox with decoder := d } : Inbox).readText text =
      ((c.inbox.fail (.malformed line)).reading d reader, true) := by
    have made := (c.inbox.reading d c.inbox.reader).readText_error reader pushed
    rw [Inbox.fail_reading] at made
    exact made
  rw [hear_of_text read some, made, Bool.or_true]

/-- The decoder and the reader are where the octets and the text have led them that were heard
since the channel is secure, and what has happened so far begins with some history. -/
structure Tidy (h : List Event) (c : Connection) : Prop where
  reader : c.inbox.reader = readerAfter {} c.history
  decodes : c.Decodes
  grown : h <+: c.history

variable {c c' : Connection} {h : List Event}

namespace Tidy

/-- Changes that concern neither the decoder nor the reader. -/
theorem elsewhere (tidy : c.Tidy h) (history : c'.history = c.history)
    (decoder : c'.inbox.decoder = c.inbox.decoder) (reader : c'.inbox.reader = c.inbox.reader) :
    c'.Tidy h := by
  obtain ⟨w, decodes⟩ := tidy.decodes
  refine ⟨?_, ⟨w, decoder.trans decodes⟩, ?_⟩
  · rw [reader, history, tidy.reader]
  · rw [history]
    exact tidy.grown

theorem record (tidy : c.Tidy h) {e : Event} (reads : ∀ reader, (e.readBy reader).1 = reader) :
    (c.record e).Tidy h := by
  refine ⟨?_, tidy.decodes, tidy.grown.trans (List.prefix_append _ _)⟩
  rw [Connection.record, readerAfter_concat, reads]
  exact tidy.reader

theorem fail (tidy : c.Tidy h) (s : Setback) : (c.fail s).Tidy h := by
  have same := c.inbox.fail_reads s
  exact tidy.elsewhere rfl same.1 same.2

theorem finish (tidy : c.Tidy h) (heard : Bool) (s : Setback) : (c.finish heard s).Tidy h := by
  cases heard
  · exact tidy
  · exact tidy.fail s

theorem hear (tidy : c.Tidy h) (chunk : Bytes) : (c.hear chunk).Tidy h := by
  obtain ⟨w, decodes⟩ := tidy.decodes
  obtain ⟨text, read, -⟩ := read_afterReading w chunk
  rw [← decodes] at read
  by_cases none : text = []
  · rw [none] at read
    rw [hear_of_nil read]
    exact ⟨tidy.reader, ⟨_, rfl⟩, tidy.grown⟩
  · have grown : h <+: c.history ++ [.heard text] := tidy.grown.trans (List.prefix_append _ _)
    rcases pushed : c.inbox.reader.push text with ⟨reader, line | replies⟩
    all_goals
      have reads : (Event.readBy (readerAfter {} c.history) (.heard text)).1 = reader := by
        simp only [Event.readBy, ← tidy.reader, pushed]
    · rw [hear_of_error read none pushed]
      refine ⟨?_, ⟨w ++ chunk, rfl⟩, grown⟩
      rw [Connection.record, readerAfter_concat, reads]
      rfl
    · rw [hear_of_ok read none pushed]
      refine ⟨?_, ⟨w ++ chunk, rfl⟩, grown⟩
      rw [Connection.record, readerAfter_concat, reads]
      rfl

end Tidy

theorem steady_tidy (h : List Event) : Steady (Tidy h) where
  act {c} heard a tidy := by
    have ends : ({ c with ended := true } : Connection).Tidy h := tidy.elsewhere rfl rfl rfl
    unfold act
    split
    · exact tidy
    · cases a with
      | sends chunk =>
        cases heard
        · exact tidy
        · exact tidy.hear chunk
      | closes => exact ends.finish heard _
      | breaksDown message => exact ends.finish heard _
      | failsWrite message => exact tidy
      | waits ms => exact tidy
  move now s tidy := tidy.elsewhere rfl rfl rfl

namespace Tidy

theorem write (tidy : c.Tidy h) (data : Bytes) : (c.write data).1.Tidy h := by
  rw [Connection.write]
  split
  · exact tidy
  · split
    · exact tidy.record fun _ => rfl
    · have wrote : (c.record (.wrote data)).Tidy h := tidy.record fun _ => rfl
      have responded := (steady_tidy h).respond (fun turns tidy => tidy.elsewhere rfl rfl rfl) wrote
      split <;> rename_i eq <;> rw [eq] at responded <;> exact responded

theorem settle (tidy : c.Tidy h) : c.settle.1.Tidy h := by
  have played := (steady_tidy h).playWhile awaits c.upcoming tidy
  have stopped : (playWhile awaits c.upcoming c).stopWaiting.Tidy h :=
    played.elsewhere rfl rfl rfl
  rw [Connection.settle]
  split
  · exact stopped
  · exact (stopped.fail (.timedOut _)).elsewhere rfl rfl rfl
  · exact played

theorem await (tidy : c.Tidy h) : c.await.1.Tidy h := by
  have answered : c.answered.1.Tidy h := by
    rw [Connection.answered]
    split
    · rename_i answer b taken
      have same := Inbox.take?_reads taken
      exact tidy.elsewhere rfl same.1 same.2
    · apply Tidy.settle
      exact tidy.elsewhere rfl rfl rfl
  rw [Connection.await]
  split
  · rename_i c' r eq
    rw [eq] at answered
    exact answered.record fun _ => rfl
  · exact answered

/-- A new channel is read from its beginning. -/
theorem renewed (tidy : c.Tidy h) (history : c'.history = c.history ++ [.secured])
    (inbox : c'.inbox = c.inbox.renewed) : c'.Tidy h := by
  refine ⟨?_, ⟨[], ?_⟩, ?_⟩
  · rw [inbox, history, readerAfter_concat]
    rfl
  · rw [inbox]
    rfl
  · rw [history]
    exact tidy.grown.trans (List.prefix_append _ _)

theorem secure (tidy : c.Tidy h) : c.secure.1.Tidy h := by
  have left : ({ c with
      listening := false, handshakes := c.handshakes.tail, upcoming := c.forsaken } :
        Connection).Tidy h := tidy.elsewhere rfl rfl rfl
  rw [Connection.secure]
  split
  · apply (steady_tidy h).playWhile
    exact left.elsewhere rfl rfl rfl
  · rename_i after error _
    have played := (steady_tidy h).playWhile (fun _ p => p.isBefore (c.now + after)) c.forsaken left
    cases error with
    | some cause => exact played.elsewhere rfl rfl rfl
    | none => exact played.renewed rfl rfl

theorem close (tidy : c.Tidy h) : c.close.Tidy h := by
  have dropped : ({ c with dropped := true } : Connection).Tidy h := tidy.elsewhere rfl rfl rfl
  exact dropped.finish _ _

theorem perform (tidy : c.Tidy h) (q : Request) : (c.perform q).1.Tidy h := by
  cases q with
  | write data => exact tidy.write data
  | await => exact tidy.await
  | secure => exact tidy.secure
  | close => exact tidy.close
  | note text => exact tidy.record fun _ => rfl

theorem run {α : Type} (tidy : c.Tidy h) (d : Dialogue α) : (c.run d).1.Tidy h := by
  induction d generalizing c with
  | done a => exact tidy
  | ask q next ih =>
    have performed := tidy.perform q
    rw [Connection.run]
    split
    · rename_i c₁ answer eq
      rw [eq] at performed
      exact ih answer performed
    · rename_i c₁ eq
      rw [eq] at performed
      exact performed

/-- What has happened is the beginning of what will have happened. -/
theorem self (tidy : c.Tidy h) : c.Tidy c.history := ⟨tidy.reader, tidy.decodes, List.prefix_refl _⟩

end Tidy

end Connection

end FilterBench
