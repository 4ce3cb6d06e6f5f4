import FilterBench.Proofs.Message.Receiving

/-!
# The end mark, once

What an encoder writes in pieces is what it would have written at once (`stream_eq`). On the wire
every line feed follows a return, and the end mark ends the stream. That it ends it nowhere else
needs no second look at the encoder: a receiver stops at the first mark there is, whatever the octets
are (`receive_remainder`), and what it has left after these is nothing (`receive_encode`).

The canonical content differs from the content in the returns before line feeds only: without these
(`bare`) the two are the same, up to the line feed that ends the last line.
-/
namespace FilterBench
open Utf8

namespace Stuffing

/-- What the encoder writes for content that comes in pieces, with the end mark. -/
def stream (s : Stuffing) : List Bytes → Bytes
  | [] => s.finish.2
  | piece :: rest => (s.encode piece).2 ++ (s.encode piece).1.stream rest

theorem stream_eq (s : Stuffing) (pieces : List Bytes) :
    s.stream pieces = (s.encode pieces.flatten).2 ++ (s.encode pieces.flatten).1.finish.2 := by
  induction pieces generalizing s with
  | nil => rfl
  | cons piece rest ih =>
    obtain ⟨state, out⟩ := encode_append s piece rest.flatten
    rw [stream, ih, List.flatten_cons, state, out, List.append_assoc]

end Stuffing

namespace Content

variable {line : Bytes}

/-- Every line feed follows a return. -/
def Returned (bytes : Bytes) : Prop :=
  ∀ before after, bytes = before ++ lineFeed :: after → before.getLast? = some carriageReturn

/-- What comes next starts a line. -/
def AtLine (before : Bytes) : Prop := before = [] ∨ [carriageReturn, lineFeed] <:+ before

/-- The line that ends the content. -/
def endMark : Bytes := [dot, carriageReturn, lineFeed]

/-- The content without the returns before its line feeds. -/
def bare : Bytes → Bytes
  | [] => []
  | b :: rest => if b = carriageReturn ∧ rest.head? = some lineFeed then bare rest else b :: bare rest

/-! ## Every line feed follows a return -/

theorem returned_unfed (unfed : lineFeed ∉ line) : Returned line := by
  rintro before after rfl
  exact absurd (List.mem_append_right before List.mem_cons_self) unfed

theorem returned_append {a b : Bytes} (first : Returned a) (second : Returned b) :
    Returned (a ++ b) := by
  intro before after whole
  obtain ⟨mid, rfl, split⟩ | ⟨mid, rfl, split⟩ := List.append_eq_append_iff.1 whole
  · have last := second mid after split
    rw [List.getLast?_append, last]
    rfl
  · cases mid with
    | nil => exact absurd (second [] after split.symm) (by simp)
    | cons b mid =>
      obtain ⟨rfl, -⟩ := List.cons.inj split
      exact first before mid rfl

theorem returned_crlf : Returned [carriageReturn, lineFeed] := by
  intro before after split
  match before, split with
  | [], split => cases split
  | [b], split =>
    obtain ⟨rfl, -⟩ := List.cons.inj split
    rfl
  | b :: c :: before, split => simp at split

/-! ## What the encoder writes, line by line -/

/-- The content on the wire, with the end mark. -/
def wire (content : Bytes) : Bytes :=
  (({} : Stuffing).encode content).2 ++ (({} : Stuffing).encode content).1.finish.2

theorem wire_feed (unfed : lineFeed ∉ line) (rest : Bytes) :
    wire (line ++ lineFeed :: rest) =
      stuff (trim line) ++ [carriageReturn, lineFeed] ++ wire rest := by
  obtain ⟨state, out⟩ := encode_feed unfed rest
  simp only [wire, state, out, List.append_assoc, List.cons_append, List.nil_append]

/-- A last line that the content does not end is ended all the same. -/
theorem wire_line (unfed : lineFeed ∉ line) :
    wire line = if line = [] then endMark
      else stuff line ++ [carriageReturn, lineFeed] ++ endMark := by
  rw [wire, encode_line unfed, Stuffing.encode_state]
  cases last : line.getLast? with
  | none =>
    obtain rfl := List.getLast?_eq_none_iff.1 last
    rfl
  | some b =>
    have other : b ≠ lineFeed := fun same => unfed (same ▸ List.mem_of_getLast? last)
    have started : line ≠ [] := by
      rintro rfl
      cases last
    have ends : ((some b).map Stuffing.after |>.getD {}).finish.2 =
        [carriageReturn, lineFeed] ++ endMark := by
      simp [Stuffing.finish, Stuffing.after, other, endMark]
    rw [ends, if_neg started, List.append_assoc]

theorem returned_endMark : Returned endMark :=
  returned_append (returned_unfed (by decide) : Returned [dot]) returned_crlf

theorem returned_wire (content : Bytes) : Returned (wire content) := by
  induction content using lines_induct with
  | last line unfed =>
    rw [wire_line unfed]
    split
    · exact returned_endMark
    · exact returned_append
        (returned_append (returned_unfed (not_mem_stuff unfed)) returned_crlf) returned_endMark
  | feed line rest unfed ih =>
    rw [wire_feed unfed]
    have first := returned_unfed (not_mem_stuff (not_mem_trim unfed))
    exact returned_append (returned_append first returned_crlf) ih

theorem atLine_append {before : Bytes} (a : Bytes) (line : AtLine before) (ended : AtLine a) :
    AtLine (a ++ before) := by
  rcases line with rfl | suffix
  · rwa [List.append_nil]
  · exact .inr (suffix.trans (List.suffix_append a before))

/-- The wire ends with the mark, at the start of a line. -/
theorem endMark_wire (content : Bytes) :
    ∃ before, wire content = before ++ endMark ∧ AtLine before := by
  induction content using lines_induct with
  | last line unfed =>
    rw [wire_line unfed]
    split
    · exact ⟨[], rfl, .inl rfl⟩
    · exact ⟨_, rfl, .inr (List.suffix_append _ _)⟩
  | feed line rest unfed ih =>
    obtain ⟨before, split, started⟩ := ih
    rw [wire_feed unfed, split, ← List.append_assoc]
    exact ⟨_, rfl, atLine_append _ started (.inr (List.suffix_append _ _))⟩

/-! ## The receiver stops at the first mark -/

theorem splitLine?_append {bytes more : Bytes} (split : splitLine? bytes = some (line, more))
    (rest : Bytes) : splitLine? (bytes ++ rest) = some (line, more ++ rest) := by
  fun_induction splitLine? bytes generalizing line more with
  | case1 => cases split
  | case2 => cases split
  | case3 a b tail ended =>
    cases split
    rw [List.cons_append, List.cons_append, splitLine?, if_pos ended]
  | case4 a b tail open' ih =>
    obtain ⟨⟨l, m⟩, found, pair⟩ := Option.map_eq_some_iff.1 split
    cases pair
    rw [List.cons_append, List.cons_append, splitLine?, if_neg open', ← List.cons_append, ih found]
    rfl

/-- Of octets that end a line, the first line can be taken off, and the others end a line still. -/
theorem splitLine?_ended {before : Bytes} (ended : [carriageReturn, lineFeed] <:+ before) :
    ∃ line more, splitLine? before = some (line, more) ∧ AtLine more := by
  fun_induction splitLine? before with
  | case1 => simp at ended
  | case2 => simp [List.suffix_cons_iff] at ended
  | case3 a b tail first =>
    refine ⟨_, _, rfl, ?_⟩
    obtain ⟨rfl, rfl⟩ := first
    rcases List.suffix_cons_iff.1 ended with same | ended
    · exact .inl (List.cons.inj (List.cons.inj same).2).2.symm
    · rcases List.suffix_cons_iff.1 ended with same | ended
      · cases (List.cons.inj same).1
      · exact .inr ended
  | case4 a b tail first ih =>
    rcases List.suffix_cons_iff.1 ended with same | ended
    · cases same
      exact absurd ⟨rfl, rfl⟩ first
    · obtain ⟨line, more, found, started⟩ := ih ended
      rw [found]
      exact ⟨_, _, rfl, started⟩

/-- Where there is a mark, the receiver has stopped: there or before. -/
theorem receive_remainder {before rest content remainder : Bytes} (started : AtLine before)
    (received : receive (before ++ (endMark ++ rest)) = some (content, remainder)) :
    rest.length ≤ remainder.length := by
  rcases started with rfl | ended
  · have mark : receive ([] ++ (endMark ++ rest)) = some ([], rest) := receive_mark rest
    cases mark.symm.trans received
    exact Nat.le_refl _
  · obtain ⟨line, more, split, started⟩ := splitLine?_ended ended
    have shorter := splitLine?_length split
    rw [receive_of_split (splitLine?_append split _)] at received
    split at received
    · cases received
      simp only [List.length_append]
      omega
    · obtain ⟨⟨_, _⟩, next, pair⟩ := Option.map_eq_some_iff.1 received
      cases pair
      exact receive_remainder started next
termination_by before.length

/-! ## What the receiver may take away again -/

theorem head?_withReturns (content : Bytes) :
    (withReturns true content).head? = content.head? := by
  cases content with
  | nil => rfl
  | cons b rest => simp [withReturns]

theorem bare_withReturns (afterReturn : Bool) (content : Bytes) :
    bare (withReturns afterReturn content) = bare content := by
  induction content generalizing afterReturn with
  | nil => rfl
  | cons b rest ih =>
    have fed : lineFeed ≠ carriageReturn := by decide
    by_cases feed : b = lineFeed
    · subst feed
      cases afterReturn <;> simp [withReturns, bare, fed, ih]
    · by_cases returned : b = carriageReturn
      · subst returned
        simp [withReturns, feed, bare, head?_withReturns, ih]
      · simp [withReturns, feed, bare, returned, ih]

theorem bare_ended (lines : Bytes) :
    bare (lines ++ [carriageReturn, lineFeed]) = bare lines ++ [lineFeed] := by
  induction lines with
  | nil => rfl
  | cons b rest ih =>
    have next : (rest ++ [carriageReturn, lineFeed]).head? = some lineFeed ↔
        rest.head? = some lineFeed := by
      cases rest with
      | nil => simp; decide
      | cons c rest => rfl
    simp only [List.cons_append, bare, next, ih]
    split <;> rfl

theorem bare_canonical (content : Bytes) : bare (canonical content) =
    bare content ++ if content = [] ∨ content.getLast? = some lineFeed then [] else [lineFeed] := by
  rw [canonical]
  split
  · rw [bare_withReturns, List.append_nil]
  · rw [bare_ended, bare_withReturns]

theorem withReturns_returned {content : Bytes} (returned : Returned content) :
    withReturns false content = content := by
  induction content using lines_induct with
  | last line unfed => exact withReturns_unfed unfed false
  | feed line rest unfed ih =>
    have last := returned line rest rfl
    have more : Returned rest := by
      intro before after split
      have whole := returned (line ++ lineFeed :: before) after (by simp [split])
      rw [List.getLast?_append, List.getLast?_cons] at whole
      cases final : before.getLast? with
      | none =>
        have fed : lineFeed ≠ carriageReturn := by decide
        simp [final, fed] at whole
      | some b =>
        rw [final] at whole
        simpa using whole
    rw [withReturns_line unfed, last, ih more]
    simp

/-- However the content is cut into pieces, on the wire every line feed follows a return, and the
end mark stands at the very end and nowhere else. A receiver gets the content with its bare line
feeds made CRLF and its last line ended, and keeps what follows the mark; nothing but returns before
line feeds is added. Content that is like that already comes as it is. -/
theorem stream_transparent (pieces : List Bytes) :
    let content := pieces.flatten
    let stream := ({} : Stuffing).stream pieces
    Returned stream ∧
      (∃ before, stream = before ++ endMark ∧ AtLine before) ∧
      (∀ before rest, AtLine before → stream = before ++ (endMark ++ rest) → rest = []) ∧
      (∀ rest, receive (stream ++ rest) = some (canonical content, rest)) ∧
      bare (canonical content) = bare content ++
        (if content = [] ∨ content.getLast? = some lineFeed then [] else [lineFeed]) ∧
      (Returned content → content = [] ∨ content.getLast? = some lineFeed →
        canonical content = content) := by
  intro content stream
  have whole : stream = wire content := Stuffing.stream_eq {} pieces
  have received (rest : Bytes) : receive (stream ++ rest) = some (canonical content, rest) := by
    rw [whole, wire, List.append_assoc]
    exact receive_encode content rest
  refine ⟨whole ▸ returned_wire content, whole ▸ endMark_wire content, ?_, received,
    bare_canonical content, ?_⟩
  · intro before rest started split
    have all := received []
    rw [List.append_nil, split] at all
    exact List.length_eq_zero_iff.1 (Nat.le_zero.1 (receive_remainder started all))
  · intro returned ended
    rw [canonical, if_pos ended, withReturns_returned returned]

/-- The line `.a`, cut between its return and its line feed. -/
theorem stream_transparent_cut :
    let pieces : List Bytes := [[dot, 97, carriageReturn], [lineFeed]]
    let stream := ({} : Stuffing).stream pieces
    let before : Bytes := [dot, dot, 97, carriageReturn, lineFeed]
    AtLine before ∧ stream = before ++ (endMark ++ []) ∧ Returned pieces.flatten ∧
      receive (stream ++ [lineFeed]) = some (pieces.flatten, [lineFeed]) := by
  intro pieces stream before
  have returned : Returned ([dot, 97] ++ [carriageReturn, lineFeed]) :=
    returned_append (returned_unfed (by decide)) returned_crlf
  obtain ⟨-, -, -, received, -, same⟩ := stream_transparent pieces
  have unchanged : canonical pieces.flatten = pieces.flatten := same returned (.inr rfl)
  exact ⟨.inr ⟨[dot, dot, 97], rfl⟩, by decide, returned, unchanged ▸ received [lineFeed]⟩

end Content

end FilterBench
