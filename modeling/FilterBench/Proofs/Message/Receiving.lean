import FilterBench.Message.Stuffing
import Mathlib.Data.Nat.Notation

/-!
# What a receiver gets

Content falls into lines, each up to a line feed, and a last piece without one (`lines_induct`). A line
goes over the wire with its first dot doubled and a CRLF for its end, and the encoder is as new after
it (`encode_feed`); the receiver takes it off whole (`receive_line`). So it gets the canonical content
line by line, and nothing of what follows the end mark (`receive_encode`). It makes no difference
in which pieces the content was written (`encode_append`).
-/
namespace FilterBench
open Utf8

namespace Stuffing

theorem encode_append (s : Stuffing) (a b : Bytes) :
    (s.encode (a ++ b)).1 = ((s.encode a).1.encode b).1 ∧
      (s.encode (a ++ b)).2 = (s.encode a).2 ++ ((s.encode a).1.encode b).2 := by
  induction a generalizing s with
  | nil => exact ⟨rfl, rfl⟩
  | cons c a ih =>
    obtain ⟨state, out⟩ := ih (after c)
    simp only [List.cons_append, encode, state, out, List.append_assoc, and_self]

/-- The encoder remembers the last octet. -/
theorem encode_state (s : Stuffing) (content : Bytes) :
    (s.encode content).1 = (content.getLast?.map after).getD s := by
  induction content generalizing s with
  | nil => rfl
  | cons b rest ih =>
    rw [encode, ih, List.getLast?_cons]
    cases rest.getLast? <;> rfl

end Stuffing

namespace Content

/-- A line as it goes over the wire. -/
def stuff : Bytes → Bytes
  | b :: rest => if b = dot then dot :: b :: rest else b :: rest
  | [] => []

/-- A line without the return at its end, if it has one. -/
def trim (line : Bytes) : Bytes :=
  if line.getLast? = some carriageReturn then line.dropLast else line

variable {line : Bytes}

theorem lines_induct {P : Bytes → Prop} (last : ∀ line, lineFeed ∉ line → P line)
    (feed : ∀ line rest, lineFeed ∉ line → P rest → P (line ++ lineFeed :: rest))
    (content : Bytes) : P content := by
  by_cases fed : lineFeed ∈ content
  · obtain ⟨line, rest, split, unfed⟩ := List.eq_append_cons_of_mem fed
    have shorter : rest.length < content.length := by
      rw [split, List.length_append, List.length_cons]
      omega
    rw [split]
    exact feed line rest unfed (lines_induct last feed rest)
  · exact last content fed
termination_by content.length

theorem unstuff_stuff (line : Bytes) : unstuff (stuff line) = line := by
  cases line with
  | nil => rfl
  | cons b rest =>
    rw [stuff]
    split
    · rw [unstuff, if_pos rfl]
    · rename_i other
      rw [unstuff, if_neg other]

/-- No line of the content is the end mark. -/
theorem stuff_ne_mark (line : Bytes) : stuff line ≠ [dot] := by
  cases line with
  | nil => simp [stuff]
  | cons b rest =>
    rw [stuff]
    split
    · simp
    · rename_i other
      simp [other]

theorem stuff_append_cons {b : UInt8} (other : b ≠ dot) (line rest : Bytes) :
    stuff (line ++ b :: rest) = stuff line ++ b :: rest := by
  cases line with
  | nil => simp [stuff, other]
  | cons c line =>
    simp only [List.cons_append, stuff]
    split <;> rfl

theorem not_mem_stuff (unfed : lineFeed ∉ line) : lineFeed ∉ stuff line := by
  cases line with
  | nil => exact unfed
  | cons b rest =>
    rw [stuff]
    split
    · rw [List.mem_cons]
      rintro (same | mem)
      · cases same
      · exact unfed mem
    · exact unfed

theorem not_mem_trim (unfed : lineFeed ∉ line) : lineFeed ∉ trim line := by
  rw [trim]
  split
  · exact fun mem => unfed ((List.dropLast_sublist line).subset mem)
  · exact unfed

/-! ## The receiver -/

theorem splitLine?_feed (unfed : lineFeed ∉ line) (more : Bytes) :
    splitLine? (line ++ carriageReturn :: lineFeed :: more) = some (line, more) := by
  induction line with
  | nil => rfl
  | cons a line ih =>
    have rest := ih fun mem => unfed (List.mem_cons_of_mem _ mem)
    -- The second octet is that of the line, or the return at its end.
    have next : ∃ b more', line ++ carriageReturn :: lineFeed :: more = b :: more' ∧
        b ≠ lineFeed := by
      cases line with
      | nil => exact ⟨carriageReturn, _, rfl, by decide⟩
      | cons b line =>
        refine ⟨b, _, rfl, ?_⟩
        rintro rfl
        simp at unfed
    obtain ⟨b, more', eq, other⟩ := next
    rw [List.cons_append, eq, splitLine?, if_neg (fun both => other both.2), ← eq, rest]
    rfl

theorem receive_of_split {bytes more : Bytes} (split : splitLine? bytes = some (line, more)) :
    receive bytes = if line = [dot] then some ([], more)
      else (receive more).map fun (content, rest) =>
        (unstuff line ++ carriageReturn :: lineFeed :: content, rest) := by
  rw [receive]
  split
  · rename_i none
    cases none.symm.trans split
  · rename_i some
    cases some.symm.trans split
    rfl

theorem receive_mark (rest : Bytes) :
    receive (dot :: carriageReturn :: lineFeed :: rest) = some ([], rest) := by
  have unfed : lineFeed ∉ [dot] := by decide
  have split : splitLine? (dot :: carriageReturn :: lineFeed :: rest) = some ([dot], rest) :=
    splitLine?_feed unfed rest
  rw [receive_of_split split, if_pos rfl]

theorem receive_line (unfed : lineFeed ∉ line) (more : Bytes) :
    receive (stuff line ++ carriageReturn :: lineFeed :: more) =
      (receive more).map fun (content, rest) =>
        (line ++ carriageReturn :: lineFeed :: content, rest) := by
  have split := splitLine?_feed (not_mem_stuff unfed) more
  rw [receive_of_split split, if_neg (stuff_ne_mark line), unstuff_stuff]

/-! ## The encoder -/

theorem encode_unstarted {s : Stuffing} (started : s.lineStart = false)
    (unfed : lineFeed ∉ line) : (s.encode line).2 = line := by
  induction line generalizing s with
  | nil => rfl
  | cons b line ih =>
    have other : b ≠ lineFeed := fun same => unfed (by simp [same])
    have rest : ((Stuffing.after b).encode line).2 = line :=
      ih (by simp [Stuffing.after, other]) fun mem => unfed (List.mem_cons_of_mem _ mem)
    simp only [Stuffing.encode, Stuffing.octet, started, Bool.false_eq_true, false_and, if_false,
      other, List.nil_append, List.singleton_append, rest]

theorem encode_line (unfed : lineFeed ∉ line) : (({} : Stuffing).encode line).2 = stuff line := by
  cases line with
  | nil => rfl
  | cons b line =>
    have other : b ≠ lineFeed := fun same => unfed (by simp [same])
    have rest : ((Stuffing.after b).encode line).2 = line :=
      encode_unstarted (by simp [Stuffing.after, other]) fun mem =>
        unfed (List.mem_cons_of_mem _ mem)
    simp only [Stuffing.encode, Stuffing.octet, true_and, other, false_and, if_false, rest, stuff,
      List.append_nil]
    split <;> rfl

/-- How the octet of a line feed goes over the wire. -/
theorem octet_feed (s : Stuffing) : s.octet lineFeed =
    if s.afterReturn then [lineFeed] else [carriageReturn, lineFeed] := by
  have other : lineFeed ≠ dot := by decide
  cases returned : s.afterReturn <;> simp [Stuffing.octet, other, returned]

theorem trim_cases (line : Bytes) : (∃ t, line = t ++ [carriageReturn] ∧ trim line = t) ∨
    line.getLast? ≠ some carriageReturn ∧ trim line = line := by
  by_cases returned : line.getLast? = some carriageReturn
  · obtain ⟨t, rfl⟩ := List.getLast?_eq_some_iff.1 returned
    refine .inl ⟨t, rfl, ?_⟩
    rw [trim, if_pos returned, List.dropLast_concat]
  · exact .inr ⟨returned, by rw [trim, if_neg returned]⟩

theorem encode_feed (unfed : lineFeed ∉ line) (rest : Bytes) :
    (({} : Stuffing).encode (line ++ lineFeed :: rest)).1 = (({} : Stuffing).encode rest).1 ∧
      (({} : Stuffing).encode (line ++ lineFeed :: rest)).2 =
        stuff (trim line) ++ carriageReturn :: lineFeed :: (({} : Stuffing).encode rest).2 := by
  obtain ⟨state, out⟩ := Stuffing.encode_append {} line (lineFeed :: rest)
  have feeds : ∀ s : Stuffing, (s.encode (lineFeed :: rest)).2 =
      s.octet lineFeed ++ (({} : Stuffing).encode rest).2 := fun s => rfl
  refine ⟨state.trans rfl, ?_⟩
  rw [out, encode_line unfed, feeds, octet_feed, Stuffing.encode_state]
  obtain ⟨t, rfl, trimmed⟩ | ⟨unreturned, trimmed⟩ := trim_cases line
  · rw [trimmed, stuff_append_cons (by decide), List.getLast?_concat]
    simp [Stuffing.after]
  · rw [trimmed]
    have unmarked : ((line.getLast?.map Stuffing.after).getD {}).afterReturn = false := by
      cases last : line.getLast? with
      | none => rfl
      | some b =>
        rw [last] at unreturned
        simpa [Stuffing.after] using unreturned
    rw [unmarked]
    rfl

/-! ## The canonical content -/

theorem withReturns_unfed (unfed : lineFeed ∉ line) (afterReturn : Bool) :
    withReturns afterReturn line = line := by
  induction line generalizing afterReturn with
  | nil => rfl
  | cons b line ih =>
    have other : b ≠ lineFeed := fun same => unfed (by simp [same])
    have rest := ih (fun mem => unfed (List.mem_cons_of_mem _ mem)) (b == carriageReturn)
    simp only [withReturns, other, false_and, if_false, rest, List.singleton_append]

/-- Only a return at the very end of a line counts for the line feed. -/
theorem withReturns_line (unfed : lineFeed ∉ line) (afterReturn : Bool) (rest : Bytes) :
    withReturns afterReturn (line ++ lineFeed :: rest) = line ++
      (if (line.getLast?.map (· == carriageReturn)).getD afterReturn then [lineFeed]
        else [carriageReturn, lineFeed]) ++ withReturns false rest := by
  induction line generalizing afterReturn with
  | nil => cases afterReturn <;> rfl
  | cons b line ih =>
    have other : b ≠ lineFeed := fun same => unfed (by simp [same])
    have next := ih (fun mem => unfed (List.mem_cons_of_mem _ mem)) (b == carriageReturn)
    have last : ((b :: line).getLast?.map (· == carriageReturn)).getD afterReturn =
        (line.getLast?.map (· == carriageReturn)).getD (b == carriageReturn) := by
      rw [List.getLast?_cons]
      cases line.getLast? <;> rfl
    rw [last, List.cons_append, withReturns, next]
    simp only [other, false_and, if_false, List.cons_append, List.nil_append]

theorem withReturns_feed (unfed : lineFeed ∉ line) (rest : Bytes) :
    withReturns false (line ++ lineFeed :: rest) =
      trim line ++ carriageReturn :: lineFeed :: withReturns false rest := by
  rw [withReturns_line unfed]
  obtain ⟨t, rfl, trimmed⟩ | ⟨unreturned, trimmed⟩ := trim_cases line
  · rw [trimmed, List.getLast?_concat]
    simp
  · rw [trimmed]
    have unmarked : (line.getLast?.map (· == carriageReturn)).getD false = false := by
      cases last : line.getLast? with
      | none => rfl
      | some b =>
        rw [last] at unreturned
        simpa using unreturned
    rw [unmarked]
    simp

theorem canonical_feed (unfed : lineFeed ∉ line) (rest : Bytes) :
    canonical (line ++ lineFeed :: rest) =
      trim line ++ carriageReturn :: lineFeed :: canonical rest := by
  have ended : (line ++ lineFeed :: rest = [] ∨
      (line ++ lineFeed :: rest).getLast? = some lineFeed) ↔
        rest = [] ∨ rest.getLast? = some lineFeed := by
    cases rest with
    | nil => simp
    | cons b rest =>
      rw [List.getLast?_append, List.getLast?_cons_cons, List.getLast?_cons]
      simp
  simp only [canonical, ended, withReturns_feed unfed]
  split
  · rfl
  · rw [List.append_assoc, List.cons_append, List.cons_append]

theorem canonical_line (unfed : lineFeed ∉ line) :
    canonical line = if line = [] then [] else line ++ [carriageReturn, lineFeed] := by
  have open' : line.getLast? ≠ some lineFeed := fun last => unfed (List.mem_of_getLast? last)
  simp only [canonical, open', or_false, withReturns_unfed unfed]
  split
  · assumption
  · rfl

/-! ## What was written is received -/

theorem receive_encode (content rest : Bytes) :
    receive ((({} : Stuffing).encode content).2 ++
      ((({} : Stuffing).encode content).1.finish.2 ++ rest)) = some (canonical content, rest) := by
  induction content using lines_induct with
  | last line unfed =>
    rw [canonical_line unfed, encode_line unfed, Stuffing.encode_state]
    cases last : line.getLast? with
    | none =>
      obtain rfl := List.getLast?_eq_none_iff.1 last
      exact receive_mark rest
    | some b =>
      have open' : line ≠ [] := by
        rintro rfl
        cases last
      have other : b ≠ lineFeed := fun same => unfed (same ▸ List.mem_of_getLast? last)
      have ends : ((some b).map Stuffing.after |>.getD {}).finish.2 =
          [carriageReturn, lineFeed, dot, carriageReturn, lineFeed] := by
        simp [Stuffing.finish, Stuffing.after, other]
      rw [ends, if_neg open']
      show receive (stuff line ++ carriageReturn :: lineFeed ::
        dot :: carriageReturn :: lineFeed :: rest) = _
      rw [receive_line unfed, receive_mark]
      rfl
  | feed line more unfed ih =>
    obtain ⟨state, out⟩ := encode_feed unfed more
    rw [state, out, canonical_feed unfed, List.append_assoc, List.cons_append, List.cons_append,
      receive_line (not_mem_trim unfed), ih]
    rfl

end Content

end FilterBench
