import FilterBench.Proofs.Message.Transparency

/-!
# Where one write ends

The encoder remembers the last octet and nothing more, so that it cannot tell where one write ends
and the next begins (`encodeAll_eq`): a message in pieces leaves the encoder, and the octets, of the
message in one piece (`message_eq`). The end mark makes the encoder as new, and so no message
is told from the one before it (`messages_eq`).
-/
namespace FilterBench
open Utf8

namespace Stuffing

/-- Content that comes in pieces, one write after another. -/
def encodeAll (s : Stuffing) : List Bytes → Stuffing × Bytes
  | [] => (s, [])
  | piece :: rest =>
    let (t, out) := s.encode piece
    let (u, more) := t.encodeAll rest
    (u, out ++ more)

/-- A message: its pieces, and the end mark. -/
def message (s : Stuffing) (pieces : List Bytes) : Stuffing × Bytes :=
  let (t, out) := s.encodeAll pieces
  let (u, mark) := t.finish
  (u, out ++ mark)

/-- One message after another. -/
def messages (s : Stuffing) : List (List Bytes) → Stuffing × Bytes
  | [] => (s, [])
  | pieces :: rest =>
    let (t, out) := s.message pieces
    let (u, more) := t.messages rest
    (u, out ++ more)

theorem encodeAll_eq (s : Stuffing) (pieces : List Bytes) :
    s.encodeAll pieces = s.encode pieces.flatten := by
  induction pieces generalizing s with
  | nil => rfl
  | cons piece rest ih =>
    obtain ⟨state, out⟩ := encode_append s piece rest.flatten
    simp only [encodeAll, ih, List.flatten_cons]
    exact Prod.ext state.symm out.symm

theorem message_eq (s : Stuffing) (pieces : List Bytes) :
    s.message pieces = ({}, s.stream pieces) := by
  rw [message, encodeAll_eq, stream_eq]
  rfl

theorem stream_congr (s : Stuffing) {pieces pieces' : List Bytes}
    (same : pieces.flatten = pieces'.flatten) : s.stream pieces = s.stream pieces' := by
  rw [stream_eq, stream_eq, same]

/-- Between messages the encoder is always as new. -/
theorem messages_eq (ms : List (List Bytes)) :
    ({} : Stuffing).messages ms = ({}, ms.flatMap ({} : Stuffing).stream) := by
  induction ms with
  | nil => rfl
  | cons pieces rest ih =>
    rw [messages, message_eq]
    simp only [ih, List.flatMap_cons]

/-- Whatever was encoded before, two writes are as one; two splits of one content give the same
octets, the same end mark and the same encoder. Of messages one after another each is encoded as if it
were the first. -/
theorem pieces_unseen :
    (∀ (s : Stuffing) (a b : Bytes),
      s.encode (a ++ b) =
        (((s.encode a).1.encode b).1, (s.encode a).2 ++ ((s.encode a).1.encode b).2)) ∧
    (∀ (s : Stuffing) (pieces pieces' : List Bytes), pieces.flatten = pieces'.flatten →
      s.encodeAll pieces = s.encodeAll pieces' ∧ s.message pieces = s.message pieces') ∧
    ∀ ms : List (List Bytes),
      ({} : Stuffing).messages ms = ({}, ms.flatMap fun m => (({} : Stuffing).message m).2) := by
  refine ⟨?_, ?_, ?_⟩
  · intro s a b
    obtain ⟨state, out⟩ := encode_append s a b
    exact Prod.ext state out
  · intro s pieces pieces' same
    rw [message_eq, message_eq, stream_congr s same, encodeAll_eq, encodeAll_eq, same]
    exact ⟨rfl, rfl⟩
  · intro ms
    simp only [messages_eq, message_eq]

/-- After a dot, the line `a` and a last line that starts with one: cut between the return and the
line feed and before the second dot, or not at all. -/
theorem pieces_unseen_cut :
    let s : Stuffing := after dot
    let pieces : List Bytes := [[97, carriageReturn], [], [lineFeed], [dot, 98]]
    let whole : List Bytes := [[97, carriageReturn, lineFeed, dot, 98]]
    pieces.flatten = whole.flatten ∧ s.message pieces = s.message whole ∧
      (s.message pieces).2 = [97, carriageReturn, lineFeed, dot, dot, 98, carriageReturn, lineFeed,
        dot, carriageReturn, lineFeed] := by
  intro s pieces whole
  have same : pieces.flatten = whole.flatten := rfl
  exact ⟨same, (pieces_unseen.2.1 s pieces whole same).2, by decide⟩

end Stuffing

end FilterBench
