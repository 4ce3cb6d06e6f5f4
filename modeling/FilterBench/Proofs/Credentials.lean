import FilterBench.Credentials
import FilterBench.Message.Stuffing
import FilterBench.Proofs.Text.Base64
import FilterBench.Proofs.Text.Encoding
import Mathlib.Data.List.DropRight

/-!
# Credentials are read back

The parts of a text between NUL characters are counted by the NULs in it (`Plain.length_parts`), and the
parts of two texts with a NUL between are those of the one and of the other (`Plain.parts_append`). So a
server reads from the response of the PLAIN mechanism the credentials it was made of, or nothing at
all if a part of them holds a NUL (`Plain.read?_response`). `Plain.ofLine?` is what a server makes of
a whole line whose last word is the response in base64.
-/
namespace FilterBench
open Utf8

namespace Plain

variable {text : List Char}

/-! ## Parts -/

theorem length_parts (text : List Char) : (parts text).length = text.count nul + 1 := by
  fun_induction parts text with
  | case1 => rfl
  | case2 rest ih => rw [List.length_cons, ih, List.count_cons_self]
  | case3 c rest other none ih => simp [none] at ih
  | case4 c rest other part more split ih =>
    rw [split, List.length_cons] at ih
    rw [List.length_cons, ih, List.count_cons_of_ne other]

theorem parts_append (text rest : List Char) :
    parts (text ++ nul :: rest) = parts text ++ parts rest := by
  fun_induction parts text with
  | case1 =>
    rw [List.nil_append, parts, if_pos rfl]
    rfl
  | case2 text ih =>
    rw [List.cons_append, parts, if_pos rfl, ih]
    rfl
  | case3 c text other none _ =>
    have some_part := length_parts text
    simp [none] at some_part
  | case4 c text other part more split ih =>
    rw [List.cons_append, parts, if_neg other, ih, split]
    rfl

theorem parts_of_not_mem (whole : nul ∉ text) : parts text = [text] := by
  induction text with
  | nil => rfl
  | cons c text ih =>
    rw [List.mem_cons, not_or] at whole
    rw [parts, if_neg (Ne.symm whole.1), ih whole.2]

/-! ## Responses -/

/-- No part of the credentials holds a NUL. -/
def Clean (p : Plain) : Prop := ∀ part ∈ [p.identity, p.username, p.password], nul ∉ part.toList

instance (p : Plain) : Decidable p.Clean :=
  inferInstanceAs (Decidable (∀ part ∈ [p.identity, p.username, p.password], nul ∉ part.toList))

theorem decode_response (p : Plain) : decode p.response =
    p.identity.toList ++ nul :: (p.username.toList ++ nul :: p.password.toList) := by
  have one : nul.toString.toList = [nul] := rfl
  simp only [response, decode_encode, String.toList_append, one, List.append_assoc,
    List.cons_append, List.nil_append]

theorem parts_response (p : Plain) : parts (decode p.response) =
    parts p.identity.toList ++ (parts p.username.toList ++ parts p.password.toList) := by
  rw [decode_response, parts_append, parts_append]

theorem read?_eq_none {octets : Bytes} (other : (parts (decode octets)).length ≠ 3) :
    read? octets = none := by
  rw [read?]
  split
  · rename_i three
    rw [three] at other
    exact (other rfl).elim
  · rfl

/-- Credentials are read back, unless a part of them holds a NUL: then nothing is read. -/
theorem read?_response (p : Plain) : read? p.response = if p.Clean then some p else none := by
  split
  · rename_i clean
    simp only [Clean, List.forall_mem_cons] at clean
    obtain ⟨identity, username, password, -⟩ := clean
    simp only [read?, parts_response, parts_of_not_mem identity, parts_of_not_mem username,
      parts_of_not_mem password, List.cons_append, List.nil_append, String.ofList_toList]
  · rename_i unclean
    simp only [Clean, List.forall_mem_cons, ← List.count_eq_zero] at unclean
    apply read?_eq_none
    simp only [parts_response, List.length_append, length_parts]
    intro three
    exact unclean ⟨by omega, by omega, by omega, by simp⟩

theorem response_ne_nil (p : Plain) : p.response ≠ [] := by
  intro none
  have text := decode_response p
  rw [none] at text
  simp [decode, decodeFrom] at text

theorem initial_mechanism (p : Plain) :
    p.mechanism.initial = String.ofList (Base64.encode p.response) :=
  if_neg p.response_ne_nil

/-! ## Lines -/

/-- What stands after the last space of a text. -/
def lastWord (text : List Char) : List Char := text.rtakeWhile (· ≠ ' ')

theorem lastWord_append {word : List Char} (whole : ' ' ∉ word) (before : List Char) :
    lastWord (before ++ ' ' :: word) = word := by
  have all : ∀ c ∈ word.reverse, decide (c ≠ ' ') = true := by
    intro c mem
    rw [decide_eq_true_eq]
    rintro rfl
    exact whole (List.mem_reverse.1 mem)
  rw [lastWord, List.rtakeWhile, List.reverse_append, List.reverse_cons, List.append_assoc,
    List.takeWhile_append_of_pos all, List.singleton_append, List.takeWhile_cons_of_neg (by simp),
    List.append_nil, List.reverse_reverse]

/-- What a server makes of the first line in some octets, when the last word of the line is a response
in base64. -/
def ofLine? (octets : Bytes) : Option Plain := do
  let first ← Content.splitLine? octets
  read? (← Base64.decode? (lastWord (decode first.1)))

end Plain

end FilterBench
