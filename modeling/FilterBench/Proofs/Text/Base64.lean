import FilterBench.Text.Base64
import Mathlib.Data.List.Basic

/-!
# Octets survive base64

`decode?` gives back all octets that were written by `encode`, whatever their number modulo three.
What is written has only the characters of the `alphabet`, none of which ends a word or a line.
-/
namespace FilterBench.Base64
open Utf8

/-- The letters in the order of their values, and the padding. -/
def alphabet : List Char :=
  "ABCDEFGHIJKLMNOPQRSTUVWXYZabcdefghijklmnopqrstuvwxyz0123456789+/=".toList

theorem getElem?_alphabet : ∀ n < 64, alphabet[n]? = some (letter n) := by decide +kernel

theorem letter_mem_alphabet (n : ℕ) (h : n < 64) : letter n ∈ alphabet :=
  List.mem_of_getElem? (getElem?_alphabet n h)

theorem padding_mem_alphabet : '=' ∈ alphabet := by decide +kernel

theorem letter_ne_padding : ∀ n < 64, letter n ≠ '=' := by decide +kernel

theorem value?_letter : ∀ n < 64, value? (letter n) = some n := by decide +kernel

/-- Neither a control character nor the space is in the alphabet. -/
theorem space_lt_of_mem {c : Char} (h : c ∈ alphabet) : 32 < c.toNat := by
  have all : alphabet.all (fun c => 32 < c.toNat) = true := by decide +kernel
  exact of_decide_eq_true (List.all_eq_true.1 all c h)

/-! ## Groups of letters -/

section

variable {p q r s : ℕ} (hp : p < 64) (hq : q < 64)
include hp hq

theorem decode?_one (whole : (p * 64 + q) % 16 = 0) :
    decode? [letter p, letter q, '=', '='] = some [((p * 64 + q) / 16).toUInt8] := by
  rw [decode?, value?_letter p hp, value?_letter q hq]
  exact if_pos whole

theorem decode?_two (hr : r < 64) (whole : ((p * 64 + q) * 64 + r) % 4 = 0) :
    decode? [letter p, letter q, letter r, '='] =
      some [(((p * 64 + q) * 64 + r) / 1024).toUInt8,
        (((p * 64 + q) * 64 + r) / 4 % 256).toUInt8] := by
  rw [decode?, value?_letter p hp, value?_letter q hq, value?_letter r hr]
  · exact if_pos whole
  · exact letter_ne_padding r hr

theorem decode?_three (hr : r < 64) (hs : s < 64) (rest : List Char) :
    decode? (letter p :: letter q :: letter r :: letter s :: rest) =
      (decode? rest).map fun tail =>
        let n := ((p * 64 + q) * 64 + r) * 64 + s
        (n / 65536).toUInt8 :: (n / 256 % 256).toUInt8 :: (n % 256).toUInt8 :: tail := by
  rw [decode?, value?_letter p hp, value?_letter q hq, value?_letter r hr, value?_letter s hs]
  · cases decode? rest <;> rfl
  -- The last letter is no padding, so that this is no group that ends early.
  · exact fun _ same => absurd same (letter_ne_padding s hs)
  · exact fun same => absurd same (letter_ne_padding s hs)

end

/-! ## Whole texts -/

theorem toUInt8_eq {n : ℕ} {b : UInt8} (h : n = b.toNat) : n.toUInt8 = b := by
  rw [h]
  exact UInt8.ofNat_toNat

theorem decode?_encode (bytes : Bytes) : decode? (encode bytes) = some bytes := by
  fun_induction encode bytes with
  | case1 => rfl
  | case2 a n =>
    have := a.toNat_lt
    rw [decode?_one (by omega) (by omega) (by omega)]
    rw [toUInt8_eq (b := a) (by omega)]
  | case3 a b n =>
    have := a.toNat_lt
    have := b.toNat_lt
    rw [decode?_two (by omega) (by omega) (by omega) (by omega)]
    rw [toUInt8_eq (b := a) (by omega), toUInt8_eq (b := b) (by omega)]
  | case4 a b c rest n ih =>
    have := a.toNat_lt
    have := b.toNat_lt
    have := c.toNat_lt
    rw [decode?_three (by omega) (by omega) (by omega) (by omega), ih, Option.map_some]
    simp only
    rw [toUInt8_eq (b := a) (by omega), toUInt8_eq (b := b) (by omega),
      toUInt8_eq (b := c) (by omega)]

theorem mem_alphabet_of_encode (bytes : Bytes) : ∀ c ∈ encode bytes, c ∈ alphabet := by
  fun_induction encode bytes with
  | case1 => simp
  | case2 a n =>
    have := a.toNat_lt
    simp (disch := omega) only [List.forall_mem_cons, List.not_mem_nil, letter_mem_alphabet,
      padding_mem_alphabet, false_implies, implies_true, and_self]
  | case3 a b n =>
    have := a.toNat_lt
    have := b.toNat_lt
    simp (disch := omega) only [List.forall_mem_cons, List.not_mem_nil, letter_mem_alphabet,
      padding_mem_alphabet, false_implies, implies_true, and_self]
  | case4 a b c rest n ih =>
    have := a.toNat_lt
    have := b.toNat_lt
    have := c.toNat_lt
    simp (disch := omega) only [List.forall_mem_cons, letter_mem_alphabet, true_and]
    exact ih

end FilterBench.Base64
