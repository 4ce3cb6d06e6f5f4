import FilterBench.Proofs.Text.Decoding

/-!
# Text survives its encoding

`decode` gives back every text that was written by `encode`. A character is written as one to four
octets; the first one promises how many follow and in which range the next one lies, and each of
the others adds six bits. An encoded text that ends with a line feed leaves a decoder nothing to
hold back.
-/
namespace FilterBench.Utf8

/-! ## First octets -/

theorem stepFresh_one : ∀ n < 0x80, stepFresh (UInt8.ofNat n) = (none, [Char.ofNat n]) := by
  decide +kernel

theorem stepFresh_two : ∀ n < 32, 2 ≤ n →
    stepFresh (UInt8.ofNat (n + 0xC0)) = (some ⟨1, 0x80, 0xBF, n⟩, []) := by decide +kernel

theorem stepFresh_three : ∀ n < 16, stepFresh (UInt8.ofNat (n + 0xE0)) =
    (some ⟨2, if n = 0 then 0xA0 else 0x80, if n = 13 then 0x9F else 0xBF, n⟩, []) := by
  decide +kernel

theorem stepFresh_four : ∀ n < 5, stepFresh (UInt8.ofNat (n + 0xF0)) =
    (some ⟨3, if n = 0 then 0x90 else 0x80, if n = 4 then 0x8F else 0xBF, n⟩, []) := by
  decide +kernel

/-! ## The octets after the first -/

theorem toNat_continuation {m : ℕ} (h : m < 64) : (UInt8.ofNat (m + 0x80)).toNat = m + 0x80 := by
  rw [UInt8.toNat_ofNat', Nat.mod_eq_of_lt (by omega)]

theorem next?_continuation {l : Lead} {m : ℕ} (h : m < 64) (low : l.low.toNat ≤ m + 0x80)
    (high : m + 0x80 ≤ l.high.toNat) :
    l.next? (UInt8.ofNat (m + 0x80)) = some ⟨l.owed - 1, 0x80, 0xBF, l.bits * 64 + m⟩ := by
  have value := toNat_continuation h
  rw [Lead.next?, if_pos, value, Nat.add_sub_cancel]
  rw [UInt8.le_iff_toNat_le, UInt8.le_iff_toNat_le, value]
  exact ⟨low, high⟩

theorem step_last {l : Lead} {m : ℕ} (owed : l.owed = 1) (h : m < 64)
    (low : l.low.toNat ≤ m + 0x80) (high : m + 0x80 ≤ l.high.toNat) :
    step (some l) (UInt8.ofNat (m + 0x80)) = (none, [Char.ofNat (l.bits * 64 + m)]) := by
  simp only [step, next?_continuation h low high, owed, Nat.sub_self, if_pos]

theorem step_inner {l : Lead} {k m : ℕ} (owed : l.owed = k + 2) (h : m < 64)
    (low : l.low.toNat ≤ m + 0x80) (high : m + 0x80 ≤ l.high.toNat) :
    step (some l) (UInt8.ofNat (m + 0x80)) =
      (some ⟨k + 1, 0x80, 0xBF, l.bits * 64 + m⟩, []) := by
  have more : l.owed - 1 = k + 1 := by omega
  simp only [step, next?_continuation h low high, more]
  rw [if_neg (by omega)]

/-! ## Characters and texts -/

/-- One character, read from its octets. -/
theorem decodeFrom_char (c : Char) (rest : Bytes) :
    decodeFrom none (String.utf8EncodeChar c ++ rest) = c :: decodeFrom none rest := by
  have back : Char.ofNat c.val.toNat = c := Char.ofNat_toNat c
  have valid : c.val.toNat < 0xD800 ∨ 0xDFFF < c.val.toNat ∧ c.val.toNat < 0x110000 := c.valid
  have b80 : (0x80 : UInt8).toNat = 0x80 := rfl
  have bBF : (0xBF : UInt8).toNat = 0xBF := rfl
  simp only [String.utf8EncodeChar]
  generalize c.val.toNat = v at back valid
  by_cases one : v ≤ 0x7F
  · rw [if_pos one, List.singleton_append, decodeFrom_cons, step, stepFresh_one v (by omega), back]
    rfl
  rw [if_neg one]
  by_cases two : v ≤ 0x7FF
  · rw [if_pos two]
    simp only [List.cons_append, List.nil_append]
    have first := stepFresh_two (v / 64 % 0x20) (by omega) (by omega)
    rw [decodeFrom_cons, step, first, decodeFrom_cons,
      step_last rfl (Nat.mod_lt _ (by omega)) (by simp only [b80]; omega) (by simp only [bBF]; omega)]
    have whole : v / 64 % 0x20 * 64 + v % 0x40 = v := by omega
    simp only [whole, back, List.nil_append, List.singleton_append]
  rw [if_neg two]
  by_cases three : v ≤ 0xFFFF
  · rw [if_pos three]
    simp only [List.cons_append, List.nil_append]
    have first := stepFresh_three (v / 4096 % 0x10) (by omega)
    have low : (if v / 4096 % 0x10 = 0 then (0xA0 : UInt8) else 0x80).toNat ≤
        v / 64 % 0x40 + 0x80 := by
      split
      · simp only [show (0xA0 : UInt8).toNat = 0xA0 from rfl]; omega
      · simp only [b80]; omega
    have high : v / 64 % 0x40 + 0x80 ≤
        (if v / 4096 % 0x10 = 13 then (0x9F : UInt8) else 0xBF).toNat := by
      split
      · simp only [show (0x9F : UInt8).toNat = 0x9F from rfl]; omega
      · simp only [bBF]; omega
    rw [decodeFrom_cons, step, first, decodeFrom_cons,
      step_inner rfl (Nat.mod_lt _ (by omega)) low high, decodeFrom_cons,
      step_last rfl (Nat.mod_lt _ (by omega)) (by simp only [b80]; omega) (by simp only [bBF]; omega)]
    have whole : (v / 4096 % 0x10 * 64 + v / 64 % 0x40) * 64 + v % 0x40 = v := by omega
    simp only [whole, back, List.nil_append, List.singleton_append]
  · rw [if_neg three]
    simp only [List.cons_append, List.nil_append]
    have first := stepFresh_four (v / 262144 % 0x08) (by omega)
    have low : (if v / 262144 % 0x08 = 0 then (0x90 : UInt8) else 0x80).toNat ≤
        v / 4096 % 0x40 + 0x80 := by
      split
      · simp only [show (0x90 : UInt8).toNat = 0x90 from rfl]; omega
      · simp only [b80]; omega
    have high : v / 4096 % 0x40 + 0x80 ≤
        (if v / 262144 % 0x08 = 4 then (0x8F : UInt8) else 0xBF).toNat := by
      split
      · simp only [show (0x8F : UInt8).toNat = 0x8F from rfl]; omega
      · simp only [bBF]; omega
    rw [decodeFrom_cons, step, first, decodeFrom_cons,
      step_inner rfl (Nat.mod_lt _ (by omega)) low high, decodeFrom_cons,
      step_inner rfl (Nat.mod_lt _ (by omega)) (by simp only [b80]; omega) (by simp only [bBF]; omega),
      decodeFrom_cons,
      step_last rfl (Nat.mod_lt _ (by omega)) (by simp only [b80]; omega) (by simp only [bBF]; omega)]
    have whole : ((v / 262144 % 0x08 * 64 + v / 4096 % 0x40) * 64 + v / 64 % 0x40) * 64 + v % 0x40 =
        v := by omega
    simp only [whole, back, List.nil_append, List.singleton_append]

theorem decode_encode (s : String) : decode (encode s) = s.toList := by
  simp only [decode, encode]
  generalize s.toList = text
  induction text with
  | nil => rfl
  | cons c text ih => rw [List.flatMap_cons, decodeFrom_char, ih]

theorem encode_append (s t : String) : encode (s ++ t) = encode s ++ encode t := by
  simp only [encode, String.toList_append, List.flatMap_append]

/-! ## ASCII octets -/

theorem toNat_high {n : ℕ} (high : 0x80 ≤ n) (small : n < 0x100) : 0x80 ≤ (UInt8.ofNat n).toNat := by
  rwa [UInt8.toNat_ofNat', Nat.mod_eq_of_lt small]

/-- No octet of a longer sequence is ASCII. -/
theorem high_of_char {c : Char} (long : 0x80 ≤ c.toNat) :
    ∀ b ∈ String.utf8EncodeChar c, 0x80 ≤ b.toNat := by
  have long : ¬ c.val.toNat ≤ 0x7F := Nat.not_le.2 long
  simp only [String.utf8EncodeChar, if_neg long]
  split_ifs
  all_goals
    simp (disch := omega) only [List.forall_mem_cons, List.not_mem_nil, toNat_high,
      false_implies, implies_true, and_self]

/-- An ASCII octet of some text is one of its characters. -/
theorem mem_of_mem_encode {b : UInt8} {text : String} (ascii : b.toNat < 0x80)
    (mem : b ∈ encode text) : Char.ofNat b.toNat ∈ text.toList := by
  obtain ⟨c, among, within⟩ := List.mem_flatMap.1 mem
  by_cases short : c.toNat < 0x80
  · have one : String.utf8EncodeChar c = [UInt8.ofNat c.toNat] :=
      if_pos (Nat.le_of_lt_succ short)
    rw [one, List.mem_singleton] at within
    rw [within, UInt8.toNat_ofNat', Nat.mod_eq_of_lt (by omega), Char.ofNat_toNat]
    exact among
  · have high := high_of_char (Nat.le_of_not_lt short) b within
    omega

/-- A decoder holds nothing back after an ASCII octet. -/
theorem cutLength_ascii (w : Bytes) {b : UInt8} (h : announced b = 0)
    (hb : isContinuation b = false) : Decoder.cutLength (w ++ [b]) = 0 := by
  rw [cutLength_lead hb (by simp), h, if_neg (by omega)]

end FilterBench.Utf8
