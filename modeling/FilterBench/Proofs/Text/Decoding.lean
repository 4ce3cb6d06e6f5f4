import FilterBench.Text.Utf8
import Mathlib.Data.FinEnum
import Mathlib.Data.List.TakeWhile

/-!
# Decoding does not see where chunks end

`decode` reads octets one after another and remembers only the sequence that is open. A decoder
holds back what the end of a chunk has cut, which is decided by the last octets alone. Here both
are brought together: after any chunks the decoder holds the cut end of all octets so far
(`cutTail`), and the text that it has given is what `decode` gives for the octets before that
(`cutBody`). Nothing is assumed of the octets; ill-formed ones are replaced in the same way.
-/
namespace FilterBench.Utf8

/-! ## One octet at a time -/

/-- One octet between sequences: what is open after it, and the text that it settles. -/
def stepFresh (b : UInt8) : Option Lead × List Char :=
  if b < 0x80 then (none, [Char.ofNat b.toNat])
  else match Lead.of? b with
    | some l => (some l, [])
    | none => (none, [replacement])

/-- One octet with the sequence that is open before it. -/
def step : Option Lead → UInt8 → Option Lead × List Char
  | none, b => stepFresh b
  | some l, b =>
    match l.next? b with
    | some m => if m.owed = 0 then (none, [Char.ofNat m.bits]) else (some m, [])
    | none => ((stepFresh b).1, replacement :: (stepFresh b).2)

/-- What is open after some octets. -/
def openAfter : Option Lead → Bytes → Option Lead
  | o, [] => o
  | o, b :: rest => openAfter (step o b).1 rest

/-- The text that some octets settle, without what they leave open. -/
def settledText : Option Lead → Bytes → List Char
  | _, [] => []
  | o, b :: rest => (step o b).2 ++ settledText (step o b).1 rest

theorem decodeFrom_cons (o : Option Lead) (b : UInt8) (rest : Bytes) :
    decodeFrom o (b :: rest) = (step o b).2 ++ decodeFrom (step o b).1 rest := by
  cases o with
  | none =>
    simp only [decodeFrom, step, stepFresh]
    split
    · rfl
    · cases Lead.of? b <;> rfl
  | some l =>
    simp only [decodeFrom, step]
    cases l.next? b with
    | some m => by_cases h : m.owed = 0 <;> simp [h]
    | none =>
      simp only [stepFresh]
      split
      · rfl
      · cases Lead.of? b <;> rfl

theorem decodeFrom_append (o : Option Lead) (x y : Bytes) :
    decodeFrom o (x ++ y) = settledText o x ++ decodeFrom (openAfter o x) y := by
  induction x generalizing o with
  | nil => rfl
  | cons b x ih =>
    rw [List.cons_append, decodeFrom_cons, ih]
    simp only [settledText, openAfter, List.append_assoc]

theorem openAfter_append (o : Option Lead) (x y : Bytes) :
    openAfter o (x ++ y) = openAfter (openAfter o x) y := by
  induction x generalizing o with
  | nil => rfl
  | cons b x ih => exact ih _

/-! ## Octets by their kind -/

theorem announced_of_isContinuation :
    ∀ b : UInt8, isContinuation b = true → announced b = 0 := by decide +kernel

theorem announced_le : ∀ b : UInt8, announced b ≤ 4 := by decide +kernel

theorem isContinuation_of_range :
    ∀ b : UInt8, 0x80 ≤ b → b ≤ 0xBF → isContinuation b = true := by decide +kernel

theorem stepFresh_of_isContinuation :
    ∀ b : UInt8, isContinuation b = true → (stepFresh b).1 = none := by decide +kernel

theorem of?_spec : ∀ b : UInt8, (stepFresh b).1.all fun l =>
    l.owed + 1 = announced b && decide (0 < l.owed) && decide (0x80 ≤ l.low) &&
      decide (l.high ≤ 0xBF) := by decide +kernel

/-- An open sequence lacks something, and only continuations continue it. -/
structure Lead.Sound (l : Lead) : Prop where
  owed_pos : 0 < l.owed
  low_le : 0x80 ≤ l.low
  le_high : l.high ≤ 0xBF

theorem sound_stepFresh {b : UInt8} {l : Lead} (h : (stepFresh b).1 = some l) :
    l.Sound ∧ l.owed + 1 = announced b := by
  have spec := of?_spec b
  rw [h] at spec
  simp only [Option.all_some, Bool.and_eq_true, decide_eq_true_eq] at spec
  obtain ⟨⟨⟨owed, pos⟩, low⟩, high⟩ := spec
  exact ⟨⟨pos, low, high⟩, owed⟩

theorem Lead.next?_eq_none {l : Lead} (h : l.Sound) {b : UInt8} (hb : isContinuation b = false) :
    l.next? b = none := by
  rw [Lead.next?, if_neg]
  rintro ⟨low, high⟩
  have range := isContinuation_of_range b (UInt8.le_trans h.low_le low)
    (UInt8.le_trans high h.le_high)
  simp [range] at hb

theorem step_of_not_isContinuation {o : Option Lead} (h : ∀ l, o = some l → l.Sound) {b : UInt8}
    (hb : isContinuation b = false) : (step o b).1 = (stepFresh b).1 := by
  cases o with
  | none => rfl
  | some l => simp only [step, Lead.next?_eq_none (h l rfl) hb]

theorem sound_step {o : Option Lead} (h : ∀ l, o = some l → l.Sound) (b : UInt8) :
    ∀ l, (step o b).1 = some l → l.Sound := by
  intro l hl
  cases o with
  | none => exact (sound_stepFresh hl).1
  | some k =>
    simp only [step] at hl
    cases hk : k.next? b with
    | none =>
      rw [hk] at hl
      exact (sound_stepFresh hl).1
    | some m =>
      simp only [hk] at hl
      split at hl
      · simp at hl
      · rename_i owed
        simp only [Option.some.injEq] at hl
        subst hl
        simp only [Lead.next?, Option.ite_none_right_eq_some, Option.some.injEq] at hk
        obtain ⟨-, rfl⟩ := hk
        exact ⟨Nat.pos_of_ne_zero owed, UInt8.le_refl _, UInt8.le_refl _⟩

theorem sound_openAfter {o : Option Lead} (h : ∀ l, o = some l → l.Sound) (x : Bytes) :
    ∀ l, openAfter o x = some l → l.Sound := by
  induction x generalizing o with
  | nil => exact h
  | cons b x ih => exact ih (sound_step h b)

/-- How much an open sequence lacks. -/
def lacking : Option Lead → Nat
  | none => 0
  | some l => l.owed

/-- As many continuations as a sequence lacks leave nothing open, whether or not they fit. -/
theorem openAfter_conts {o : Option Lead} {cs : Bytes} (h : ∀ c ∈ cs, isContinuation c = true)
    (enough : lacking o ≤ cs.length) (sound : ∀ l, o = some l → l.Sound) :
    openAfter o cs = none := by
  induction cs generalizing o with
  | nil =>
    cases o with
    | none => rfl
    | some l =>
      have pos := (sound l rfl).owed_pos
      simp only [lacking, List.length_nil] at enough
      omega
  | cons c cs ih =>
    have fresh := stepFresh_of_isContinuation c (h c (by simp))
    refine ih (fun d hd => h d (by simp [hd])) ?_ (sound_step sound c)
    cases o with
    | none => simp [step, fresh, lacking]
    | some l =>
      simp only [step]
      cases hl : l.next? c with
      | none => simp [fresh, lacking]
      | some m =>
        simp only [Lead.next?, Option.ite_none_right_eq_some, Option.some.injEq] at hl
        obtain ⟨-, rfl⟩ := hl
        simp only [lacking, List.length_cons] at enough
        dsimp only
        split
        · simp [lacking]
        · simp only [lacking]
          omega

theorem not_isContinuation_of_announced {b : UInt8} (h : announced b ≠ 0) :
    isContinuation b = false := by
  cases hb : isContinuation b with
  | false => rfl
  | true => exact absurd (announced_of_isContinuation b hb) h

/-- A full sequence, or as many octets as one has, leaves nothing open. -/
theorem openAfter_full {u cs : Bytes} {b : UInt8} (hb : isContinuation b = false)
    (h : ∀ c ∈ cs, isContinuation c = true) (full : announced b ≤ cs.length + 1) :
    openAfter none (u ++ b :: cs) = none := by
  have sound : ∀ l, openAfter none u = some l → l.Sound := sound_openAfter (by simp) u
  rw [openAfter_append, openAfter, step_of_not_isContinuation sound hb]
  refine openAfter_conts h ?_ (fun l hl => (sound_stepFresh hl).1)
  cases hl : (stepFresh b).1 with
  | none => exact Nat.zero_le _
  | some l =>
    have owed := (sound_stepFresh hl).2
    simp only [lacking]
    omega

/-- Text can be decoded in two parts unless the second goes on with a sequence of the first. -/
theorem decode_append {x y : Bytes}
    (h : openAfter none x = none ∨ ∀ b rest, y = b :: rest → isContinuation b = false) :
    decode (x ++ y) = decode x ++ decode y := by
  have whole := decodeFrom_append none x y
  have first := decodeFrom_append none x []
  rw [List.append_nil] at first
  simp only [decode]
  rw [whole, first, List.append_assoc]
  congr 1
  cases ho : openAfter none x with
  | none => rfl
  | some l =>
    cases y with
    | nil => simp [decodeFrom]
    | cons b rest =>
      have hb : isContinuation b = false := by
        rcases h with h | h
        · simp [ho] at h
        · exact h b rest rfl
      have refused := Lead.next?_eq_none (sound_openAfter (by simp) x l ho) hb
      rw [decodeFrom_cons, decodeFrom_cons]
      simp only [step, refused]
      rfl

/-! ## The cut end of some octets -/

/-- The start of a sequence: a first octet with fewer continuations than it announces. -/
structure OpenStart (h : Bytes) : Prop where
  shape : ∃ b cs, h = b :: cs ∧ (∀ c ∈ cs, isContinuation c = true) ∧ cs.length + 1 < announced b

/-- What a decoder holds back of some octets, and what it reads of them. -/
def cutTail (w : Bytes) : Bytes := w.drop (w.length - Decoder.cutLength w)

def cutBody (w : Bytes) : Bytes := w.take (w.length - Decoder.cutLength w)

theorem readFresh_eq (c : Bytes) : Decoder.readFresh c = (⟨cutTail c⟩, decode (cutBody c)) := rfl

/-- Octets are continuations only, or have a last octet that is none. -/
theorem conts_or_lead (w : Bytes) : (∀ c ∈ w, isContinuation c = true) ∨
    ∃ u b cs, w = u ++ b :: cs ∧ isContinuation b = false ∧ ∀ c ∈ cs, isContinuation c = true := by
  induction w with
  | nil => exact .inl (by simp)
  | cons a w ih =>
    rcases ih with all | ⟨u, b, cs, rfl, hb, hcs⟩
    · cases ha : isContinuation a with
      | true => exact .inl (by simpa [ha] using all)
      | false => exact .inr ⟨[], a, w, rfl, ha, all⟩
    · exact .inr ⟨a :: u, b, cs, rfl, hb, hcs⟩

theorem cutLength_conts {w : Bytes} (h : ∀ c ∈ w, isContinuation c = true) :
    Decoder.cutLength w = 0 := by
  have all : ∀ c ∈ w.reverse.take 4, isContinuation c = true := fun c hc =>
    h c (List.mem_reverse.1 (List.mem_of_mem_take hc))
  simp only [Decoder.cutLength]
  rw [List.takeWhile_eq_self_iff.2 all, List.getElem?_eq_none (le_refl _)]

theorem cutLength_lead {u cs : Bytes} {b : UInt8} (hb : isContinuation b = false)
    (h : ∀ c ∈ cs, isContinuation c = true) : Decoder.cutLength (u ++ b :: cs) =
      if cs.length + 1 < announced b then cs.length + 1 else 0 := by
  have rev : (u ++ b :: cs).reverse = cs.reverse ++ b :: u.reverse := by simp
  have all : ∀ c ∈ cs.reverse, isContinuation c = true := fun c hc => h c (List.mem_reverse.1 hc)
  simp only [Decoder.cutLength, rev]
  by_cases short : cs.length < 4
  · obtain ⟨n, hn⟩ : ∃ n, 4 = cs.reverse.length + (n + 1) := ⟨3 - cs.length, by simp; omega⟩
    have last : (cs.reverse ++ b :: u.reverse).take 4 = cs.reverse ++ b :: u.reverse.take n := by
      rw [hn, List.take_length_add_append, List.take_succ_cons]
    have trail : ((cs.reverse ++ b :: u.reverse.take n).takeWhile isContinuation) = cs.reverse := by
      rw [List.takeWhile_append_of_pos all, List.takeWhile_cons_of_neg (by simp [hb]),
        List.append_nil]
    rw [last, trail]
    simp
  · have last : (cs.reverse ++ b :: u.reverse).take 4 = cs.reverse.take 4 :=
      List.take_append_of_le_length (by simp; omega)
    have trail : (cs.reverse.take 4).takeWhile isContinuation = cs.reverse.take 4 :=
      List.takeWhile_eq_self_iff.2 fun c hc => all c (List.mem_of_mem_take hc)
    have few := announced_le b
    rw [last, trail, List.getElem?_eq_none (le_refl _), if_neg (by omega)]

theorem OpenStart.cutLength {h : Bytes} (s : OpenStart h) (u : Bytes) :
    Decoder.cutLength (u ++ h) = h.length := by
  obtain ⟨b, cs, rfl, hcs, short⟩ := s.shape
  have hb := not_isContinuation_of_announced (b := b) (by omega)
  rw [cutLength_lead hb hcs, if_pos short, List.length_cons]

/-- Either nothing is cut, or the octets end with the start of a sequence and that is cut. -/
theorem cut_cases (w : Bytes) :
    Decoder.cutLength w = 0 ∨ ∃ u h, w = u ++ h ∧ OpenStart h := by
  rcases conts_or_lead w with all | ⟨u, b, cs, rfl, hb, hcs⟩
  · exact .inl (cutLength_conts all)
  · by_cases short : cs.length + 1 < announced b
    · exact .inr ⟨u, b :: cs, rfl, ⟨b, cs, rfl, hcs, short⟩⟩
    · exact .inl (by rw [cutLength_lead hb hcs, if_neg short])

theorem openAfter_of_cutLength {w : Bytes} (h : Decoder.cutLength w = 0) :
    openAfter none w = none := by
  rcases conts_or_lead w with all | ⟨u, b, cs, rfl, hb, hcs⟩
  · exact openAfter_conts all (Nat.zero_le _) (by simp)
  · rw [cutLength_lead hb hcs] at h
    refine openAfter_full hb hcs ?_
    split at h <;> omega

/-- More octets are cut by themselves when nothing before them is cut. -/
theorem cutLength_append {w : Bytes} (h : Decoder.cutLength w = 0) (c : Bytes) :
    Decoder.cutLength (w ++ c) = Decoder.cutLength c := by
  rcases conts_or_lead c with all | ⟨u, b, cs, rfl, hb, hcs⟩
  · rw [cutLength_conts all]
    rcases conts_or_lead w with every | ⟨u, b, cs, rfl, hb, hcs⟩
    · exact cutLength_conts fun x hx => (List.mem_append.1 hx).elim (every x) (all x)
    · have more : ∀ x ∈ cs ++ c, isContinuation x = true := fun x hx =>
        (List.mem_append.1 hx).elim (hcs x) (all x)
      rw [cutLength_lead hb hcs] at h
      rw [List.append_assoc, List.cons_append, cutLength_lead hb more, List.length_append]
      split at h
      · omega
      · rw [if_neg (by omega)]
  · rw [← List.append_assoc, cutLength_lead hb hcs, cutLength_lead hb hcs]

/-- So are octets that do not begin with a continuation. -/
theorem cutLength_append_cons (w c : Bytes) {b : UInt8} (hb : isContinuation b = false) :
    Decoder.cutLength (w ++ b :: c) = Decoder.cutLength (b :: c) := by
  rcases conts_or_lead (b :: c) with all | ⟨u, a, cs, hc, ha, hcs⟩
  · simp [all b (by simp)] at hb
  · rw [hc, ← List.append_assoc, cutLength_lead ha hcs, cutLength_lead ha hcs]

theorem cutLength_le (w : Bytes) : Decoder.cutLength w ≤ w.length := by
  rcases cut_cases w with h | ⟨u, h, rfl, s⟩
  · omega
  · rw [s.cutLength, List.length_append]
    omega

theorem cutTail_of_zero {w : Bytes} (h : Decoder.cutLength w = 0) : cutTail w = [] := by
  rw [cutTail, h, Nat.sub_zero, List.drop_length]

theorem cutBody_of_zero {w : Bytes} (h : Decoder.cutLength w = 0) : cutBody w = w := by
  rw [cutBody, h, Nat.sub_zero, List.take_length]

theorem OpenStart.cutTail {h : Bytes} (s : OpenStart h) (u : Bytes) : cutTail (u ++ h) = h := by
  rw [Utf8.cutTail, s.cutLength, List.length_append, Nat.add_sub_cancel, List.drop_left]

theorem OpenStart.cutBody {h : Bytes} (s : OpenStart h) (u : Bytes) : cutBody (u ++ h) = u := by
  rw [Utf8.cutBody, s.cutLength, List.length_append, Nat.add_sub_cancel, List.take_left]

/-- What is cut of joined octets is what is cut of the second part, when that is cut alike. -/
theorem cut_append {w c : Bytes} (h : Decoder.cutLength (w ++ c) = Decoder.cutLength c) :
    cutTail (w ++ c) = cutTail c ∧ cutBody (w ++ c) = w ++ cutBody c := by
  have le := cutLength_le c
  constructor
  · rw [cutTail, cutTail, h, List.length_append, Nat.add_sub_assoc le, List.drop_append]
    simp
  · rw [cutBody, cutBody, h, List.length_append, Nat.add_sub_assoc le, List.take_append]
    simp

/-! ## Chunk after chunk -/

/-- The decoder that has read some octets. -/
def Decoder.afterReading (w : Bytes) : Decoder := ⟨cutTail w⟩

/-- A decoder that holds nothing. -/
theorem read_of_closed {w : Bytes} (h : Decoder.cutLength w = 0) (c : Bytes) :
    (Decoder.afterReading w).read c = (Decoder.afterReading (w ++ c), decode (cutBody c)) ∧
      decode (cutBody (w ++ c)) = decode (cutBody w) ++ decode (cutBody c) := by
  obtain ⟨tail, body⟩ := cut_append (cutLength_append h c)
  constructor
  · rw [Decoder.afterReading, Decoder.afterReading, cutTail_of_zero h, tail]
    rfl
  · rw [body, cutBody_of_zero h]
    exact decode_append (.inl (openAfter_of_cutLength h))

theorem missing_openStart {h : Bytes} (s : OpenStart h) : 0 < (Decoder.mk h).missing := by
  obtain ⟨b, cs, rfl, -, short⟩ := s.shape
  simp only [Decoder.missing, List.length_cons]
  omega

/-- Some continuations more keep a start open as long as it lacks more than those. -/
theorem OpenStart.append {h more : Bytes} (s : OpenStart h)
    (conts : ∀ c ∈ more, isContinuation c = true) (few : more.length < (Decoder.mk h).missing) :
    OpenStart (h ++ more) := by
  obtain ⟨b, cs, rfl, hcs, short⟩ := s.shape
  refine ⟨b, cs ++ more, rfl, fun x hx => (List.mem_append.1 hx).elim (hcs x) (conts x), ?_⟩
  simp only [Decoder.missing, List.length_cons] at few
  rw [List.length_append]
  omega

/-- As many as it lacks complete it. -/
theorem OpenStart.complete {h more : Bytes} (s : OpenStart h)
    (conts : ∀ c ∈ more, isContinuation c = true) (all : (Decoder.mk h).missing ≤ more.length)
    (u : Bytes) : Decoder.cutLength (u ++ h ++ more) = 0 := by
  obtain ⟨b, cs, rfl, hcs, short⟩ := s.shape
  have hb := not_isContinuation_of_announced (b := b) (by omega)
  simp only [Decoder.missing, List.length_cons] at all
  rw [List.append_assoc, List.cons_append,
    cutLength_lead hb fun x hx => (List.mem_append.1 hx).elim (hcs x) (conts x), if_neg]
  rw [List.length_append]
  omega

theorem OpenStart.decode_append {h : Bytes} (s : OpenStart h) (u more : Bytes) :
    decode (u ++ (h ++ more)) = decode u ++ decode (h ++ more) := by
  obtain ⟨b, cs, rfl, hcs, short⟩ := s.shape
  refine Utf8.decode_append (.inr ?_)
  intro a rest eq
  simp only [List.cons_append, List.cons.injEq] at eq
  obtain ⟨rfl, -⟩ := eq
  exact not_isContinuation_of_announced (by omega)

/-- Octets that a decoder takes for a held sequence end where it is complete, where the octets
end, or before an octet that is no continuation. -/
theorem takeWhile_take_stop {c more rest : Bytes} {n : ℕ}
    (taken : (c.take n).takeWhile isContinuation = more) (split : more ++ rest = c)
    (few : more.length < n) {b : UInt8} {rest' : Bytes} (eq : rest = b :: rest') :
    isContinuation b = false := by
  obtain ⟨k, hk⟩ : ∃ k, n = more.length + (k + 1) := ⟨n - more.length - 1, by omega⟩
  have conts : ∀ x ∈ more, isContinuation x = true := by
    rw [← taken]
    exact fun x hx => List.mem_takeWhile_imp hx
  rw [← split, eq, hk, List.take_length_add_append, List.take_succ_cons,
    List.takeWhile_append_of_pos conts] at taken
  have none_more := List.append_right_eq_self.1 taken
  cases hb : isContinuation b with
  | false => rfl
  | true => simp [hb] at none_more

/-- What follows a held sequence that is over is cut by itself and can be decoded by itself. -/
theorem cut_after {w rest : Bytes} (ends : Decoder.cutLength w = 0 ∨
    ∃ b rest', rest = b :: rest' ∧ isContinuation b = false) :
    Decoder.cutLength (w ++ rest) = Decoder.cutLength rest ∧
      decode (w ++ cutBody rest) = decode w ++ decode (cutBody rest) := by
  rcases ends with closed | ⟨b, rest', rfl, hb⟩
  · exact ⟨cutLength_append closed rest, decode_append (.inl (openAfter_of_cutLength closed))⟩
  · refine ⟨cutLength_append_cons w rest' hb, decode_append (.inr ?_)⟩
    intro a r eq
    have initial : a :: r <+: b :: rest' := by
      rw [← eq]
      exact List.take_prefix _ _
    rw [(List.cons_prefix_cons.1 initial).1]
    exact hb

/-- A decoder that holds the start of a sequence. -/
theorem read_of_open {h : Bytes} (s : OpenStart h) (u c : Bytes) :
    ∃ t, (Decoder.afterReading (u ++ h)).read c = (Decoder.afterReading (u ++ h ++ c), t) ∧
      decode (cutBody (u ++ h ++ c)) = decode (cutBody (u ++ h)) ++ t := by
  have lacks := missing_openStart s
  generalize taken : (c.take (Decoder.mk h).missing).takeWhile isContinuation = more
  have conts : ∀ x ∈ more, isContinuation x = true := by
    rw [← taken]
    exact fun x hx => List.mem_takeWhile_imp hx
  obtain ⟨rest, split⟩ : more <+: c := by
    rw [← taken]
    exact (List.takeWhile_prefix _).trans (List.take_prefix _ _)
  have read : (Decoder.afterReading (u ++ h)).read c =
      if more.length < (Decoder.mk h).missing ∧ rest = [] then (⟨h ++ more⟩, [])
      else (⟨cutTail rest⟩, decode (h ++ more) ++ decode (cutBody rest)) := by
    rw [Decoder.afterReading, s.cutTail, Decoder.read, if_neg (by omega), taken, ← split]
    dsimp only
    rw [List.drop_left, readFresh_eq]
  rw [read, s.cutBody]
  by_cases still : more.length < (Decoder.mk h).missing ∧ rest = []
  · have opened := s.append conts still.1
    rw [still.2, List.append_nil] at split
    refine ⟨[], ?_, ?_⟩
    · rw [if_pos still, Decoder.afterReading, ← split, List.append_assoc, opened.cutTail]
    · rw [← split, List.append_assoc, opened.cutBody, List.append_nil]
  · -- The held sequence is over: it is complete, or the next octet does not continue it.
    have ends : Decoder.cutLength (u ++ h ++ more) = 0 ∨
        ∃ b rest', rest = b :: rest' ∧ isContinuation b = false := by
      by_cases few : more.length < (Decoder.mk h).missing
      · cases hr : rest with
        | nil => exact absurd ⟨few, hr⟩ still
        | cons b rest' => exact .inr ⟨b, rest', rfl, takeWhile_take_stop taken split few hr⟩
      · exact .inl (s.complete conts (by omega) u)
    obtain ⟨alike, parts⟩ := cut_after ends
    obtain ⟨tail, body⟩ := cut_append alike
    refine ⟨decode (h ++ more) ++ decode (cutBody rest), ?_, ?_⟩
    · rw [if_neg still, Decoder.afterReading, ← split, ← List.append_assoc, tail]
    · rw [← split, ← List.append_assoc, body, parts, List.append_assoc u, s.decode_append,
        List.append_assoc]

/-- One more chunk: what is held and what has been read depend on all octets so far only. -/
theorem read_afterReading (w c : Bytes) :
    ∃ t, (Decoder.afterReading w).read c = (Decoder.afterReading (w ++ c), t) ∧
      decode (cutBody (w ++ c)) = decode (cutBody w) ++ t := by
  rcases cut_cases w with closed | ⟨u, h, rfl, s⟩
  · exact ⟨_, read_of_closed closed c⟩
  · exact read_of_open s u c

end FilterBench.Utf8
