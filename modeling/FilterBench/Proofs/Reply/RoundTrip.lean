import FilterBench.Proofs.Reply.Grammar

/-!
# From a reply to its texts and back

A server writes the lines of a reply one after another and ends each as it likes (`Rendered`). It may put
a status code before every text (`Bears`). A reader gets the one reply with these lines from it, in
whatever chunks it comes (`pushAll_rendered`), and `split` takes the lines apart again into the status
code and the texts (`Bears.split`).
-/
namespace FilterBench.Reply

/-! ## Status codes -/

/-- A class, a subject and a detail, with dots between them. -/
inductive StatusCode : List Char → Prop
  | mk {grade : Char} {subject detail : List Char} : grade ∈ ['2', '4', '5'] →
      isDigitGroup subject = true → isDigitGroup detail = true →
      StatusCode (grade :: '.' :: (subject ++ '.' :: detail))

variable {c : Char} {s xs : List Char} {texts lines : List (List Char)}

theorem bne_of_not_mem (h : c ∉ xs) : ∀ x ∈ xs, (x != c) = true := by
  intro x mem
  rw [bne_iff_ne]
  rintro rfl
  exact h mem

theorem takeWhile_ne (h : c ∉ xs) (rest : List Char) :
    (xs ++ c :: rest).takeWhile (· != c) = xs := by
  rw [List.takeWhile_append_of_pos (bne_of_not_mem h), List.takeWhile_cons_of_neg (by simp),
    List.append_nil]

theorem dropWhile_ne (h : c ∉ xs) (rest : List Char) :
    (xs ++ c :: rest).dropWhile (· != c) = c :: rest := by
  rw [List.dropWhile_append_of_pos (bne_of_not_mem h), List.dropWhile_cons_of_neg (by simp)]

theorem isDigit_of_mem (h : isDigitGroup xs = true) (mem : c ∈ xs) : c.isDigit = true := by
  simp only [isDigitGroup, Bool.and_eq_true] at h
  exact List.all_eq_true.1 h.2 c mem

theorem not_mem_group (h : isDigitGroup xs = true) (other : c.isDigit = false) : c ∉ xs := by
  intro mem
  rw [isDigit_of_mem h mem] at other
  cases other

theorem isStatusCode_iff : isStatusCode s = true ↔ StatusCode s := by
  constructor
  · intro h
    fun_cases isStatusCode s with
    | case1 grade rest none =>
      rw [isStatusCode, none] at h
      cases h
    | case2 grade rest subject sep detail found =>
      rw [isStatusCode, found] at h
      simp only [Bool.and_eq_true, Bool.or_eq_true, beq_iff_eq] at h
      obtain ⟨⟨graded, first⟩, second⟩ := h
      have dot : (sep != '.') = false := by
        have head := List.head?_dropWhile_not (· != '.') rest
        rwa [found] at head
      obtain rfl : sep = '.' := by simpa using dot
      have whole := List.takeWhile_append_dropWhile (p := (· != '.')) (l := rest)
      rw [found] at whole
      rw [← whole]
      exact .mk (by simpa [or_assoc] using graded) first second
    | case3 => simp [isStatusCode] at h
  · rintro ⟨graded, first, second⟩
    have undotted := not_mem_group first (c := '.') (by decide)
    rw [isStatusCode, takeWhile_ne undotted, dropWhile_ne undotted]
    simp only [first, second, Bool.and_true]
    simpa [or_assoc] using graded

/-- Digits and dots. -/
theorem StatusCode.isDigit_or_dot (h : StatusCode s) (mem : c ∈ s) : c.isDigit = true ∨ c = '.' := by
  obtain ⟨graded, first, second⟩ := h
  have grade : ∀ g ∈ ['2', '4', '5'], g.isDigit = true := by simp
  simp only [List.mem_cons, List.mem_append] at mem
  rcases mem with rfl | rfl | mem | rfl | mem
  · exact .inl (grade _ graded)
  · exact .inr rfl
  · exact .inl (isDigit_of_mem first mem)
  · exact .inr rfl
  · exact .inl (isDigit_of_mem second mem)

theorem StatusCode.not_mem_space (h : StatusCode s) : ' ' ∉ s := by
  intro mem
  rcases h.isDigit_or_dot mem with digit | dot
  · cases digit
  · cases dot

theorem StatusCode.clean (h : StatusCode s) : s.any isSeparator = false := by
  rw [List.any_eq_false]
  intro c mem separator
  rcases h.isDigit_or_dot mem with digit | rfl
  · obtain ⟨d, small, rfl⟩ := exists_digitChar digit
    rw [digitChar_clean d small] at separator
    cases separator
  · cases separator

/-! ## Lines that bear a status code -/

/-- The lines with a status code before every text, or without one. A first text that looks as if
it had one is none. -/
inductive Bears : Option (List Char) → List (List Char) → List (List Char) → Prop
  | plain {texts : List (List Char)} :
      (∀ s text, StatusCode s → texts.head? ≠ some (s ++ ' ' :: text)) → Bears none texts texts
  | coded {s : List Char} {texts : List (List Char)} : StatusCode s →
      Bears (some s) texts (texts.map (s ++ ' ' :: ·))

theorem statusCode?_cons (first : List Char) (lines : List (List Char)) :
    statusCode? (first :: lines) =
      if first.contains ' ' && isStatusCode (first.takeWhile (· != ' ')) then
        some (first.takeWhile (· != ' '))
      else none := rfl

theorem statusCode?_coded (h : StatusCode s) (text : List Char) (lines : List (List Char)) :
    statusCode? ((s ++ ' ' :: text) :: lines) = some s := by
  have word := takeWhile_ne h.not_mem_space text
  rw [statusCode?_cons, word, isStatusCode_iff.2 h, Bool.and_true, if_pos (by simp)]

theorem statusCode?_plain (h : ∀ s text, StatusCode s → lines.head? ≠ some (s ++ ' ' :: text)) :
    statusCode? lines = none := by
  cases lines with
  | nil => rfl
  | cons first lines =>
    rw [statusCode?_cons, if_neg]
    intro found
    obtain ⟨spaced, coded⟩ := Bool.and_eq_true_iff.1 found
    obtain ⟨s, text, rfl, unspaced⟩ := List.eq_append_cons_of_mem (List.contains_iff_mem.1 spaced)
    rw [takeWhile_ne unspaced] at coded
    exact h s text (isStatusCode_iff.1 coded) rfl

theorem stripCode_coded (s text : List Char) : stripCode s (s ++ ' ' :: text) = text := by
  have whole : s ++ ' ' :: text = (s ++ [' ']) ++ text := by simp
  rw [stripCode, if_pos (by rw [whole]; simp), whole, List.drop_left' (by simp)]

theorem joinLines_eq (lines : List (List Char)) : joinLines lines = ['\n'].intercalate lines := by
  induction lines with
  | nil => rfl
  | cons l more ih =>
    cases more with
    | nil => rw [joinLines, List.intercalate_singleton]
    | cons next more =>
      rw [joinLines, ih, List.intercalate_cons_cons, List.append_assoc]
      · rfl
      · nofun

/-- The lines are taken apart into what they were put together of. -/
theorem Bears.split {status : Option (List Char)} (h : Bears status texts lines)
    (some_line : lines ≠ []) (code : ℕ) :
    (⟨code, lines⟩ : Reply).split = (status, ['\n'].intercalate texts) := by
  cases h with
  | plain free => rw [Reply.split, statusCode?_plain free, joinLines_eq]
  | @coded s _ coded =>
    cases texts with
    | nil => exact absurd rfl some_line
    | cons first texts =>
      have stripped : stripCode s ∘ (s ++ ' ' :: ·) = id := funext (stripCode_coded s)
      have found : statusCode? ((first :: texts).map (s ++ ' ' :: ·)) = some s :=
        statusCode?_coded coded first _
      simp only [Reply.split, found, List.map_map, stripped, List.map_id, joinLines_eq]

theorem Bears.clean {status : Option (List Char)} (h : Bears status texts lines)
    (clean : ∀ text ∈ texts, text.any isSeparator = false) :
    ∀ line ∈ lines, line.any isSeparator = false := by
  cases h with
  | plain => exact clean
  | @coded s _ coded =>
    intro line mem
    obtain ⟨text, given, rfl⟩ := List.mem_map.1 mem
    rw [List.any_append, List.any_cons, coded.clean, clean text given]
    rfl

theorem Bears.ne_nil {status : Option (List Char)} (h : Bears status texts lines)
    (some_text : texts ≠ []) : lines ≠ [] := by
  cases h with
  | plain => exact some_text
  | coded => simpa using some_text

/-! ## Lines on the wire -/

/-- The lines of a reply, each with its code and its end. All but the last go on with a hyphen. -/
inductive Rendered (code : ℕ) : List (List Char) → List Char → Prop
  | last {line ending : List Char} : LineEnd ending →
      Rendered code [line] (codeDigits code ++ ' ' :: line ++ ending)
  | more {line ending rest : List Char} {lines : List (List Char)} : LineEnd ending →
      Rendered code lines rest →
      Rendered code (line :: lines) (codeDigits code ++ '-' :: line ++ ending ++ rest)

theorem Rendered.written {code : ℕ} {wire : List Char} (h : Rendered code lines wire)
    (small : code < 1000) (clean : ∀ line ∈ lines, line.any isSeparator = false) :
    Written ⟨code, lines⟩ wire := by
  induction h with
  | @last line _ ends =>
    have form : Line.Form ⟨code, false, line⟩ (codeDigits code ++ ' ' :: line) :=
      .full small (clean line List.mem_cons_self)
    exact .last form ends
  | @more line _ _ _ ends _ ih =>
    have form : Line.Form ⟨code, true, line⟩ (codeDigits code ++ '-' :: line) :=
      .full small (clean line List.mem_cons_self)
    exact .more form ends (ih fun line mem => clean line (List.mem_cons_of_mem _ mem))

/-- A new reader gets the one reply from chunks of the text, and is then as new. -/
theorem pushAll_written {r : Reply} {chunks : List (List Char)} (h : Written r chunks.flatten) :
    ({} : Reader).pushAll chunks = ({}, .ok [r]) := by
  obtain ⟨result, state⟩ := Reader.pushAll_eq (r := {}) List.not_mem_nil chunks
  rw [push_written h] at result state
  exact Prod.ext (state [r] result) result

end FilterBench.Reply
