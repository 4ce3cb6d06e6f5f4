import FilterBench.Reply.Reader
import Mathlib.Data.List.Basic

/-!
# Reading replies piece by piece

A reader that is given text in two pieces reads what it would have read of the whole, as long as
no line of the first piece is malformed (`push_append`). `Written` says how a server may write a
reply: every line has three digits, all lines but the last go on with a hyphen, the last one with a
space or with nothing, and a line ends with a line feed that a carriage return may precede. A new
reader makes exactly one reply of such text and is then as new (`push_written`).
-/
namespace FilterBench.Reply

/-! ## Lines and pieces -/

theorem splitLine?_append {x line after : List Char} (h : splitLine? x = some (line, after))
    (y : List Char) : splitLine? (x ++ y) = some (line, after ++ y) := by
  induction x generalizing line after with
  | nil => simp [splitLine?] at h
  | cons c x ih =>
    simp only [splitLine?, List.cons_append] at h ⊢
    split at h
    · rename_i hc
      simp only [Option.some.injEq, Prod.mk.injEq] at h
      obtain ⟨rfl, rfl⟩ := h
      rw [if_pos hc]
    · rename_i hc
      obtain ⟨⟨l, a⟩, ha, eq⟩ := Option.map_eq_some_iff.1 h
      simp only [Prod.mk.injEq] at eq
      obtain ⟨rfl, rfl⟩ := eq
      rw [if_neg hc, ih ha]
      rfl

theorem splitLine?_line {line : List Char} (h : '\n' ∉ line) (rest : List Char) :
    splitLine? (line ++ '\n' :: rest) = some (line, rest) := by
  induction line with
  | nil => simp [splitLine?]
  | cons c line ih =>
    simp only [List.mem_cons, not_or] at h
    rw [List.cons_append, splitLine?, if_neg (fun e => h.1 e.symm), ih h.2]
    rfl

theorem readLines_of_none {text : List Char} (h : splitLine? text = none) (g : Option Reply)
    (done : List Reply) : readLines g done text = (⟨text, g⟩, .ok done) := by
  rw [readLines]
  split
  · rfl
  · rename_i line after eq
    simp [h] at eq

theorem readLines_of_some {text line after : List Char} (h : splitLine? text = some (line, after))
    (g : Option Reply) (done : List Reply) : readLines g done text =
      match Line.parse? (dropReturn line) with
      | none => (⟨after, g⟩, .error (dropReturn line))
      | some l =>
        if l.continued then readLines (some (extend g l)) done after
        else readLines none (done ++ [extend g l]) after := by
  rw [readLines]
  split
  · rename_i eq
    simp [h] at eq
  · rename_i line' after' eq
    rw [h] at eq
    simp only [Option.some.injEq, Prod.mk.injEq] at eq
    obtain ⟨rfl, rfl⟩ := eq
    rfl

/-- Reading by the lines of the text: the text has no line end, or its first line is malformed, or
it goes on with the rest of the text. -/
theorem readLines_induct {P : Option Reply → List Reply → List Char → Prop}
    (rest : ∀ g done text, splitLine? text = none → P g done text)
    (malformed : ∀ g done text line after, splitLine? text = some (line, after) →
      Line.parse? (dropReturn line) = none → P g done text)
    (more : ∀ g done text line after l, splitLine? text = some (line, after) →
      Line.parse? (dropReturn line) = some l → l.continued = true →
      P (some (extend g l)) done after → P g done text)
    (last : ∀ g done text line after l, splitLine? text = some (line, after) →
      Line.parse? (dropReturn line) = some l → l.continued = false →
      P none (done ++ [extend g l]) after → P g done text)
    (g : Option Reply) (done : List Reply) (text : List Char) : P g done text := by
  induction h : text.length using Nat.strongRecOn generalizing g done text with
  | _ n ih =>
    cases hs : splitLine? text with
    | none => exact rest g done text hs
    | some p =>
      obtain ⟨line, after⟩ := p
      have shorter := splitLine?_length hs
      cases hp : Line.parse? (dropReturn line) with
      | none => exact malformed g done text line after hs hp
      | some l =>
        cases hl : l.continued with
        | true => exact more g done text line after l hs hp hl (ih _ (h ▸ shorter) _ _ _ rfl)
        | false => exact last g done text line after l hs hp hl (ih _ (h ▸ shorter) _ _ _ rfl)

/-- The replies of earlier text stand before those of the text that is read. -/
theorem readLines_done (g : Option Reply) (done : List Reply) (text : List Char) :
    readLines g done text =
      ((readLines g [] text).1, (readLines g [] text).2.map (done ++ ·)) := by
  suffices general : ∀ g new text, ∀ old, readLines g (old ++ new) text =
      ((readLines g new text).1, (readLines g new text).2.map (old ++ ·)) by
    simpa using general g [] text done
  intro g new text
  induction g, new, text using readLines_induct with
  | rest g new text hs => intro old; simp only [readLines_of_none hs, Except.map]
  | malformed g new text line after hs hp =>
    intro old
    simp only [readLines_of_some hs, hp, Except.map]
  | more g new text line after l hs hp hl ih =>
    intro old
    simp only [readLines_of_some hs, hp, hl, if_true, ih]
  | last g new text line after l hs hp hl ih =>
    intro old
    simp only [readLines_of_some hs, hp, hl, Bool.false_eq_true, if_false, List.append_assoc, ih]

/-- Text that is read up to its end can be followed by more. -/
theorem readLines_append {g : Option Reply} {done ds : List Reply} {x : List Char} {r : Reader}
    (h : readLines g done x = (r, .ok ds)) (y : List Char) :
    readLines g done (x ++ y) = readLines r.group ds (r.pending ++ y) := by
  induction g, done, x using readLines_induct with
  | rest g done x hs =>
    rw [readLines_of_none hs] at h
    simp only [Prod.mk.injEq, Except.ok.injEq] at h
    obtain ⟨rfl, rfl⟩ := h
    rfl
  | malformed g done x line after hs hp => simp [readLines_of_some hs, hp] at h
  | more g done x line after l hs hp hl ih =>
    simp only [readLines_of_some hs, hp, hl, if_true] at h
    simp only [readLines_of_some (splitLine?_append hs y), hp, hl, if_true, ih h]
  | last g done x line after l hs hp hl ih =>
    simp only [readLines_of_some hs, hp, hl, Bool.false_eq_true, if_false] at h
    simp only [readLines_of_some (splitLine?_append hs y), hp, hl, Bool.false_eq_true, if_false,
      ih h]

/-- A malformed line ends the reading wherever the text ends. -/
theorem readLines_error_append {g : Option Reply} {done : List Reply} {x line : List Char}
    {r : Reader} (h : readLines g done x = (r, .error line)) (y : List Char) :
    readLines g done (x ++ y) = (⟨r.pending ++ y, r.group⟩, .error line) := by
  induction g, done, x using readLines_induct with
  | rest g done x hs => simp [readLines_of_none hs] at h
  | malformed g done x line' after hs hp =>
    simp only [readLines_of_some hs, hp, Prod.mk.injEq, Except.error.injEq] at h
    obtain ⟨rfl, rfl⟩ := h
    simp only [readLines_of_some (splitLine?_append hs y), hp]
  | more g done x line' after l hs hp hl ih =>
    simp only [readLines_of_some hs, hp, hl, if_true] at h
    simp only [readLines_of_some (splitLine?_append hs y), hp, hl, if_true, ih h]
  | last g done x line' after l hs hp hl ih =>
    simp only [readLines_of_some hs, hp, hl, Bool.false_eq_true, if_false] at h
    simp only [readLines_of_some (splitLine?_append hs y), hp, hl, Bool.false_eq_true, if_false,
      ih h]

namespace Reader

/-- Two pieces of text are read as the whole of them. -/
theorem push_append {r r' : Reader} {x : List Char} {xs : List Reply} (h : r.push x = (r', .ok xs))
    (y : List Char) : r.push (x ++ y) = ((r'.push y).1, (r'.push y).2.map (xs ++ ·)) := by
  rw [push] at h
  rw [push, ← List.append_assoc, readLines_append h, readLines_done]
  rfl

theorem push_error_append {r r' : Reader} {x line : List Char} (h : r.push x = (r', .error line))
    (y : List Char) : r.push (x ++ y) = (⟨r'.pending ++ y, r'.group⟩, .error line) := by
  rw [push] at h
  rw [push, ← List.append_assoc, readLines_error_append h]

/-- Text after which a reader is as new has been read as at least one reply. -/
theorem eq_nil_of_push {r : Reader} {x : List Char} (h : r.push x = ({}, .ok [])) :
    r.pending ++ x = [] := by
  have fresh : ∀ g done text, readLines g done text = (({} : Reader), .ok []) →
      g = none ∧ text = [] := by
    intro g done text
    induction g, done, text using readLines_induct with
    | rest g done text hs =>
      intro h
      simp only [readLines_of_none hs, Prod.mk.injEq, Reader.mk.injEq] at h
      exact ⟨h.1.2, h.1.1⟩
    | malformed g done text line after hs hp =>
      intro h
      simp [readLines_of_some hs, hp] at h
    | more g done text line after l hs hp hl ih =>
      intro h
      simp only [readLines_of_some hs, hp, hl, if_true] at h
      exact absurd (ih h).1 (by simp)
    | last g done text line after l hs hp hl ih =>
      intro h
      simp only [readLines_of_some hs, hp, hl, Bool.false_eq_true, if_false] at h
      rw [readLines_done] at h
      cases he : (readLines none [] after).2 <;> simp [he, Except.map] at h
  exact (fresh _ _ _ h).2

end Reader

/-! ## Replies as servers write them -/

/-- How a server may write a line, without the line end. -/
inductive Line.Form : Line → List Char → Prop
  | bare {code : ℕ} : code < 1000 → Form ⟨code, false, []⟩ (codeDigits code)
  | full {code : ℕ} {continued : Bool} {text : List Char} : code < 1000 →
      text.any isSeparator = false →
      Form ⟨code, continued, text⟩ (codeDigits code ++ (if continued then '-' else ' ') :: text)

/-- The carriage return before a line feed may be left out. -/
inductive LineEnd : List Char → Prop
  | bare : LineEnd ['\n']
  | full : LineEnd ['\r', '\n']

/-- How a server may write a reply. -/
inductive Written : Reply → List Char → Prop
  | last {code : ℕ} {text line ending : List Char} : Line.Form ⟨code, false, text⟩ line →
      LineEnd ending → Written ⟨code, [text]⟩ (line ++ ending)
  | more {code code' : ℕ} {text line ending rest : List Char} {lines : List (List Char)} :
      Line.Form ⟨code, true, text⟩ line → LineEnd ending → Written ⟨code', lines⟩ rest →
      Written ⟨code, text :: lines⟩ (line ++ ending ++ rest)

theorem digit?_digitChar : ∀ d < 10, digit? (Nat.digitChar d) = some d := by decide

theorem digitChar_clean : ∀ d < 10, isSeparator (Nat.digitChar d) = false := by decide

theorem parse?_codeDigits {code : ℕ} (h : code < 1000) (tail : List Char) :
    Line.parse? (codeDigits code ++ tail) = Line.ofTail? code tail := by
  have value : 100 * (code / 100 % 10) + 10 * (code / 10 % 10) + code % 10 = code := by omega
  simp only [codeDigits, List.cons_append, List.nil_append, Line.parse?,
    digit?_digitChar _ (Nat.mod_lt _ (by omega)), Option.bind_eq_bind, Option.bind_some, value]

theorem codeDigits_clean (code : ℕ) : (codeDigits code).any isSeparator = false := by
  simp only [codeDigits, List.any_cons, List.any_nil, digitChar_clean _ (Nat.mod_lt _ (by omega)),
    Bool.or_false]

namespace Line.Form

variable {l : Line} {line : List Char}

theorem clean (h : Form l line) : line.any isSeparator = false := by
  cases h with
  | bare => exact codeDigits_clean _
  | @full code continued text _ free =>
    rw [List.any_append, List.any_cons, codeDigits_clean, free]
    cases continued <;> rfl

theorem parse? (h : Form l line) : Line.parse? line = some l := by
  cases h with
  | bare small =>
    have bare := parse?_codeDigits small []
    rw [List.append_nil] at bare
    rw [bare, Line.ofTail?]
  | @full code continued text small free =>
    rw [parse?_codeDigits small, Line.ofTail?, if_pos]
    · cases continued <;> rfl
    · refine ⟨?_, by simp [free]⟩
      cases continued
      · exact .inl rfl
      · exact .inr rfl

theorem not_mem (h : Form l line) {c : Char} (hc : isSeparator c = true) : c ∉ line := by
  intro mem
  have free := List.any_eq_false.1 h.clean c mem
  exact free hc

end Line.Form

theorem dropReturn_append_return (line : List Char) : dropReturn (line ++ ['\r']) = line := by
  simp [dropReturn]

theorem dropReturn_of_not_mem {line : List Char} (h : '\r' ∉ line) : dropReturn line = line := by
  rw [dropReturn]
  split
  · rename_i last
    exact absurd (List.mem_of_getLast? last) h
  · rfl

/-- A line that is written with its end is split off and read. -/
theorem readLines_line {l : Line} {line ending : List Char} (h : Line.Form l line)
    (he : LineEnd ending) (g : Option Reply) (done : List Reply) (rest : List Char) :
    readLines g done (line ++ ending ++ rest) =
      if l.continued then readLines (some (extend g l)) done rest
      else readLines none (done ++ [extend g l]) rest := by
  have feed : '\n' ∉ line := h.not_mem (by decide)
  have ret : '\r' ∉ line := h.not_mem (by decide)
  cases he with
  | bare =>
    have hs : splitLine? (line ++ ['\n'] ++ rest) = some (line, rest) := by
      rw [List.append_assoc]
      exact splitLine?_line feed rest
    rw [readLines_of_some hs, dropReturn_of_not_mem ret, h.parse?]
  | full =>
    have hs : splitLine? (line ++ ['\r', '\n'] ++ rest) = some (line ++ ['\r'], rest) := by
      have both : line ++ ['\r', '\n'] ++ rest = (line ++ ['\r']) ++ '\n' :: rest := by simp
      rw [both]
      exact splitLine?_line (by simp [feed]) rest
    rw [readLines_of_some hs, dropReturn_append_return, h.parse?]

/-- The lines of a written reply are added to those that are already collected. -/
theorem readLines_written {r : Reply} {text : List Char} (h : Written r text) (g : Option Reply)
    (done : List Reply) : readLines g done text = ({}, .ok (done ++
      [match g with
        | some q => { q with lines := q.lines ++ r.lines }
        | none => r])) := by
  induction h generalizing g with
  | @last code text line ending form ends =>
    have read := readLines_line form ends g done []
    rw [List.append_nil] at read
    rw [read, if_neg (by simp), readLines_of_none (by rfl)]
    cases g <;> rfl
  | @more code code' text line ending rest lines form ends _ ih =>
    rw [readLines_line form ends, if_pos rfl, ih]
    cases g with
    | none => rfl
    | some q => simp [extend]

/-- A new reader makes one reply of a written one, and is then as new. -/
theorem push_written {r : Reply} {text : List Char} (h : Written r text) :
    ({} : Reader).push text = ({}, .ok [r]) := by
  exact readLines_written h none []

/-- A written reply ends with a line feed. -/
theorem Written.ends {r : Reply} {text : List Char} (h : Written r text) :
    ∃ init, text = init ++ ['\n'] := by
  induction h with
  | @last _ _ line _ _ ends =>
    cases ends with
    | bare => exact ⟨line, rfl⟩
    | full => exact ⟨line ++ ['\r'], by simp⟩
  | @more _ _ _ line ending _ _ _ _ _ ih =>
    obtain ⟨init, rfl⟩ := ih
    exact ⟨line ++ ending ++ init, by simp⟩

/-- `render` is one way to write a reply. -/
theorem written_render {r : Reply} (small : r.code < 1000) (some_line : r.lines ≠ [])
    (clean : ∀ l ∈ r.lines, l.any isSeparator = false) {ending : List Char} (h : LineEnd ending) :
    Written r (r.render ending) := by
  obtain ⟨code, lines⟩ := r
  rw [render]
  induction lines with
  | nil => exact absurd rfl some_line
  | cons text lines ih =>
    have free := clean text (by simp)
    cases lines with
    | nil =>
      have form : Line.Form ⟨code, false, text⟩ (codeDigits code ++ ' ' :: text) := .full small free
      simpa [renderLines] using Written.last form h
    | cons next lines =>
      have form : Line.Form ⟨code, true, text⟩ (codeDigits code ++ '-' :: text) := .full small free
      have rest := ih small (by simp) fun l hl => clean l (List.mem_cons_of_mem _ hl)
      simpa [renderLines] using Written.more form h rest

end FilterBench.Reply
