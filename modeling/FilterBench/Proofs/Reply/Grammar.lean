import FilterBench.Proofs.Reply.Reading
import FilterBench.Setback

/-!
# What a reader takes for replies

The text that has come so far falls into lines that have ended and a remainder (`endedLines`,
`remainder`). A line is a reply line if it has one of the forms that a server may write (`Line.Form`);
`groups` puts the lines together that go on to each other, and `joined` makes one reply of such a group.
A reader does with pieces of text what this does with the whole text at once (`pushAll_grammar`). It
stops at the first line that is no reply line (`FirstMalformed`), and at no other.
-/
namespace FilterBench.Reply

/-! ## The lines of a text -/

/-- The lines of a text that have ended, without their line feeds. -/
def endedLines (text : List Char) : List (List Char) := (text.splitOn '\n').dropLast

/-- The text after the last line feed. -/
def remainder (text : List Char) : List Char :=
  (text.splitOn '\n').getLast (List.splitOn_ne_nil '\n' text)

variable {line text : List Char}

theorem text_induct {P : List Char → Prop} (unended : ∀ text, '\n' ∉ text → P text)
    (ended : ∀ line rest, '\n' ∉ line → P rest → P (line ++ '\n' :: rest))
    (text : List Char) : P text := by
  by_cases fed : '\n' ∈ text
  · obtain ⟨line, rest, split, unfed⟩ := List.eq_append_cons_of_mem fed
    have shorter : rest.length < text.length := by
      rw [split, List.length_append, List.length_cons]
      omega
    rw [split]
    exact ended line rest unfed (text_induct unended ended rest)
  · exact unended text fed
termination_by text.length

theorem endedLines_open (h : '\n' ∉ text) : endedLines text = [] := by
  rw [endedLines, List.splitOn_eq_singleton h]
  rfl

theorem endedLines_line (h : '\n' ∉ line) (rest : List Char) :
    endedLines (line ++ '\n' :: rest) = line :: endedLines rest := by
  rw [endedLines, List.splitOn_append_cons_self_of_not_mem h,
    List.dropLast_cons_of_ne_nil (List.splitOn_ne_nil '\n' rest)]
  rfl

theorem remainder_open (h : '\n' ∉ text) : remainder text = text := by
  simp only [remainder, List.splitOn_eq_singleton h, List.getLast_singleton]

theorem remainder_line (h : '\n' ∉ line) (rest : List Char) :
    remainder (line ++ '\n' :: rest) = remainder rest := by
  simp only [remainder, List.splitOn_append_cons_self_of_not_mem h]
  exact List.getLast_cons (List.splitOn_ne_nil '\n' rest)

theorem not_mem_remainder (text : List Char) : '\n' ∉ remainder text := by
  induction text using text_induct with
  | unended text h => rwa [remainder_open h]
  | ended line rest h ih => rwa [remainder_line h]

/-- More text ends the remainder, and no line that has ended already. -/
theorem endedLines_append (text more : List Char) :
    endedLines (text ++ more) = endedLines text ++ endedLines (remainder text ++ more) := by
  induction text using text_induct with
  | unended text h => rw [endedLines_open h, remainder_open h, List.nil_append]
  | ended line rest h ih =>
    rw [List.append_assoc, List.cons_append, endedLines_line h, endedLines_line h,
      remainder_line h, ih, List.cons_append]

/-! ## Reply lines -/

theorem exists_digitChar {c : Char} (h : c.isDigit = true) : ∃ d < 10, c = Nat.digitChar d := by
  have digit : ∀ n < 58, 48 ≤ n → Char.ofNat n = Nat.digitChar (n - 48) := by decide
  have bounds : 48 ≤ c.toNat ∧ c.toNat ≤ 57 := by
    simpa [Char.isDigit, UInt32.le_iff_toNat_le] using h
  refine ⟨c.toNat - 48, by omega, ?_⟩
  rw [← digit c.toNat (by omega) bounds.1, Char.ofNat_toNat]

theorem exists_of_digit? {c : Char} {d : ℕ} (h : digit? c = some d) :
    d < 10 ∧ c = Nat.digitChar d := by
  rw [digit?] at h
  split at h
  · rename_i isDigit
    obtain ⟨e, small, rfl⟩ := exists_digitChar isDigit
    have value := digit?_digitChar e small
    rw [digit?, if_pos isDigit] at value
    cases h.symm.trans value
    exact ⟨small, rfl⟩
  · cases h

/-- A line that can be read is of the form that its reading has. -/
theorem Line.Form.of_parse? {l : Line} (h : Line.parse? line = some l) : Line.Form l line := by
  match line, h with
  | a :: b :: c :: tail, h =>
    simp only [Line.parse?, Option.bind_eq_bind, Option.bind_eq_some_iff] at h
    obtain ⟨x, first, y, second, z, third, rest⟩ := h
    obtain ⟨smallX, rfl⟩ := exists_of_digit? first
    obtain ⟨smallY, rfl⟩ := exists_of_digit? second
    obtain ⟨smallZ, rfl⟩ := exists_of_digit? third
    have small : 100 * x + 10 * y + z < 1000 := by omega
    have digits : codeDigits (100 * x + 10 * y + z) =
        [Nat.digitChar x, Nat.digitChar y, Nat.digitChar z] := by
      have hundreds : (100 * x + 10 * y + z) / 100 % 10 = x := by omega
      have tens : (100 * x + 10 * y + z) / 10 % 10 = y := by omega
      have ones : (100 * x + 10 * y + z) % 10 = z := by omega
      rw [codeDigits, hundreds, tens, ones]
    cases tail with
    | nil =>
      cases rest
      exact digits ▸ .bare small
    | cons sep text =>
      rw [Line.ofTail?] at rest
      split at rest
      · rename_i allowed
        obtain ⟨separator, clean⟩ := allowed
        cases rest
        have full : Line.Form ⟨_, decide (sep = '-'), text⟩
            (codeDigits _ ++ (if decide (sep = '-') then '-' else ' ') :: text) :=
          .full small (Bool.eq_false_iff.2 clean)
        rw [digits] at full
        rcases separator with rfl | rfl <;> exact full
      · cases rest

/-- A line that a server may write. -/
def WellFormed (line : List Char) : Prop := ∃ l, Line.Form l line

theorem isDigit_digitChar_mod (n : ℕ) : (Nat.digitChar (n % 10)).isDigit = true := by
  rw [Nat.isDigit_digitChar]
  exact decide_eq_true (Nat.mod_lt n (by omega))

/-- Three digits, and nothing more or a space or hyphen with a text that no line end is in. -/
theorem wellFormed_iff : WellFormed line ↔ ∃ a b c tail, line = a :: b :: c :: tail ∧
    (a.isDigit ∧ b.isDigit ∧ c.isDigit) ∧
    (tail = [] ∨ ∃ sep text, tail = sep :: text ∧ (sep = ' ' ∨ sep = '-') ∧
      text.any isSeparator = false) := by
  constructor
  · rintro ⟨l, form⟩
    cases form with
    | @bare code =>
      exact ⟨_, _, _, [], rfl, ⟨isDigit_digitChar_mod _, isDigit_digitChar_mod _,
        isDigit_digitChar_mod _⟩, .inl rfl⟩
    | @full code continued text _ clean =>
      refine ⟨_, _, _, _, rfl, ⟨isDigit_digitChar_mod _, isDigit_digitChar_mod _,
        isDigit_digitChar_mod _⟩, .inr ⟨_, text, rfl, ?_, clean⟩⟩
      cases continued
      · exact .inl rfl
      · exact .inr rfl
  · rintro ⟨a, b, c, tail, rfl, ⟨first, second, third⟩, ends⟩
    obtain ⟨l, read⟩ : ∃ l, Line.parse? (a :: b :: c :: tail) = some l := by
      simp only [Line.parse?, digit?, first, second, third, if_true, Option.bind_eq_bind,
        Option.bind_some]
      rcases ends with rfl | ⟨sep, text, rfl, separator, clean⟩
      · exact ⟨_, rfl⟩
      · exact ⟨_, if_pos ⟨separator, by simp [clean]⟩⟩
    exact ⟨l, .of_parse? read⟩

theorem parse?_of_malformed (h : ¬ WellFormed line) : Line.parse? line = none := by
  cases read : Line.parse? line with
  | none => rfl
  | some l => exact absurd ⟨l, .of_parse? read⟩ h

/-- The first of the lines that no server may write, without the return at its end. -/
inductive FirstMalformed : List (List Char) → List Char → Prop
  | here {raw : List Char} {after : List (List Char)} : ¬ WellFormed (dropReturn raw) →
      FirstMalformed (raw :: after) (dropReturn raw)
  | later {raw : List Char} {after : List (List Char)} {line : List Char} :
      WellFormed (dropReturn raw) → FirstMalformed after line → FirstMalformed (raw :: after) line

theorem firstMalformed_cons {raw : List Char} {after : List (List Char)}
    (form : WellFormed (dropReturn raw)) :
    FirstMalformed (raw :: after) line ↔ FirstMalformed after line := by
  constructor
  · intro h
    cases h with
    | here malformed => exact absurd form malformed
    | later _ more => exact more
  · exact .later form

theorem firstMalformed_malformed {raw : List Char} {after : List (List Char)}
    (malformed : ¬ WellFormed (dropReturn raw)) :
    FirstMalformed (raw :: after) line ↔ line = dropReturn raw := by
  constructor
  · intro h
    cases h with
    | here _ => rfl
    | later form _ => exact absurd form malformed
  · rintro rfl
    exact .here malformed

/-- The reply lines that the lines of a text are. -/
def LinesOf (lines : List Line) (raws : List (List Char)) : Prop :=
  List.Forall₂ (fun l raw => Line.Form l (dropReturn raw)) lines raws

theorem linesOf_or_firstMalformed (raws : List (List Char)) :
    (∃ lines, LinesOf lines raws) ∨ ∃ line, FirstMalformed raws line := by
  induction raws with
  | nil => exact .inl ⟨[], .nil⟩
  | cons raw raws ih =>
    by_cases form : WellFormed (dropReturn raw)
    · rcases ih with ⟨lines, all⟩ | ⟨line, first⟩
      · obtain ⟨l, form⟩ := form
        exact .inl ⟨l :: lines, .cons form all⟩
      · exact .inr ⟨line, .later form first⟩
    · exact .inr ⟨_, .here form⟩

theorem LinesOf.wellFormed {lines : List Line} {raws : List (List Char)} (h : LinesOf lines raws) :
    ∀ raw ∈ raws, WellFormed (dropReturn raw) := by
  intro raw mem
  induction h with
  | nil => cases mem
  | @cons l raw' lines raws form _ ih =>
    rcases List.mem_cons.1 mem with rfl | mem
    · exact ⟨l, form⟩
    · exact ih mem

/-- There is a first malformed line where there is any. -/
theorem exists_firstMalformed (raws : List (List Char)) :
    (∃ line, FirstMalformed raws line) ↔ ∃ raw ∈ raws, ¬ WellFormed (dropReturn raw) := by
  constructor
  · rintro ⟨line, first⟩
    induction first with
    | @here raw after malformed => exact ⟨raw, List.mem_cons_self, malformed⟩
    | later _ _ ih =>
      obtain ⟨raw, mem, malformed⟩ := ih
      exact ⟨raw, List.mem_cons_of_mem _ mem, malformed⟩
  · rintro ⟨raw, mem, malformed⟩
    rcases linesOf_or_firstMalformed raws with ⟨lines, all⟩ | first
    · exact absurd (all.wellFormed raw mem) malformed
    · exact first

/-! ## Groups of lines -/

/-- The lines in groups, each up to the first line that does not go on, and the lines after the last
group. -/
def groups : List Line → List (List Line) × List Line
  | [] => ([], [])
  | l :: rest =>
    if l.continued then
      match groups rest with
      | ([], unended) => ([], l :: unended)
      | (group :: more, unended) => ((l :: group) :: more, unended)
    else ([l] :: (groups rest).1, (groups rest).2)

/-- The reply of a group: the code of its first line and the texts of all of them. -/
def joined : List Line → Option Reply
  | [] => none
  | l :: more => some ⟨l.code, (l :: more).map (·.text)⟩

theorem joined_concat (before : List Line) (l : Line) :
    joined (before ++ [l]) = some (extend (joined before) l) := by
  cases before with
  | nil => rfl
  | cons first more => simp [joined, extend]

theorem groups_unended {before : List Line} (h : ∀ l ∈ before, l.continued = true) :
    groups before = ([], before) := by
  induction before with
  | nil => rfl
  | cons l before ih =>
    have rest := ih fun l' mem => h l' (List.mem_cons_of_mem _ mem)
    rw [groups, if_pos (h l List.mem_cons_self), rest]

theorem groups_ended {before : List Line} (h : ∀ l ∈ before, l.continued = true) {last : Line}
    (ended : last.continued = false) (more : List Line) :
    groups (before ++ last :: more) =
      ((before ++ [last]) :: (groups more).1, (groups more).2) := by
  induction before with
  | nil => simp [groups, ended]
  | cons l before ih =>
    have rest := ih fun l' mem => h l' (List.mem_cons_of_mem _ mem)
    rw [List.cons_append, groups, if_pos (h l List.mem_cons_self), rest]
    rfl

/-! ## Reading a text at once -/

theorem splitLine?_open (h : '\n' ∉ text) : splitLine? text = none := by
  induction text with
  | nil => rfl
  | cons c rest ih =>
    rw [List.mem_cons, not_or] at h
    rw [splitLine?, if_neg (fun same => h.1 same.symm), ih h.2]
    rfl

/-- The lines of the text are added to those of the open group, which all go on. -/
theorem readLines_linesOf {before lines : List Line} (h : LinesOf lines (endedLines text))
    (going : ∀ l ∈ before, l.continued = true) (done : List Reply) :
    ∃ replies, (groups (before ++ lines)).1.map joined = replies.map some ∧
      readLines (joined before) done text =
        (⟨remainder text, joined (groups (before ++ lines)).2⟩, .ok (done ++ replies)) := by
  induction text using text_induct generalizing before lines done with
  | unended text unfed =>
    rw [endedLines_open unfed] at h
    cases h
    rw [List.append_nil, groups_unended going, remainder_open unfed,
      readLines_of_none (splitLine?_open unfed)]
    exact ⟨[], rfl, by rw [List.append_nil]⟩
  | ended line rest unfed ih =>
    rw [endedLines_line unfed] at h
    rw [remainder_line unfed, readLines_of_some (splitLine?_line unfed rest)]
    cases h with
    | @cons l _ lines _ form all =>
      rw [form.parse?]
      cases ended : l.continued with
      | true =>
        have going' : ∀ l' ∈ before ++ [l], l'.continued = true := by
          intro l' mem
          rcases List.mem_append.1 mem with mem | mem
          · exact going l' mem
          · rwa [List.mem_singleton.1 mem]
        obtain ⟨replies, same, read⟩ := ih all going' done
        rw [List.append_assoc, List.singleton_append] at same read
        rw [joined_concat] at read
        simp only [ended, if_true]
        exact ⟨replies, same, read⟩
      | false =>
        have fresh : ∀ l' ∈ ([] : List Line), l'.continued = true := List.forall_mem_nil _
        obtain ⟨replies, same, read⟩ := ih all fresh (done ++ [extend (joined before) l])
        rw [List.nil_append] at same read
        rw [groups_ended going ended]
        simp only [ended, Bool.false_eq_true, if_false]
        refine ⟨extend (joined before) l :: replies, ?_, ?_⟩
        · rw [List.map_cons, List.map_cons, same, joined_concat]
        · rw [List.append_assoc] at read
          exact read

theorem readLines_error_iff (g : Option Reply) (done : List Reply) :
    (readLines g done text).2 = .error line ↔ FirstMalformed (endedLines text) line := by
  induction text using text_induct generalizing g done with
  | unended text unfed =>
    rw [readLines_of_none (splitLine?_open unfed), endedLines_open unfed]
    exact ⟨nofun, nofun⟩
  | ended first rest unfed ih =>
    rw [readLines_of_some (splitLine?_line unfed rest), endedLines_line unfed]
    by_cases form : WellFormed (dropReturn first)
    · rw [firstMalformed_cons form]
      obtain ⟨l, form⟩ := form
      simp only [form.parse?]
      split
      · exact ih _ done
      · exact ih none _
    · rw [parse?_of_malformed form, firstMalformed_malformed form, Except.error.injEq]
      exact eq_comm

theorem pending_readLines {g : Option Reply} {done ds : List Reply} {r : Reader}
    (h : readLines g done text = (r, .ok ds)) : r.pending = remainder text := by
  induction text using text_induct generalizing g done with
  | unended text unfed =>
    rw [readLines_of_none (splitLine?_open unfed)] at h
    cases h
    exact (remainder_open unfed).symm
  | ended first rest unfed ih =>
    rw [readLines_of_some (splitLine?_line unfed rest)] at h
    rw [remainder_line unfed]
    split at h
    · cases h
    · split at h
      · exact ih h
      · exact ih h

namespace Reader

variable {r r' : Reader} {replies : List Reply}

/-- The pushes of one chunk after another, up to the first that throws; the replies are those of all
pushes. -/
def pushAll (r : Reader) : List (List Char) → Reader × Except (List Char) (List Reply)
  | [] => (r, .ok [])
  | chunk :: rest =>
    match r.push chunk with
    | (r', .error line) => (r', .error line)
    | (r', .ok replies) => ((r'.pushAll rest).1, (r'.pushAll rest).2.map (replies ++ ·))

/-- A reader stops at the first line that no server may write, and at no other. -/
theorem push_error_iff (r : Reader) (chunk line : List Char) :
    (r.push chunk).2 = .error line ↔ FirstMalformed (endedLines (r.pending ++ chunk)) line :=
  readLines_error_iff r.group []

/-- What is left to be read after a push has no line end. -/
theorem not_mem_pending {chunk : List Char} (h : r.push chunk = (r', .ok replies)) :
    '\n' ∉ r'.pending := by
  rw [pending_readLines h]
  exact not_mem_remainder _

/-- Chunks are read as the whole of them. A malformed line ends the reading, whatever comes after
it. -/
theorem pushAll_eq (unfed : '\n' ∉ r.pending) (chunks : List (List Char)) :
    (r.pushAll chunks).2 = (r.push chunks.flatten).2 ∧
      ∀ ds, (r.pushAll chunks).2 = .ok ds → (r.pushAll chunks).1 = (r.push chunks.flatten).1 := by
  induction chunks generalizing r with
  | nil =>
    have none := readLines_of_none (splitLine?_open unfed) r.group []
    rw [List.flatten_nil, push, List.append_nil, none]
    exact ⟨rfl, fun _ _ => rfl⟩
  | cons chunk rest ih =>
    rw [List.flatten_cons, pushAll]
    cases read : r.push chunk with
    | mk next result =>
      cases result with
      | error line =>
        rw [push_error_append read]
        refine ⟨rfl, fun ds all => ?_⟩
        cases all
      | ok first =>
        obtain ⟨result, state⟩ := ih (not_mem_pending read)
        rw [push_append read]
        refine ⟨congrArg (Except.map (first ++ ·)) result, ?_⟩
        intro ds all
        cases more : (next.pushAll rest).2 with
        | error line => simp [more, Except.map] at all
        | ok xs => exact state xs more

theorem pushAll_read {chunks : List (List Char)}
    (h : ({} : Reader).pushAll chunks = (r, .ok replies)) :
    readLines none [] chunks.flatten = (r, .ok replies) := by
  obtain ⟨result, state⟩ := pushAll_eq (r := {}) List.not_mem_nil chunks
  rw [h] at result state
  exact Prod.ext (state replies rfl).symm result.symm

/-- No push throws where every line that has ended is a reply line. -/
theorem pushAll_ok_iff (chunks : List (List Char)) :
    (∃ r replies, ({} : Reader).pushAll chunks = (r, .ok replies)) ↔
      ∀ raw ∈ endedLines chunks.flatten, WellFormed (dropReturn raw) := by
  obtain ⟨result, -⟩ := pushAll_eq (r := {}) List.not_mem_nil chunks
  have stops (line : List Char) : (({} : Reader).pushAll chunks).2 = .error line ↔
      FirstMalformed (endedLines chunks.flatten) line := by
    rw [result]
    exact push_error_iff {} chunks.flatten line
  have malformed := exists_firstMalformed (endedLines chunks.flatten)
  cases pushed : ({} : Reader).pushAll chunks with
  | mk r outcome =>
    rw [pushed] at stops
    cases outcome with
    | error line =>
      obtain ⟨raw, mem, other⟩ := malformed.1 ⟨line, (stops line).1 rfl⟩
      exact ⟨nofun, fun all => absurd (all raw mem) other⟩
    | ok replies =>
      refine ⟨fun _ raw mem => ?_, fun _ => ⟨r, replies, rfl⟩⟩
      by_contra other
      obtain ⟨line, first⟩ := malformed.2 ⟨raw, mem, other⟩
      cases (stops line).2 first

/-- However a text is cut into chunks, a new reader throws at none of them exactly if all lines that
have ended are reply lines. The replies are then those of the groups of these lines, the text
after the last line end and the open group are kept, and the next push throws exactly if it ends a
line that is none. Whatever reader it is, a push throws at the first such line, as a fault of the
protocol. A reply line is three digits, and nothing more or a space or hyphen with a text that no line
end is in. -/
theorem pushAll_grammar :
    (∀ chunks : List (List Char), (∃ r replies, ({} : Reader).pushAll chunks = (r, .ok replies)) ↔
      ∀ raw ∈ endedLines chunks.flatten, WellFormed (dropReturn raw)) ∧
    (∀ (chunks : List (List Char)) (r : Reader) (replies : List Reply),
      ({} : Reader).pushAll chunks = (r, .ok replies) →
      (∃ lines, LinesOf lines (endedLines chunks.flatten) ∧
        (groups lines).1.map joined = replies.map some ∧
        r = ⟨remainder chunks.flatten, joined (groups lines).2⟩) ∧
      ∀ chunk, (∃ line, (r.push chunk).2 = .error line) ↔
        ∃ raw ∈ (endedLines (chunks.flatten ++ chunk)).drop (endedLines chunks.flatten).length,
          ¬ WellFormed (dropReturn raw)) ∧
    (∀ (r : Reader) (chunk line : List Char), (r.push chunk).2 = .error line ↔
      FirstMalformed (endedLines (r.pending ++ chunk)) line) ∧
    (∀ line : List Char, ∃ f : Fault, (Setback.malformed line).thrown = .fault f ∧
      f.code = .smtpProtocol) ∧
    ∀ line : List Char, WellFormed line ↔ ∃ a b c tail, line = a :: b :: c :: tail ∧
      (a.isDigit ∧ b.isDigit ∧ c.isDigit) ∧
      (tail = [] ∨ ∃ sep text, tail = sep :: text ∧ (sep = ' ' ∨ sep = '-') ∧
        text.any isSeparator = false) := by
  refine ⟨pushAll_ok_iff, ?_, push_error_iff, fun line => ⟨_, rfl, rfl⟩, fun _ => wellFormed_iff⟩
  intro chunks r replies pushed
  have read := pushAll_read pushed
  constructor
  · rcases linesOf_or_firstMalformed (endedLines chunks.flatten) with ⟨lines, all⟩ | ⟨line, first⟩
    · have fresh : ∀ l ∈ ([] : List Line), l.continued = true := List.forall_mem_nil _
      obtain ⟨replies', same, read'⟩ := readLines_linesOf all fresh []
      cases read.symm.trans read'
      exact ⟨lines, all, same, rfl⟩
    · have thrown := (readLines_error_iff none []).2 first
      rw [read] at thrown
      cases thrown
  · intro chunk
    rw [endedLines_append, List.drop_left, ← pending_readLines read, ← exists_firstMalformed]
    exact exists_congr fun line => push_error_iff r chunk line

/-- Cut between return and line feed, and in the code of the next reply. -/
theorem pushAll_grammar_cut :
    let chunks : List (List Char) := ["250-a\r".toList, "\n250 b\n2".toList]
    let r : Reader := ⟨['2'], none⟩
    ({} : Reader).pushAll chunks = (r, .ok [⟨250, [['a'], ['b']]⟩]) ∧
      ((∃ line, (r.push ['\n']).2 = .error line) ↔
        ∃ raw ∈ (endedLines (chunks.flatten ++ ['\n'])).drop (endedLines chunks.flatten).length,
          ¬ WellFormed (dropReturn raw)) := by
  intro chunks r
  have pushed : ({} : Reader).pushAll chunks = (r, .ok [⟨250, [['a'], ['b']]⟩]) := by
    decide +kernel
  exact ⟨pushed, (pushAll_grammar.2.1 chunks r _ pushed).2 ['\n']⟩

end Reader

end FilterBench.Reply
