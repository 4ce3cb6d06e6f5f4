import FilterBench.Reply.Basic

/-!
# Reading replies from text that arrives in pieces

A `Reader` holds the text after the last line end and the reply whose last line has not come yet.
`push` adds text and gives the replies it completes, or the first line that is no reply line. In
that case the replies completed before it in the same push are lost, the lines after it stay to
be read, and the open reply is kept.
-/
namespace FilterBench.Reply

structure Reader where
  pending : List Char := []
  group : Option Reply := none
  deriving DecidableEq, Repr, Inhabited

/-- A line without the carriage return at its end. -/
def dropReturn (line : List Char) : List Char :=
  match line.getLast? with
  | some '\r' => line.dropLast
  | _ => line

/-- The text up to the first line end, and the text after it. -/
def splitLine? : List Char → Option (List Char × List Char)
  | [] => none
  | c :: rest =>
    if c = '\n' then some ([], rest)
    else (splitLine? rest).map fun (line, after) => (c :: line, after)

theorem splitLine?_length {text line after : List Char}
    (h : splitLine? text = some (line, after)) : after.length < text.length := by
  induction text generalizing line after with
  | nil => simp [splitLine?] at h
  | cons c rest ih =>
    simp only [splitLine?] at h
    split at h
    · simp_all
    · obtain ⟨⟨l, a⟩, ha, hp⟩ := Option.map_eq_some_iff.1 h
      simp only [Prod.mk.injEq] at hp
      have := ih ha
      simp only [List.length_cons, ← hp.2]
      omega

/-- Reads all complete lines of a text, after the replies `done` of the same push. -/
def readLines (group : Option Reply) (done : List Reply) (text : List Char) :
    Reader × Except (List Char) (List Reply) :=
  match h : splitLine? text with
  | none => (⟨text, group⟩, .ok done)
  | some (line, after) =>
    have := splitLine?_length h
    match Line.parse? (dropReturn line) with
    | none => (⟨after, group⟩, .error (dropReturn line))
    | some l =>
      if l.continued then readLines (some (extend group l)) done after
      else readLines none (done ++ [extend group l]) after
termination_by text.length

namespace Reader

/-- Adds text; the error is the malformed line. -/
def push (r : Reader) (text : List Char) : Reader × Except (List Char) (List Reply) :=
  readLines r.group [] (r.pending ++ text)

end Reader

end FilterBench.Reply
