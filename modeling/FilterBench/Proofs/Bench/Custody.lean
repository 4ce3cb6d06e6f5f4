import FilterBench.Bench.Time
import FilterBench.Proofs.Program.Job

/-!
# The custody of a test program

A `Custody` is what a bench has to do with its test program: whether it was launched, whether the
bench holds it, how it ended, whether a stop was asked for, what was recorded and told of its end,
and where the start and the run stand. `Custody.Step` says all that can happen to it, with the
guards under which it happens; the cases, their sessions, the clock and the world are left out.
`Valid` holds at all times (`Steps.valid`), and `Later` says what never changes back.
-/
namespace FilterBench

/-- Where a start stands, seen from the program: it was not launched yet, the launch is the next
thing, it was launched and is waited for, the start has succeeded, or nothing is launched any
more. -/
inductive Phase where
  | preparing | cleared | waiting | ready | closed
  deriving DecidableEq, Repr

def Startup.phase : Startup → Phase
  | .idle => .preparing
  | .makingScratch => .preparing
  | .building _ _ => .preparing
  | .built _ => .preparing
  | .checkedBuild => .cleared
  | .grace _ => .waiting
  | .checkedGrace => .waiting
  | .probing => .waiting
  | .checkedReady => .waiting
  | .checkedUnready _ => .waiting
  | .givingUp _ => .closed
  | .halting => .closed
  | .started => .ready
  | .failed _ => .closed

structure Custody where
  codes : ExitCodes
  startup : Startup
  program : Option Job
  running : Bool
  exit : Option Exit
  stopping : Stopping
  killed : Bool
  run : Run
  /-- A case has failed. -/
  failed : Bool
  /-- The commands that launched a test program. -/
  launches : List CommandLine
  /-- For each kill, whether the program went on until then. -/
  kills : List Bool
  /-- The ends that were recorded. -/
  seen : List Exit
  /-- The ends that were told as unexpected. -/
  told : List Exit
  /-- The outputs that were told. -/
  dumped : List String

namespace Custody

def isExpected (c : Custody) (e : Exit) : Bool :=
  e.code == some c.codes.clean || e.code == some c.codes.skip ||
    (c.killed && e.signal == some "SIGTERM")

/-- A stop at a time, with force after a while. -/
def stop (c : Custody) (now force : ℕ) : Custody :=
  match c.stopping with
  | .asked _ => c
  | .no =>
    if c.running then
      { c with
        running := false, killed := true, program := c.program.map (Job.kill · now force)
        kills := c.kills ++ [c.program.any (Job.alive · now)], stopping := .asked c.program.isSome }
    else { c with stopping := .asked c.program.isSome }

/-- Cases fail, or none does. -/
def fail (c : Custody) (some : Bool) : Custody := { c with failed := c.failed || some }

/-- Cases are played or may be played now. -/
def Plays (c : Custody) : Prop := c.startup = .started ∨ ∃ i, c.run = .playing i

/-- The end of the program is recorded, and told if it has to be. -/
def see (c : Custody) (e : Exit) : Custody :=
  { c with
    exit := some e, program := c.program.map Job.finish, seen := c.seen ++ [e]
    told := if c.isExpected e then c.told else c.told ++ [e]
    dumped := if c.isExpected e && !c.failed then c.dumped else c.dumped ++ [e.output] }

/-- One thing that happens to a custody. If it is `lax`, a program may be launched although somebody
asked to stop. -/
inductive Step (lax : Prop) : Custody → Custody → Prop
  | fails (c : Custody) (some : Bool) : Step lax c (c.fail some)
  | prepares {c : Custody} (s : Startup) : c.startup.phase = .preparing →
      s.phase = .preparing ∨ s.phase = .closed → Step lax c { c with startup := s }
  | clears {c : Custody} : c.startup.phase = .preparing → c.stopping = .no →
      Step lax c { c with startup := .checkedBuild }
  | launches {c : Custody} (line : CommandLine) (p : Job) (pause : Pause) :
      c.startup.phase = .cleared → c.stopping = .no ∨ lax →
      (p.ended = true → p.ending.isSome = true) →
      Step lax c { c with
        program := some p, running := true, startup := .grace pause
        launches := c.launches ++ [line] }
  | goesOn {c : Custody} (s : Startup) : c.startup.phase = .waiting →
      s.phase = .waiting ∨ s.phase = .ready → Step lax c { c with startup := s }
  | endsEarly {c : Custody} (e : Exit) (t : Thrown) : c.startup.phase = .waiting →
      c.exit = some e → Step lax c { c with running := false, startup := .failed t }
  | abandons {c : Custody} (t : Thrown) : c.startup.phase = .waiting →
      Step lax c { c with startup := .failed t }
  | givesUp {c : Custody} (s : Startup) : c.startup.phase = .waiting → c.stopping ≠ .no →
      s.phase = .closed → Step lax c { c with startup := s }
  | rests {c : Custody} (s : Startup) : c.startup.phase = .closed → s.phase = .closed →
      Step lax c { c with startup := s }
  | stops (c : Custody) (now force : ℕ) : Step lax c (c.stop now force)
  | sees {c : Custody} (p : Job) (e : Exit) : c.program = some p →
      c.exit = none ∨ p.ended = false → Step lax c (c.see e)
  | begins (c : Custody) (refused : Option Thrown) : Step lax c { c with run := .starting refused }
  | plays {c : Custody} (i : ℕ) : c.Plays → Step lax c { c with run := .playing i }
  | closes {c : Custody} (result : Except Thrown Unit) : c.Plays → c.stopping ≠ .no →
      Step lax c { c with run := .closing result }
  | aborts {c : Custody} (t : Thrown) : c.stopping ≠ .no → Step lax c { c with run := .aborting t }
  | finishes (c : Custody) (outcome : Except Thrown RunOutcome) :
      Step lax c { c with run := .finished outcome }

inductive Steps (lax : Prop) : Custody → Custody → Prop
  | refl (c : Custody) : Steps lax c c
  | step {c c' c'' : Custody} : Steps lax c c' → Step lax c' c'' → Steps lax c c''

namespace Steps

variable {lax : Prop} {c c' c'' : Custody}

theorem one (h : Step lax c c') : Steps lax c c' := .step (.refl c) h

theorem trans (h : Steps lax c c') (h' : Steps lax c' c'') : Steps lax c c'' := by
  induction h' with
  | refl => exact h
  | step _ step ih => exact .step ih step

end Steps

/-- What holds of a custody at all times. -/
structure Valid (c : Custody) : Prop where
  early : c.startup.phase = .preparing ∨ c.startup.phase = .cleared → c.program = none
  absent : c.program = none → c.running = false ∧ c.exit = none
  held : c.stopping = .no → c.startup.phase = .waiting ∨ c.startup.phase = .ready →
    c.running = true
  asked : c.killed = true → c.stopping ≠ .no
  launches : c.launches.length = if c.program.isSome then 1 else 0
  kills : c.kills.length = if c.killed then 1 else 0
  ended : ∀ e, c.exit = some e → ∃ p, c.program = some p ∧ p.ended = true
  seen : c.seen = c.exit.toList
  told : ∀ e, c.exit = some e → c.isExpected e = true ∨ e ∈ c.told ∧ e.output ∈ c.dumped
  playing : ∀ i, c.run = .playing i → c.startup = .started
  closing : ∀ result, c.run = .closing result → c.startup = .started ∧ c.stopping ≠ .no

variable {lax : Prop} {c c' c'' : Custody}

theorem Valid.started (h : c.Valid) (plays : c.Plays) : c.startup = .started := by
  obtain started | ⟨i, run⟩ := plays
  · exact started
  · exact h.playing i run

/-- No cases are played before the start has succeeded. -/
theorem Valid.silent (h : c.Valid) (unready : c.startup.phase ≠ .ready) :
    (∀ i, c.run ≠ .playing i) ∧ ∀ result, c.run ≠ .closing result := by
  have unstarted : c.startup ≠ .started := fun started => unready (by rw [started]; rfl)
  exact ⟨fun i run => unstarted (h.playing i run),
    fun result run => unstarted (h.closing result run).1⟩

/-- A move of the start that concerns nothing else. -/
theorem Valid.move (h : c.Valid) {s : Startup} (unready : c.startup.phase ≠ .ready)
    (early : s.phase = .preparing ∨ s.phase = .cleared → c.program = none)
    (held : c.stopping = .no → s.phase = .waiting ∨ s.phase = .ready → c.running = true) :
    ({ c with startup := s } : Custody).Valid :=
  { h with
    early := early
    held := held
    playing := fun i run => absurd run ((h.silent unready).1 i)
    closing := fun result run => absurd run ((h.silent unready).2 result) }

theorem Valid.unkilled (h : c.Valid) (unasked : c.stopping = .no) : c.killed = false := by
  cases killed : c.killed with
  | false => rfl
  | true => exact absurd unasked (h.asked killed)

theorem Valid.stop (h : c.Valid) (now force : ℕ) : (c.stop now force).Valid := by
  have asked : Stopping.asked c.program.isSome ≠ .no := by
    intro eq
    cases eq
  rw [Custody.stop]
  split
  · exact h
  · rename_i no
    split
    · rename_i running
      have unkilled := h.unkilled no
      refine ⟨?_, ?_, ?_, ?_, ?_, ?_, ?_, h.seen, ?_, h.playing, ?_⟩
      · intro early
        show c.program.map _ = none
        rw [h.early early, Option.map_none]
      · intro none
        obtain ⟨idle, -⟩ := h.absent (Option.map_eq_none_iff.1 none)
        rw [running] at idle
        cases idle
      · intro eq
        cases eq
      · exact fun _ => asked
      · show c.launches.length = if (c.program.map _).isSome then 1 else 0
        rw [h.launches, Option.isSome_map]
      · show (c.kills ++ [_]).length = _
        rw [List.length_append, h.kills, unkilled]
        rfl
      · intro e exit
        obtain ⟨p, some, ended⟩ := h.ended e exit
        refine ⟨p.kill now force, ?_, ?_⟩
        · show c.program.map _ = _
          rw [some, Option.map_some]
        · rw [Job.ended_kill, ended]
      · intro e exit
        rcases h.told e exit with expected | told
        · -- Before the kill only the code excuses an end, and it does so afterwards.
          refine .inl ?_
          rw [isExpected, unkilled, Bool.false_and, Bool.or_false] at expected
          rw [isExpected, expected, Bool.true_or]
        · exact .inr told
      · exact fun result run => ⟨(h.closing result run).1, asked⟩
    · refine { h with held := ?_, asked := ?_, closing := ?_ }
      · intro eq
        cases eq
      · exact fun _ => asked
      · exact fun result run => ⟨(h.closing result run).1, asked⟩

theorem Valid.unseen (h : c.Valid) {p : Job} (program : c.program = some p)
    (fresh : c.exit = none ∨ p.ended = false) : c.exit = none := by
  rcases fresh with none | going
  · exact none
  · cases exit : c.exit with
    | none => rfl
    | some e =>
      obtain ⟨q, same, ended⟩ := h.ended e exit
      rw [program, Option.some.injEq] at same
      rw [same, ended] at going
      cases going

theorem Valid.see (h : c.Valid) {p : Job} (program : c.program = some p) (none : c.exit = none)
    (e : Exit) : (c.see e).Valid := by
  have launched : ¬(c.startup.phase = .preparing ∨ c.startup.phase = .cleared) := by
    intro early
    rw [h.early early] at program
    cases program
  have program' : (c.see e).program = some p.finish := by rw [Custody.see, program, Option.map_some]
  refine ⟨fun early => absurd early launched, ?_, h.held, h.asked, ?_, h.kills, ?_, ?_, ?_,
    h.playing, h.closing⟩
  · intro absent
    rw [program'] at absent
    cases absent
  · show c.launches.length = _
    rw [h.launches, program', program]
    rfl
  · intro e' _
    exact ⟨p.finish, program', rfl⟩
  · show c.seen ++ [e] = [e]
    rw [h.seen, none]
    rfl
  · intro e' exit
    obtain rfl : e = e' := Option.some.inj exit
    cases expected : c.isExpected e with
    | true => exact .inl expected
    | false =>
      refine .inr ⟨?_, ?_⟩
      · simp [Custody.see, expected]
      · simp [Custody.see, expected]

theorem Valid.launch (h : c.Valid) (cleared : c.startup.phase = .cleared) (line : CommandLine)
    (p : Job) (pause : Pause) : ({ c with
      program := some p, running := true, startup := .grace pause
      launches := c.launches ++ [line] } : Custody).Valid := by
  have program := h.early (.inr cleared)
  have absent := h.absent program
  have silent := h.silent (by simp [cleared])
  refine ⟨?_, ?_, fun _ _ => rfl, h.asked, ?_, h.kills, ?_, h.seen, h.told,
    fun i run => absurd run (silent.1 i), fun result run => absurd run (silent.2 result)⟩
  · rintro (preparing | cleared)
    · cases preparing
    · cases cleared
  · intro none
    cases none
  · show (c.launches ++ [line]).length = 1
    rw [List.length_append, h.launches, program]
    rfl
  · intro e exit
    have exit : c.exit = some e := exit
    rw [absent.2] at exit
    cases exit

/-- A program that has ended while it was waited for is let go. -/
theorem Valid.letGo (h : c.Valid) (waiting : c.startup.phase = .waiting) (t : Thrown) :
    ({ c with running := false, startup := .failed t } : Custody).Valid := by
  have silent := h.silent (by simp [waiting])
  refine { h with
    early := ?_
    absent := fun none => ⟨rfl, (h.absent none).2⟩
    held := ?_
    playing := fun i run => absurd run (silent.1 i)
    closing := fun result run => absurd run (silent.2 result) }
  · rintro (preparing | cleared)
    · cases preparing
    · cases cleared
  · rintro - (waiting | ready)
    · cases waiting
    · cases ready

/-- A move of the run. -/
theorem Valid.rerun (h : c.Valid) {r : Run} (playing : ∀ i, r = .playing i → c.startup = .started)
    (closing : ∀ result, r = .closing result → c.startup = .started ∧ c.stopping ≠ .no) :
    ({ c with run := r } : Custody).Valid :=
  { h with playing := playing, closing := closing }

/-- One step keeps a custody valid. -/
theorem Step.valid (h : Step lax c c') (valid : c.Valid) : c'.Valid := by
  cases h with
  | fails some => exact { valid with }
  | prepares s preparing phase =>
    refine valid.move (by simp [preparing]) (fun _ => valid.early (.inl preparing)) ?_
    intro _ after
    rcases phase with phase | phase <;> simp [phase] at after
  | clears preparing no =>
    refine valid.move (by simp [preparing]) (fun _ => valid.early (.inl preparing)) ?_
    rintro - (waiting | ready)
    · cases waiting
    · cases ready
  | launches line p pause cleared _ _ => exact valid.launch cleared line p pause
  | goesOn s waiting phase =>
    refine valid.move (by simp [waiting]) ?_ fun no _ => valid.held no (.inl waiting)
    intro before
    rcases phase with phase | phase <;> simp [phase] at before
  | endsEarly e t waiting exit => exact valid.letGo waiting t
  | abandons t waiting =>
    exact valid.move (by simp [waiting]) (by simp [Startup.phase]) (by simp [Startup.phase])
  | givesUp s waiting asked phase =>
    refine valid.move (by simp [waiting]) ?_ fun no => absurd no asked
    intro before
    simp [phase] at before
  | rests s closed phase =>
    refine valid.move (by simp [closed]) ?_ ?_
    · intro before
      simp [phase] at before
    · intro _ after
      simp [phase] at after
  | stops now force => exact valid.stop now force
  | sees p e program fresh => exact valid.see program (valid.unseen program fresh) e
  | begins refused => exact valid.rerun (by simp) (by simp)
  | plays i plays => exact valid.rerun (fun _ _ => valid.started plays) (by simp)
  | closes result plays asked =>
    exact valid.rerun (by simp) fun _ _ => ⟨valid.started plays, asked⟩
  | aborts t asked => exact valid.rerun (by simp) (by simp)
  | finishes outcome => exact valid.rerun (by simp) (by simp)

theorem Steps.valid (h : Steps lax c c') (valid : c.Valid) : c'.Valid := by
  induction h with
  | refl => exact valid
  | step _ step ih => exact step.valid ih

/-- What never changes back. -/
structure Later (c c' : Custody) : Prop where
  codes : c'.codes = c.codes
  started : c.startup = .started → c'.startup = .started
  exit : ∀ e, c.exit = some e → c'.exit = some e
  killed : c.killed = true → c'.killed = true
  asked : ∀ w, c.stopping = .asked w → c'.stopping = .asked w
  told : ∀ e ∈ c.told, e ∈ c'.told
  seen : ∀ e ∈ c.seen, e ∈ c'.seen
  failed : c.failed = true → c'.failed = true
  program : ∀ p, c.program = some p → ∃ p', c'.program = some p' ∧
    p'.command = p.command ∧ p'.script = p.script ∧ (p.ended = true → p'.ended = true)

theorem Later.refl (c : Custody) : Later c c where
  codes := rfl
  started h := h
  exit _ h := h
  killed h := h
  asked _ h := h
  told _ h := h
  seen _ h := h
  failed h := h
  program p h := ⟨p, h, rfl, rfl, fun h => h⟩

theorem Later.trans (h : Later c c') (h' : Later c' c'') : Later c c'' where
  codes := h'.codes.trans h.codes
  started s := h'.started (h.started s)
  exit e he := h'.exit e (h.exit e he)
  killed k := h'.killed (h.killed k)
  asked w hw := h'.asked w (h.asked w hw)
  told e he := h'.told e (h.told e he)
  seen e he := h'.seen e (h.seen e he)
  failed f := h'.failed (h.failed f)
  program p hp := by
    obtain ⟨p', some, command, script, ended⟩ := h.program p hp
    obtain ⟨p'', some', command', script', ended'⟩ := h'.program p' some
    exact ⟨p'', some', command'.trans command, script'.trans script,
      fun h => ended' (ended h)⟩

theorem later_stop (c : Custody) (now force : ℕ) : Later c (c.stop now force) := by
  rw [Custody.stop]
  split
  · exact .refl c
  · rename_i no
    have unasked : ∀ w, c.stopping ≠ .asked w := fun w eq => by rw [no] at eq; cases eq
    split
    · refine { Later.refl c with
        killed := fun _ => rfl
        asked := fun w eq => absurd eq (unasked w)
        program := ?_ }
      intro p hp
      refine ⟨p.kill now force, ?_, ?_⟩
      · show c.program.map _ = _
        rw [hp, Option.map_some]
      · obtain ⟨ending, killed⟩ := p.exists_kill now force
        rw [killed]
        exact ⟨rfl, rfl, fun h => h⟩
    · exact { Later.refl c with asked := fun w eq => absurd eq (unasked w) }

/-- A move of a start that has not succeeded. -/
theorem Later.move {s : Startup} (unready : c.startup.phase ≠ .ready) :
    Later c { c with startup := s } :=
  { Later.refl c with started := fun started => absurd (by rw [started]; rfl) unready }

theorem Step.later (h : Step lax c c') (valid : c.Valid) : Later c c' := by
  cases h with
  | fails some =>
    exact { Later.refl c with failed := fun failed => by rw [fail, failed, Bool.true_or] }
  | prepares s preparing _ => exact .move (by simp [preparing])
  | clears preparing _ => exact .move (by simp [preparing])
  | launches line p pause cleared _ _ =>
    refine { Later.move (s := .grace pause) (by simp [cleared]) with program := ?_ }
    intro q some
    rw [valid.early (.inr cleared)] at some
    cases some
  | goesOn s waiting _ => exact .move (by simp [waiting])
  | endsEarly e t waiting _ =>
    exact { Later.move (s := .failed t) (by simp [waiting]) with }
  | abandons t waiting => exact .move (by simp [waiting])
  | givesUp s waiting _ _ => exact .move (by simp [waiting])
  | rests s closed _ => exact .move (by simp [closed])
  | stops now force => exact later_stop c now force
  | sees p e program fresh =>
    have none := valid.unseen program fresh
    refine { Later.refl c with exit := ?_, told := ?_, seen := ?_, program := ?_ }
    · intro e' exit
      rw [none] at exit
      cases exit
    · intro e' mem
      rw [see]
      split
      · exact mem
      · exact List.mem_append_left _ mem
    · exact fun e' mem => List.mem_append_left _ mem
    · intro q some
      refine ⟨q.finish, ?_, rfl, rfl, fun _ => rfl⟩
      rw [see, some, Option.map_some]
  | begins refused => exact { Later.refl c with }
  | plays i _ => exact { Later.refl c with }
  | closes result _ _ => exact { Later.refl c with }
  | aborts t _ => exact { Later.refl c with }
  | finishes outcome => exact { Later.refl c with }

theorem Steps.later (h : Steps lax c c') (valid : c.Valid) : Later c c' := by
  induction h with
  | refl => exact .refl c
  | step steps step ih => exact ih.trans (step.later (steps.valid valid))

end Custody

end FilterBench
