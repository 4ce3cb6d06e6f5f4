import FilterBench.Proofs.Bench.Proceeding

/-!
# How long a start takes and what it leaves

If the build ends, a start that nobody hinders is bound to be over, and after its program was launched
it takes no longer than the grace period, the wait for the port and the time that a killed program
may take, all together, and as long as the output of the program is held open (`start_bounded`). When
it fails its program has ended and this was recorded, unless no deadline can be set that is as far
ahead as the wait for the port may take: then the start fails for that, and the program is left running
(`huge_wait_abandoned`). Nothing is launched by a further start, neither meanwhile nor at any time later.
-/
namespace FilterBench

namespace Custody

variable {lax : Prop} {c c' : Custody}

theorem Step.launches_of_decided (h : Step lax c c') (decided : c.Decided) :
    c'.launches = c.launches := by
  cases h with
  | launches line p finish cleared => simpa using decided.not cleared
  | stops now force =>
    rw [Custody.stop]
    split
    · rfl
    · split <;> rfl
  | _ => rfl

/-- Nothing is launched once a start was decided. -/
theorem Steps.launches_of_decided (h : Steps lax c c') (decided : c.Decided) :
    c'.launches = c.launches := by
  induction h with
  | refl => rfl
  | step steps step ih => exact (step.launches_of_decided (steps.decided decided)).trans ih

end Custody

namespace Bench

variable {b₀ b b₁ b' : Bench} {l : ℕ} {e : Exit}

/-- The bench holds no program, and no program that was launched goes on unrecorded. -/
structure Cleared (b : Bench) : Prop where
  released : b.running = false
  known : b.launched.length = if b.program.isSome then 1 else 0
  ended : ∀ p, b.program = some p → p.ended = true ∧ b.exit.isSome = true

/-- A start is refused as one that comes too late. -/
def Refuses (b : Bench) : Prop := ∃ f, b.start = .error (.fault f) ∧ f.code = .launchFailed

theorem refuses_of_begun (begun : b.startup ≠ .idle) : b.Refuses := by
  have refused : b.start = .error b.alreadyUsed := by
    unfold start
    split
    · rename_i idle _
      exact absurd idle begun
    · rfl
  exact ⟨_, refused, rfl⟩

theorem Proceeds.begun (h : Proceeds b₀ b) : b.startup ≠ .idle := by
  intro idle
  have stage := h.stage
  rw [idle] at stage
  cases stage with
  | waits waits => cases waits
  | judged verdict => cases verdict

theorem StartOver.begun (ended : b.StartOver) (h : Course b b') : b'.startup ≠ .idle := by
  intro idle
  rcases h.custody.decided ended.decided with ready | closed
  · simp [custody, idle, Startup.phase] at ready
  · simp [custody, idle, Startup.phase] at closed

theorem Unlaunched.cleared (h : b.Unlaunched) : b.Cleared := by
  refine ⟨h.released, ?_, ?_⟩
  · rw [h.launched, h.program]
    rfl
  · intro p program
    cases h.program.symm.trans program

theorem Launched.cleared {j : Job} (h : Launched b₀ b l) (program : b.program = some j.finish)
    (seen : b.exit = some e) (released : b.running = false) : b.Cleared := by
  refine ⟨released, ?_, ?_⟩
  · rw [h.launched, program]
    rfl
  · intro p same
    cases program.symm.trans same
    rw [seen]
    exact ⟨rfl, rfl⟩

/-- The start has failed because no deadline can be set for the wait for the port, and the program is
left running. -/
def Abandons (b₀ b : Bench) (t : Thrown) : Prop :=
  ∃ l x, Lasts b₀ b l ∧ b₀.timers.refusal? b₀.settings.readinessTimeout = some x ∧ t = .other x

theorem Verdict.cleared {t : Thrown} (h : Verdict b₀ b (.failed t)) :
    b.Cleared ∨ Abandons b₀ b t := by
  cases h with
  | unmade _ unlaunched => exact .inl unlaunched.cleared
  | unbuilt _ unlaunched => exact .inl unlaunched.cleared
  | endedEarly ended _ _ released => exact .inl (ended.cleared ended.program ended.seen released)
  | endedLate ended _ _ _ released => exact .inl (ended.cleared ended.program ended.seen released)
  | killed killed _ released => exact .inl (killed.cleared killed.program killed.seen released)
  | refused lasts _ refused => exact .inr ⟨_, _, lasts, refused, rfl⟩

/-- The latest moment at which a start is over whose program was launched at a time. -/
def startLimit (b : Bench) (launch : ℕ) : ℕ :=
  b.readinessEnd launch + b.killDelay + (b.programAt launch).held

/-- No wait takes longer than it is set to, unless it is set to no time at all. -/
theorem startLimit_le (b : Bench) (launch : ℕ) (grace : 0 < b.settings.startupGrace)
    (readiness : 0 < b.settings.readinessTimeout) (kill : 0 < b.settings.killTimeout) :
    b.startLimit launch ≤ launch + b.settings.startupGrace + b.settings.readinessTimeout +
      b.settings.killTimeout + (b.programAt launch).held := by
  have grace := b.timers.delay_le grace
  have readiness := b.timers.delay_le readiness
  have kill := b.timers.delay_le kill
  rw [startLimit, readinessEnd, graceEnd, killDelay]
  omega

theorem Launched.bounded (h : Launched b₀ b l) (soon : b.now ≤ b₀.startLimit l) :
    ∀ d ∈ b.launched, b.now ≤ b₀.startLimit d.1 := by
  intro d mem
  rw [h.launched] at mem
  obtain rfl := List.mem_singleton.1 mem
  exact soon

theorem Verdict.bounded {s : Startup} (h : Verdict b₀ b s) :
    ∀ d ∈ b.launched, b.now ≤ b₀.startLimit d.1 := by
  have unlaunched : b.Unlaunched → ∀ d ∈ b.launched, b.now ≤ b₀.startLimit d.1 := by
    intro unlaunched d mem
    rw [unlaunched.launched] at mem
    cases mem
  have late : ∀ l, b.now ≤ b₀.readinessEnd l → b.now ≤ b₀.startLimit l := by
    intro l within
    rw [startLimit]
    omega
  have early : ∀ l, b.now ≤ b₀.graceEnd l → b.now ≤ b₀.startLimit l :=
    fun l within => late l (Nat.le_add_right_of_le within)
  cases h with
  | unmade _ none => exact unlaunched none
  | unbuilt _ none => exact unlaunched none
  | endedEarly ended within => exact ended.bounded (early _ within)
  | endedLate ended _ within => exact ended.bounded (late _ within)
  | killed killed => exact killed.bounded (Job.report?_kill killed.outlived.1 killed.ending)
  | refused lasts atEnd _ => exact lasts.bounded (early _ (Nat.le_of_eq atEnd))
  | ready ready => exact ready.bounded (late _ ready.within)

/-- A start that nobody hinders is bound to be over in time, which is no more than what its waits are set
to and what its program takes to let go of its output; a failed start has left nothing unless it has
abandoned its program because no deadline could be set for the wait for the port; and a further start is
refused, during it and ever after. -/
theorem start_bounded (unbegun : b₀.Unbegun) (settles : b₀.Settles) (started : b₀.start = .ok b₁) :
    Inevitably (fun b => b.StartOver ∧ ∀ d ∈ b.launched, b.now ≤ b₀.startLimit d.1) b₁ ∧
    (0 < b₀.settings.startupGrace → 0 < b₀.settings.readinessTimeout → 0 < b₀.settings.killTimeout →
      ∀ launch, b₀.startLimit launch ≤ launch + b₀.settings.startupGrace +
        b₀.settings.readinessTimeout + b₀.settings.killTimeout + (b₀.programAt launch).held) ∧
    ∀ b, Onset False b₀ b →
      (∀ t, b.startup = .failed t → b.Cleared ∨ Abandons b₀ b t) ∧ b.Refuses ∧
      (b.StartOver → ∀ b', Course b b' → b'.Refuses ∧ b'.launches = b.launches) := by
  have fresh := unbegun.toFresh
  have begins : Onset False b₀ b₁ := .calls started
  refine ⟨?_, fun grace readiness kill launch => b₀.startLimit_le launch grace readiness kill, ?_⟩
  · have ends := (begins.proceeds unbegun).inevitable settles (begins.quiet fresh)
    exact ends.mono fun b reached => ⟨reached.1, (reached.2.verdict reached.1).bounded⟩
  · intro b onset
    have proceeds := onset.proceeds unbegun
    refine ⟨?_, refuses_of_begun proceeds.begun, ?_⟩
    · intro t failed
      have verdict := proceeds.verdict (.inr ⟨t, failed⟩)
      rw [failed] at verdict
      exact verdict.cleared
    · intro ended b' later
      constructor
      · exact refuses_of_begun (ended.begun later)
      · exact later.custody.launches_of_decided ended.decided

/-- A program that heeds no signal, and whose port leaves every probe without an answer. -/
def stubbornBench : Bench where
  settings := { startupGrace := 10, readinessTimeout := 50, killTimeout := 30 }
  world :=
    { builder := some { ms := 5 }, port := FilterPort.script { silent := true } 7044, jobs := [{}] }

theorem stubbornBench_unbegun : stubbornBench.Unbegun where
  toFresh := ⟨rfl, rfl, rfl, rfl, rfl, rfl, rfl, rfl, rfl, rfl⟩
  deadline := rfl
  ports := rfl

/-- It takes all the time there is. -/
theorem start_bounded_stubborn :
    stubbornBench.Unbegun ∧ stubbornBench.Settles ∧
      Inevitably (fun b => b.StartOver ∧
        ∀ d ∈ b.launched, b.now ≤ stubbornBench.startLimit d.1) stubbornBench.begun ∧
      ∃ b, Onset False stubbornBench b ∧ (∃ t, b.startup = .failed t) ∧
        b.now = stubbornBench.startLimit 5 ∧ b.Cleared ∧ b.Refuses := by
  have started := start_of_fresh stubbornBench_unbegun.toFresh
  have settles : stubbornBench.Settles := .inr rfl
  obtain ⟨inevitable, -, after⟩ := start_bounded stubbornBench_unbegun settles started
  have onset : Onset False stubbornBench (runStart 20 stubbornBench.begun) :=
    onset_runStart (.calls started) 20
  have ended : (runStart 20 stubbornBench.begun).StartOver := by decide +kernel
  have unready : (runStart 20 stubbornBench.begun).startup ≠ .started := by decide +kernel
  have late : (runStart 20 stubbornBench.begun).now = stubbornBench.startLimit 5 := by
    decide +kernel
  obtain ⟨t, failed⟩ := ended.resolve_left unready
  obtain ⟨left, refuses, -⟩ := after _ onset
  have cleared : (runStart 20 stubbornBench.begun).Cleared := by
    apply (left t failed).resolve_right
    rintro ⟨l, x, -, refused, -⟩
    cases refused
  exact ⟨stubbornBench_unbegun, settles, inevitable, _, onset, ⟨t, failed⟩, late, cleared, refuses⟩

/-- The port may take longer to open than a deadline can be ahead. -/
def patientBench : Bench where
  settings := { startupGrace := 10, readinessTimeout := 4294967296 }
  world := { builder := some {}, port := FilterPort.script { openAt := some 0 } 7044, jobs := [{}] }

theorem patientBench_unbegun : patientBench.Unbegun where
  toFresh := ⟨rfl, rfl, rfl, rfl, rfl, rfl, rfl, rfl, rfl, rfl⟩
  deadline := rfl
  ports := rfl

/-- The start fails at the end of the grace period, and the program is left running. -/
theorem huge_wait_abandoned :
    patientBench.Unbegun ∧ patientBench.Settles ∧ ∃ b, Onset False patientBench b ∧
      b.startup = .failed (.other
        { kind := "RangeError", code := some "ERR_OUT_OF_RANGE"
          message := "The value of \"delay\" is out of range. It must be >= 0 && <= 4294967295. " ++
            "Received " ++ "4294967296" }) ∧
      b.running = true ∧ b.exit = none ∧ b.program.any (Job.alive · b.now) = true ∧ ¬b.Cleared := by
  have excess : Timers.excess 4294967296 = "4294967296" := by decide +kernel
  refine ⟨patientBench_unbegun, .inr rfl, runStart 20 patientBench.begun, ?_, ?_, ?_, ?_, ?_, ?_⟩
  · exact onset_runStart (.calls (start_of_fresh patientBench_unbegun.toFresh)) 20
  · rw [← excess]
    rfl
  · decide +kernel
  · decide +kernel
  · decide +kernel
  · intro cleared
    cases cleared.released.symm.trans (show _ = true by decide +kernel)

end Bench

end FilterBench
