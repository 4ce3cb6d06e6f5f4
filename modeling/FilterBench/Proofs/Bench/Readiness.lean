import FilterBench.Proofs.Bench.Proceeding

/-!
# What a start that has succeeded guarantees

However a start is hindered, it succeeds only when nobody has asked to stop meanwhile, and then it
has gone the way of an unhindered start to its very end: the program was launched once, after the
build, and its end is not known; and a probe of the port that was started after the grace period has
connected in time (`ready_of_started`). So the program goes on, unless it is gone and only its output is
still held open: its end is not known as long as that lasts (`gone_program_started`).
-/
namespace FilterBench.Bench

variable {b₀ b : Bench} {l : ℕ}

/-- The grace period takes the time that it is set to, unless that is too long for a timer. -/
theorem le_graceEnd (b : Bench) (l : ℕ) (short : b.settings.startupGrace ≤ Timers.longest) :
    l + b.settings.startupGrace ≤ b.graceEnd l :=
  Nat.add_le_add_left (b.timers.le_delay short) l

/-- A program whose end is not known goes on, unless somebody holds its output open. -/
theorem Lasts.alive (h : Lasts b₀ b l) (unheld : (b₀.programAt l).held = 0) :
    (b₀.programAt l).alive b.now = true := by
  rw [Job.alive, h.unended, Bool.not_false, Bool.true_and]
  cases ending : (b₀.programAt l).ending with
  | none => rfl
  | some own =>
    have later := h.ahead _ own.2 (Job.report?_of_ending ending)
    rw [unheld, Nat.add_zero] at later
    exact decide_eq_true later

/-- At the moment at which a start succeeds the end of the program that was launched is not known and
the program is held, nobody has asked to stop, and a probe has connected after the grace period and
before the deadline. The grace period was no shorter than it is set to be, unless that is too long for
a timer, and the program goes on, unless it has ended before and its output is still held open. -/
theorem ready_of_started (unbegun : b₀.Unbegun) (onset : Onset True b₀ b)
    (started : b.startup = .started) :
    ∃ l, Ready b₀ b l ∧
      (b₀.settings.startupGrace ≤ Timers.longest →
        l + b₀.settings.startupGrace ≤ b₀.graceEnd l) ∧
      ((b₀.programAt l).held = 0 → (b₀.programAt l).alive b.now = true) := by
  have fresh := unbegun.toFresh
  have unasked : b.stopping = .no := onset.prompt fresh (by rw [started]; trivial)
  have unhindered : Onset False b₀ b := onset.unhindered fresh unasked
  have verdict := (unhindered.proceeds unbegun).verdict (.inl started)
  rw [started] at verdict
  cases verdict with
  | ready ready => exact ⟨_, ready, b₀.le_graceEnd _, ready.alive⟩

/-- A program whose port opens some time after the grace period. -/
def slowBench : Bench where
  settings := { startupGrace := 10 }
  world :=
    { builder := some {}, port := FilterPort.script { openAt := some 150 } 7044
      jobs := [{ onKill := some (20, { signal := some (some "SIGTERM") }) }] }

theorem slowBench_unbegun : slowBench.Unbegun where
  toFresh := ⟨rfl, rfl, rfl, rfl, rfl, rfl, rfl, rfl, rfl, rfl⟩
  deadline := rfl
  ports := rfl

theorem ready_of_started_slow :
    ∃ b l, Onset True slowBench b ∧ b.now = 210 ∧ Ready slowBench b l ∧
      (slowBench.programAt l).alive b.now = true := by
  have onset : Onset True slowBench (runStart 20 slowBench.begun) :=
    onset_runStart (.calls (start_of_fresh slowBench_unbegun.toFresh)) 20
  have started : (runStart 20 slowBench.begun).startup = .started := by
    decide +kernel
  obtain ⟨l, ready, -, alive⟩ := ready_of_started slowBench_unbegun onset started
  exact ⟨_, l, onset, by decide +kernel, ready, alive rfl⟩

/-- A program that asks to be left out as soon as it runs, while a child of it holds its output open. -/
def orphanBench : Bench where
  settings := { startupGrace := 10 }
  world :=
    { builder := some {}, port := FilterPort.script { openAt := some 0 } 7044
      jobs := [{ exitAfter := some 5, result := { code := some 99 }, held := 60000 }] }

theorem orphanBench_unbegun : orphanBench.Unbegun where
  toFresh := ⟨rfl, rfl, rfl, rfl, rfl, rfl, rfl, rfl, rfl, rfl⟩
  deadline := rfl
  ports := rfl

/-- A program that ends within its grace period, which is too long for a timer. -/
def hurriedBench : Bench where
  settings := { startupGrace := 2147483648 }
  world :=
    { builder := some {}, port := FilterPort.script { openAt := some 0 } 7044
      jobs := [{ exitAfter := some 5 }] }

theorem hurriedBench_unbegun : hurriedBench.Unbegun where
  toFresh := ⟨rfl, rfl, rfl, rfl, rfl, rfl, rfl, rfl, rfl, rfl⟩
  deadline := rfl
  ports := rfl

/-- A start succeeds although its program is gone by the end of the grace period, or before the grace
period that it is set to have is over. -/
theorem gone_program_started :
    (orphanBench.Unbegun ∧ ∃ b, Onset True orphanBench b ∧ b.startup = .started ∧
        b.launched.map (·.1) = [0] ∧ (orphanBench.programAt 0).alive (orphanBench.graceEnd 0) = false) ∧
      hurriedBench.Unbegun ∧ ∃ b, Onset True hurriedBench b ∧ b.startup = .started ∧
        b.launched.map (·.1) = [0] ∧
        (hurriedBench.programAt 0).alive hurriedBench.settings.startupGrace = false := by
  refine ⟨⟨orphanBench_unbegun, runStart 20 orphanBench.begun, ?_, ?_, ?_, ?_⟩,
    hurriedBench_unbegun, runStart 20 hurriedBench.begun, ?_, ?_, ?_, ?_⟩
  · exact onset_runStart (.calls (start_of_fresh orphanBench_unbegun.toFresh)) 20
  · decide +kernel
  · decide +kernel
  · decide +kernel
  · exact onset_runStart (.calls (start_of_fresh hurriedBench_unbegun.toFresh)) 20
  · decide +kernel
  · decide +kernel
  · decide +kernel

end FilterBench.Bench
