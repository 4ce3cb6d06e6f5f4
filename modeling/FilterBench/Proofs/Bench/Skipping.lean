import FilterBench.Proofs.Bench.Proceeding

/-!
# Which starts are skipped

A start is skipped when its program has ended with the skip code before any probe of its port had
connected. How the program came to its end makes no difference: the code is only looked at when the
end was recorded, and a start that gives up the wait for the port stops the program before it looks
(`skipped_iff`). So a program that is alive when the time for its port is over, and that leaves with
the skip code because it is killed, makes a skip of what would be a failure to become ready
(`killed_program_skips`).
-/
namespace FilterBench.Bench

variable {b₀ b : Bench}

/-- The start has failed as a skip. -/
def Skips (b : Bench) : Prop := ∃ t, b.startup = .failed t ∧ t.isSkip = true

/-- The program has ended with the skip code, by itself or because it was killed when the time for
its port was over, before any probe had connected. -/
def Declines (b₀ b : Bench) : Prop :=
  ∃ l e, e.code = some b.settings.exitCodes.skip ∧ ¬b.Connects ∧
    (Ended b₀ b l e ∨ Killed b₀ b l e)

instance (b : Bench) : Decidable b.Skips :=
  decidable_of_iff ((match b.startup with
    | .failed t => t.isSkip
    | _ => false) = true) (by
    unfold Skips
    cases b.startup <;> simp)

theorem Declines.code (h : Declines b₀ b) :
    b.exit.bind (·.code) = some b.settings.exitCodes.skip := by
  obtain ⟨l, e, code, -, ended | killed⟩ := h
  · rw [ended.seen, Option.bind_some, code]
  · rw [killed.seen, Option.bind_some, code]

theorem Declines.settles (h : Declines b₀ b) : b₀.Settles := by
  obtain ⟨l, e, -, -, ended | killed⟩ := h
  · exact .inr (by rw [ended.built]; rfl)
  · exact .inr (by rw [killed.built]; rfl)

theorem skips_iff_of_failed {t : Thrown} (failed : b.startup = .failed t) :
    b.Skips ↔ t.isSkip = true := by
  constructor
  · rintro ⟨t', failed', skip⟩
    cases failed.symm.trans failed'
    exact skip
  · exact fun skip => ⟨t, failed, skip⟩

theorem isSkip_ite {c : Prop} [Decidable c] {t : Thrown} (fault : t.isSkip = false) :
    (if c then b.skipped else t).isSkip = true ↔ c := by
  split
  · rename_i holds
    exact iff_of_true rfl holds
  · rename_i fails
    simp [fault, fails]

/-- A start that is over has looked at the exit code, wherever there is one. -/
theorem Verdict.skips_iff {s : Startup} (h : Verdict b₀ b s) (startup : b.startup = s) :
    b.Skips ↔ b.exit.bind (·.code) = some b.settings.exitCodes.skip := by
  cases h with
  | unmade _ unlaunched =>
    rw [skips_iff_of_failed startup, unlaunched.unseen]
    exact iff_of_false Bool.false_ne_true (by simp)
  | unbuilt ends unlaunched =>
    rw [skips_iff_of_failed startup, unlaunched.unseen, isSkip_of_buildEnd ends]
    exact iff_of_false Bool.false_ne_true (by simp)
  | endedEarly ended =>
    rw [skips_iff_of_failed startup, ended.seen, isSkip_ite rfl]
    rfl
  | endedLate => rw [skips_iff_of_failed startup, judgeGivenUp, isSkip_ite rfl]
  | killed => rw [skips_iff_of_failed startup, judgeGivenUp, isSkip_ite rfl]
  | refused lasts =>
    rw [skips_iff_of_failed startup, lasts.unseen]
    exact iff_of_false Bool.false_ne_true (by simp)
  | ready ready =>
    rw [ready.unseen]
    refine iff_of_false ?_ (by simp)
    rintro ⟨t, failed, -⟩
    cases startup.symm.trans failed

theorem Verdict.declines {s : Startup} (h : Verdict b₀ b s)
    (code : b.exit.bind (·.code) = some b.settings.exitCodes.skip) : Declines b₀ b := by
  cases h with
  | unmade _ unlaunched =>
    rw [unlaunched.unseen] at code
    cases code
  | unbuilt _ unlaunched =>
    rw [unlaunched.unseen] at code
    cases code
  | @endedEarly l e ended _ unprobed _ =>
    rw [ended.seen] at code
    have unconnected : ¬b.Connects := by
      rw [Connects, unprobed]
      simp
    exact ⟨l, e, code, unconnected, .inl ended⟩
  | @endedLate l e x ended _ _ unconnected _ =>
    rw [ended.seen] at code
    exact ⟨l, e, code, unconnected, .inl ended⟩
  | @killed l e x killed unconnected _ =>
    rw [killed.seen] at code
    exact ⟨l, e, code, unconnected, .inr killed⟩
  | refused lasts =>
    rw [lasts.unseen] at code
    cases code
  | ready ready =>
    rw [ready.unseen] at code
    cases code

/-- A start that nobody hinders is skipped only after the program has declined, and is bound to be
skipped once it has. -/
theorem skipped_iff (unbegun : b₀.Unbegun) (onset : Onset False b₀ b) :
    (b.Skips → Declines b₀ b) ∧ (Declines b₀ b → Inevitably Skips b) := by
  have fresh := unbegun.toFresh
  have proceeds := onset.proceeds unbegun
  constructor
  · intro skips
    obtain ⟨t, failed, -⟩ := id skips
    have verdict := proceeds.verdict (.inr ⟨t, failed⟩)
    exact verdict.declines ((verdict.skips_iff rfl).1 skips)
  · intro declines
    have valid := (onset.course fresh).custody.valid fresh.valid
    have ends := proceeds.inevitable declines.settles (onset.quiet fresh)
    -- The end that was recorded stays so until the start is over.
    have kept := ends.keeps (Q := fun c => c.custody.Valid ∧ b.custody.Later c.custody)
      (fun c c' holds tick => by
        have steps := (Course.one tick.move.step).custody
        exact ⟨steps.valid holds.1, holds.2.trans (steps.later holds.1)⟩)
      ⟨valid, .refl _⟩
    refine kept.mono fun c reached => ?_
    obtain ⟨⟨atEnd, proceeds⟩, -, later⟩ := reached
    rw [(proceeds.verdict atEnd).skips_iff rfl]
    obtain ⟨e, seen, code⟩ := Option.bind_eq_some_iff.1 declines.code
    have seen' : c.exit = some e := later.exit e seen
    have codes : c.settings.exitCodes = b.settings.exitCodes := later.codes
    rw [seen', codes]
    exact code

/-- A program that asks to be left out as soon as it runs. -/
def shyBench : Bench where
  settings := { startupGrace := 10 }
  world :=
    { builder := some {}
      jobs := [{ exitAfter := some 5, result := { code := some 99 } }] }

theorem shyBench_unbegun : shyBench.Unbegun where
  toFresh := ⟨rfl, rfl, rfl, rfl, rfl, rfl, rfl, rfl, rfl, rfl⟩
  deadline := rfl
  ports := rfl

theorem skipped_iff_shy :
    ∃ b, Onset False shyBench b ∧ b.Skips ∧ Declines shyBench b ∧ Inevitably Skips b := by
  have onset : Onset False shyBench (runStart 20 shyBench.begun) :=
    onset_runStart (.calls (start_of_fresh shyBench_unbegun.toFresh)) 20
  have skips : (runStart 20 shyBench.begun).Skips := by decide +kernel
  obtain ⟨declines, inevitable⟩ := skipped_iff shyBench_unbegun onset
  exact ⟨_, onset, skips, declines skips, inevitable (declines skips)⟩

/-- A program that never ends by itself and does not open its port; on the signal of the stop it
leaves with the skip code. -/
def staleBench : Bench where
  settings := { startupGrace := 10, readinessTimeout := 50 }
  world :=
    { builder := some {}
      port := FilterPort.script {} 7044
      jobs := [{ onKill := some (20, { code := some 99 }) }] }

theorem staleBench_unbegun : staleBench.Unbegun where
  toFresh := ⟨rfl, rfl, rfl, rfl, rfl, rfl, rfl, rfl, rfl, rfl⟩
  deadline := rfl
  ports := rfl

/-- The start of a program that ends only because it is killed, and whose port never accepts a
connection, is skipped. -/
theorem killed_program_skips :
    staleBench.Unbegun ∧
      (∀ n time after, staleBench.world.port n time ≠ .settles after none) ∧
      (∀ launch, (staleBench.programAt launch).ended = false ∧
        (staleBench.programAt launch).ending = none) ∧
      ∃ b, Onset False staleBench b ∧ b.launched.length = 1 ∧ b.Skips := by
  refine ⟨staleBench_unbegun, fun _ _ _ => nofun, fun _ => ⟨rfl, rfl⟩, runStart 20 staleBench.begun,
    ?_, ?_, ?_⟩
  · exact onset_runStart (.calls (start_of_fresh staleBench_unbegun.toFresh)) 20
  · decide +kernel
  · decide +kernel

end FilterBench.Bench
