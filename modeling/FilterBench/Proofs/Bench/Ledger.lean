import FilterBench.Proofs.Bench.Course

/-!
# The ledger of a bench

A `Ledger` is what a bench keeps of its cases: how they stand, which sessions were played, and the
mail servers that are left. What is done with the test program, and what happens to it, leaves the
ledger, the run and its session as they are (`Bench.Aside`), and nobody asks to stop meanwhile but a
start that gives up.
-/
namespace FilterBench

/-- An SMTP connection that was opened. -/
def Deed.connection? : Deed → Option (String × ℕ)
  | .connected host port => some (host, port)
  | _ => none

structure Ledger where
  path : String
  settings : Settings
  timers : Timers
  server : MailServer
  peers : List Peer
  standing : Standing
  serverFailed : Bool
  reports : List SessionReport
  /-- Where the connections were opened, in their order. -/
  connections : List (String × ℕ)

namespace Bench

def ledger (b : Bench) : Ledger where
  path := b.path
  settings := b.settings
  timers := b.timers
  server := b.server
  peers := b.world.peers
  standing := b.standing
  serverFailed := b.serverFailed
  reports := b.reports
  connections := b.history.filterMap fun d => d.2.connection?

variable {b b' b'' : Bench}

theorem ledger_did {d : Deed} (other : d.connection? = none) : (b.did d).ledger = b.ledger := by
  simp [ledger, did, other]

/-- Something that concerns no case and no session. -/
structure Aside (b b' : Bench) : Prop where
  ledger : b'.ledger = b.ledger
  run : b'.run = b.run
  session : b'.session = b.session
  stopping : b'.stopping = b.stopping ∨ b'.startup.phase = .closed

theorem Aside.refl (b : Bench) : b.Aside b := ⟨rfl, rfl, rfl, .inl rfl⟩

theorem Aside.trans (h : b.Aside b') (same : b'.stopping = b.stopping) (h' : b'.Aside b'') :
    b.Aside b'' := by
  constructor
  · exact h'.ledger.trans h.ledger
  · exact h'.run.trans h.run
  · exact h'.session.trans h.session
  · rw [← same]
    exact h'.stopping

/-- A move of the start. -/
theorem aside_startup (b : Bench) (s : Startup) : b.Aside { b with startup := s } :=
  ⟨rfl, rfl, rfl, .inl rfl⟩

theorem aside_proceedTo (b : Bench) (next : Startup) : b.Aside (b.proceedTo next) := by
  unfold proceedTo
  split
  · exact aside_startup b next
  · exact aside_startup b .halting

theorem aside_finishBuild (b : Bench) (result : Except Thrown Unit) :
    b.Aside (b.finishBuild result) := by
  unfold finishBuild
  split
  · exact aside_startup b _
  · exact aside_proceedTo b _

theorem aside_nextJob (b : Bench) (line : CommandLine) : b.Aside (b.nextJob line).1 := by
  constructor
  · exact ledger_did rfl
  · rfl
  · rfl
  · exact .inl rfl

theorem aside_beginBuild (b : Bench) : b.Aside b.beginBuild := by
  unfold beginBuild
  split
  · refine ⟨?_, rfl, rfl, .inl rfl⟩
    exact ledger_did rfl
  · have ran := aside_nextJob b (Build.command b.settings.build b.path b.executable)
    simp only []
    split
    · exact ran.trans rfl (aside_startup _ _)
    · exact ran.trans rfl (aside_startup _ _)
    · exact ran.trans rfl (aside_startup _ _)

theorem aside_launch (b : Bench) : b.Aside b.launch := by
  have ran := aside_nextJob b { program := b.executable, arguments := b.programArguments }
  exact ⟨ran.ledger, ran.run, ran.session, .inl rfl⟩

/-- At the end of the grace period the program may be let go, or the wait for its port begins. -/
theorem exists_judgeGrace (b : Bench) : ∃ startup running deadline ports, b.judgeGrace =
    { b with startup := startup, running := running, deadline := deadline, ports := ports } := by
  unfold judgeGrace
  split
  · exact ⟨_, _, _, _, rfl⟩
  · split <;> exact ⟨_, _, _, _, rfl⟩

theorem aside_judgeGrace (b : Bench) : b.Aside b.judgeGrace := by
  obtain ⟨_, _, _, _, judged⟩ := exists_judgeGrace b
  rw [judged]
  exact ⟨rfl, rfl, rfl, .inl rfl⟩

theorem aside_finishWait (b : Bench) : b.Aside b.finishWait := by
  unfold finishWait
  split
  · exact aside_proceedTo b _
  · exact aside_proceedTo b _
  · exact .refl b

theorem aside_abortWait (b : Bench) (reason : AbortReason) : b.Aside (b.abortWait reason) := by
  unfold abortWait
  split
  · have moved : b.Aside { b with ports := b.ports.map (PortWait.abort · b.now reason) } :=
      ⟨rfl, rfl, rfl, .inl rfl⟩
    exact moved.trans rfl (aside_finishWait _)
  · exact .refl b

theorem aside_noteExit (b : Bench) (e : Exit) :
    b.Aside (b.noteExit e) ∧ (b.noteExit e).stopping = b.stopping := by
  have seen : ({ b with exit := some e, program := b.program.map Job.finish }.did
      (.sawExit e)).ledger = b.ledger := ledger_did rfl
  unfold noteExit
  simp only []
  split <;> split <;> exact ⟨⟨seen, rfl, rfl, .inl rfl⟩, rfl⟩

theorem aside_recordExit (b : Bench) (e : Exit) : b.Aside (b.recordExit e) := by
  obtain ⟨noted, same⟩ := aside_noteExit b e
  rw [recordExit_eq]
  split
  · exact noted.trans same (aside_proceedTo _ _)
  · exact noted.trans same (aside_abortWait _ _)

/-- A stop changes neither the ledger nor the run. -/
theorem stop_aside (b : Bench) :
    b.stop.ledger = b.ledger ∧ b.stop.run = b.run ∧ b.stop.session = b.session := by
  unfold stop
  split
  · exact ⟨rfl, rfl, rfl⟩
  · split
    · have killed := ledger_did (b := { b with
          running := false, killed := true
          program := b.program.map (Job.kill · b.now b.killDelay) })
        (d := .killed "SIGTERM" b.settings.killTimeout (b.program.any (Job.alive · b.now))) rfl
      exact ⟨killed, rfl, rfl⟩
    · exact ⟨rfl, rfl, rfl⟩

theorem aside_resumeStart (h : b.resumeStart? = some b') : b.Aside b' := by
  cases StartMove.of_resume h with
  | unmade => exact aside_startup b _
  | builds => exact aside_beginBuild b
  | built => exact aside_finishBuild b _
  | launches => exact aside_launch b
  | judges => exact aside_judgeGrace b
  | succeeds => exact aside_startup b .started
  | givesUp =>
    obtain ⟨ledger, run, session⟩ := stop_aside b
    exact ⟨ledger, run, session, .inr rfl⟩
  | gaveUp => exact aside_startup b _
  | halted => exact aside_startup b _

/-- Whatever happens by itself concerns no case, but for the end of a session. -/
theorem aside_happen {h : Happening} (other : h ≠ .sessionEnds) (b : Bench) :
    b.Aside (b.happen h) := by
  cases h with
  | buildEnds =>
    simp only [happen]
    split
    · exact aside_finishBuild b _
    · exact .refl b
  | programEnds =>
    simp only [happen]
    split
    · exact aside_recordExit b _
    · exact .refl b
  | graceEnds => exact aside_proceedTo b .checkedGrace
  | deadlinePasses =>
    have moved : b.Aside { b with deadline := none } := ⟨rfl, rfl, rfl, .inl rfl⟩
    exact moved.trans rfl (aside_abortWait _ .deadline)
  | portAnswers =>
    have moved : b.Aside { b with ports := b.ports.map PortWait.proceed } :=
      ⟨rfl, rfl, rfl, .inl rfl⟩
    exact moved.trans rfl (aside_finishWait _)
  | sessionEnds => exact absurd rfl other

end Bench

end FilterBench
