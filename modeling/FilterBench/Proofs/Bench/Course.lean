import FilterBench.Proofs.Bench.Custody

/-!
# The course of a bench

A `Step` is one thing that happens to a bench: a call from outside, one thing that is done without
waiting, or one thing that is due. Calls may come between any two others: stopping, flagging,
marking and adding cases at any moment, starting and running where the bench lets them. Of several
things that could be done or are due, any may come first. Whatever order the clock takes is
therefore a `Course` (`course_advance`), and what is shown of all courses does not depend on the
order. Every step is made of steps of the custody of the program
(`Step.custody`).
-/
namespace FilterBench

theorem ok_of_bind_eq_ok {ε α β : Type} {x : Except ε α} {f : α → Except ε β} {y : β}
    (h : x >>= f = .ok y) : ∃ a, x = .ok a ∧ f a = .ok y := by
  cases x with
  | error e => cases h
  | ok a => exact ⟨a, rfl, h⟩

/-- What a kill found: whether the program had not ended by then. -/
def Deed.kill? : Deed → Option Bool
  | .killed _ _ alive => some alive
  | _ => none

/-- A launch of a test program. Builds run in a directory, test programs do not. -/
def Deed.launch? : Deed → Option CommandLine
  | .ran c => if c.directory.isNone then some c else none
  | _ => none

def Deed.exit? : Deed → Option Exit
  | .sawExit e => some e
  | _ => none

def Notice.exit? : Notice → Option Exit
  | .unexpectedExit e => some e
  | _ => none

def Notice.dump? : Notice → Option String
  | .outputDump _ output => some output
  | _ => none

theorem Standing.failed_mark {s s' : Standing} {i : ℕ} {m : Mark} (h : s.mark i m = .ok s') :
    ∃ some, s'.failed = (s.failed || some) := by
  unfold Standing.mark at h
  split at h
  · cases h
    exact ⟨false, by rw [Bool.or_false]⟩
  · obtain ⟨c, -, marked⟩ := ok_of_bind_eq_ok h
    cases marked
    exact ⟨m == .failed, rfl⟩

namespace Bench

def custody (b : Bench) : Custody where
  codes := b.settings.exitCodes
  startup := b.startup
  program := b.program
  running := b.running
  exit := b.exit
  stopping := b.stopping
  killed := b.killed
  run := b.run
  failed := b.standing.failed
  launches := b.history.filterMap fun d => d.2.launch?
  kills := b.history.filterMap fun d => d.2.kill?
  seen := b.history.filterMap fun d => d.2.exit?
  told := b.notices.filterMap Notice.exit?
  dumped := b.notices.filterMap Notice.dump?

inductive Step : Bench → Bench → Prop
  | starts {b b' : Bench} : b.start = .ok b' → Step b b'
  | stops (b : Bench) : Step b b.stop
  | flags (b : Bench) : Step b b.flag
  | marks {b b' : Bench} {i : ℕ} {m : Mark} {message : String} :
      b.markAs i m message = .ok b' → Step b b'
  | adds (b : Bench) (path : String) (script : Script) (e : Expectation) :
      Step b { b with standing := b.standing.add path script e }
  | runs {b : Bench} : b.run = .none ∨ (∃ o, b.run = .finished o) → Step b b.beginRun
  | sees {b : Bench} {e : Exit} : b.pendingExit? = some e → Step b (b.recordExit e)
  | goesOn {b b' : Bench} : b.resumeStart? = some b' → Step b b'
  | playsOn {b b' : Bench} : b.resumeRun? = some b' → Step b b'
  | plays (b : Bench) (i : ℕ) : Step b (b.runCase i).1
  | sends (b : Bench) (i : ℕ) (script : Script) : Step b (b.openSession i script).1
  | happens {b : Bench} {time : ℕ} {h : Happening} : (time, h) ∈ b.dues →
      Step b ({ b with now := max b.now time }.happen h)
  | waits (b : Bench) (now : ℕ) : Step b { b with now := now }

/-- A step that is no call from outside. -/
inductive Move : Bench → Bench → Prop
  | sees {b : Bench} {e : Exit} : b.pendingExit? = some e → Move b (b.recordExit e)
  | goesOn {b b' : Bench} : b.resumeStart? = some b' → Move b b'
  | playsOn {b b' : Bench} : b.resumeRun? = some b' → Move b b'
  | happens {b : Bench} {time : ℕ} {h : Happening} : (time, h) ∈ b.dues →
      Move b ({ b with now := max b.now time }.happen h)
  | waits (b : Bench) (now : ℕ) : Move b { b with now := now }

theorem Move.step {b b' : Bench} (h : Move b b') : Step b b' := by
  cases h with
  | sees pending => exact .sees pending
  | goesOn resumed => exact .goesOn resumed
  | playsOn resumed => exact .playsOn resumed
  | happens due => exact .happens due
  | waits now => exact .waits b now

inductive Course : Bench → Bench → Prop
  | refl (b : Bench) : Course b b
  | step {b b' b'' : Bench} : Course b b' → Step b' b'' → Course b b''

theorem Course.one {b b' : Bench} (h : Step b b') : Course b b' := .step (.refl b) h

theorem Course.trans {b b' b'' : Bench} (h : Course b b') (h' : Course b' b'') : Course b b'' := by
  induction h' with
  | refl => exact h
  | step _ step ih => exact .step ih step

/-- Nothing was done with the bench yet. Its cases may be in any state. -/
structure Fresh (b : Bench) : Prop where
  startup : b.startup = .idle
  program : b.program = none
  running : b.running = false
  exit : b.exit = none
  stopping : b.stopping = .no
  killed : b.killed = false
  run : b.run = .none
  session : b.session = none
  history : b.history = []
  notices : b.notices = []

theorem Fresh.valid {b : Bench} (h : b.Fresh) : b.custody.Valid := by
  have exit : b.custody.exit = none := h.exit
  have run : b.custody.run = .none := h.run
  refine ⟨fun _ => h.program, fun _ => ⟨h.running, h.exit⟩, ?_, ?_, ?_, ?_, ?_, ?_, ?_, ?_, ?_⟩
  · intro _ after
    simp [custody, h.startup, Startup.phase] at after
  · intro killed
    rw [custody, h.killed] at killed
    cases killed
  · simp [custody, h.history, h.program]
  · simp [custody, h.history, h.killed]
  · simp [exit]
  · simp [custody, h.history, h.exit]
  · simp [exit]
  · simp [run]
  · simp [run]

variable {lax : Prop} {b b' : Bench}

/-! ## What is done with the program -/

theorem custody_tell {n : Notice} (exit : n.exit? = none) (dump : n.dump? = none) :
    (b.tell n).custody = b.custody := by
  simp [custody, tell, exit, dump]

theorem custody_did {d : Deed} (launch : d.launch? = none) (kill : d.kill? = none)
    (exit : d.exit? = none) : (b.did d).custody = b.custody := by
  simp [custody, did, launch, kill, exit]

theorem custody_stop (b : Bench) : b.stop.custody = b.custody.stop b.now b.killDelay := by
  unfold stop Custody.stop
  have same : b.custody.stopping = b.stopping := rfl
  rw [same]
  cases stopping : b.stopping with
  | asked w => rfl
  | no =>
    have held : b.custody.running = b.running := rfl
    rw [held]
    cases running : b.running with
    | false => simp [custody, running]
    | true => simp [custody, did, Deed.launch?, Deed.kill?, Deed.exit?]

theorem mem_notices_of_told {e : Exit} (h : e ∈ b.custody.told) : .unexpectedExit e ∈ b.notices := by
  obtain ⟨n, mem, same⟩ := List.mem_filterMap.1 h
  cases n with
  | unexpectedExit e' =>
    cases same
    exact mem
  | _ => cases same

/-- The end of the program is recorded and told, before anything that waits for it goes on. -/
def noteExit (b : Bench) (e : Exit) : Bench :=
  let b := { b with exit := some e, program := b.program.map Job.finish }.did (.sawExit e)
  let unexpected := !b.isExpected e
  let b := if unexpected then b.tell (.unexpectedExit e) else b
  if unexpected || b.standing.failed then b.tell (.outputDump b.path e.output) else b

theorem recordExit_eq (b : Bench) (e : Exit) : b.recordExit e =
    match (b.noteExit e).startup with
    | .grace _ => (b.noteExit e).proceedTo .checkedGrace
    | _ => (b.noteExit e).abortWait .default := rfl

theorem custody_noteExit (b : Bench) (e : Exit) : (b.noteExit e).custody = b.custody.see e := by
  -- Recording the end does not change how it is judged.
  have judged : ({ b with exit := some e, program := b.program.map Job.finish }.did
      (.sawExit e)).isExpected e = b.isExpected e := rfl
  have judged' : b.custody.isExpected e = b.isExpected e := rfl
  unfold noteExit Custody.see
  simp only [judged, judged']
  cases b.isExpected e <;> cases failed : b.standing.failed <;>
    simp [custody, did, tell, failed, Deed.launch?, Deed.kill?, Deed.exit?, Notice.exit?, Notice.dump?,
      List.filterMap_cons]

theorem steps_proceedTo (next : Startup) (waiting : b.startup.phase = .waiting)
    (phase : next.phase = .waiting ∨ next.phase = .ready) :
    Custody.Steps lax b.custody (b.proceedTo next).custody := by
  rw [proceedTo]
  split
  · exact .one (.goesOn next waiting phase)
  · rename_i asked
    exact .one (.givesUp .halting waiting (by rw [custody, asked]; simp) rfl)

theorem steps_finishWait (b : Bench) : Custody.Steps lax b.custody b.finishWait.custody := by
  unfold finishWait
  split
  · rename_i probing _
    exact steps_proceedTo _ (by rw [probing]; rfl) (.inl rfl)
  · rename_i probing _
    exact steps_proceedTo _ (by rw [probing]; rfl) (.inl rfl)
  · exact .refl _

theorem steps_abortWait (b : Bench) (reason : AbortReason) :
    Custody.Steps lax b.custody (b.abortWait reason).custody := by
  unfold abortWait
  split
  · exact steps_finishWait { b with ports := b.ports.map (PortWait.abort · b.now reason) }
  · exact .refl _

theorem steps_noteExit (b : Bench) (e : Exit) :
    Custody.Steps lax (b.noteExit e).custody (b.recordExit e).custody := by
  rw [recordExit_eq]
  split
  · rename_i grace
    exact steps_proceedTo _ (by rw [grace]; rfl) (.inl rfl)
  · exact steps_abortWait _ _

theorem steps_recordExit {p : Job} (program : b.program = some p)
    (fresh : b.exit = none ∨ p.ended = false) (e : Exit) :
    Custody.Steps lax b.custody (b.recordExit e).custody := by
  have saw : Custody.Steps lax b.custody (b.noteExit e).custody := by
    rw [custody_noteExit]
    exact .one (.sees p e program fresh)
  exact saw.trans (steps_noteExit b e)

theorem steps_finishBuild (preparing : b.startup.phase = .preparing) (result : Except Thrown Unit) :
    Custody.Steps lax b.custody (b.finishBuild result).custody := by
  unfold finishBuild
  split
  · exact .one (.prepares (.failed _) preparing (.inr rfl))
  · rw [proceedTo]
    split
    · rename_i no
      exact .one (.clears preparing no)
    · exact .one (.prepares .halting preparing (.inr rfl))

theorem steps_beginBuild (preparing : b.startup.phase = .preparing) :
    Custody.Steps lax b.custody b.beginBuild.custody := by
  have prepares : ∀ s : Startup, s.phase = .preparing →
      Custody.Steps lax b.custody { b.custody with startup := s } :=
    fun s phase => .one (.prepares s preparing (.inl phase))
  unfold beginBuild
  split
  · rw [custody_did rfl rfl rfl]
    exact prepares _ rfl
  · have same : (b.nextJob (Build.command b.settings.build b.path b.executable)).1.custody =
        b.custody := by
      rw [nextJob]
      exact custody_did rfl rfl rfl
    simp only []
    split
    all_goals
      show Custody.Steps lax b.custody { (b.nextJob _).1.custody with startup := _ }
      rw [same]
      exact prepares _ rfl

theorem steps_launch (cleared : b.startup = .checkedBuild) (allowed : b.stopping = .no ∨ lax) :
    Custody.Steps lax b.custody b.launch.custody := by
  have phase : b.custody.startup.phase = .cleared := by rw [custody, cleared]; rfl
  let line : CommandLine := { program := b.executable, arguments := b.programArguments }
  let pause := Pause.begin b.timers b.now b.settings.startupGrace
  have launched : b.launch.custody = { b.custody with
      program := some (b.nextJob line).2, running := true, startup := .grace pause
      launches := b.custody.launches ++ [line] } := by
    simp [launch, custody, nextJob, did, line, pause, Deed.launch?, Deed.kill?, Deed.exit?]
  rw [launched]
  refine .one (.launches line (b.nextJob line).2 pause phase allowed ?_)
  rw [nextJob, Job.begin]
  split <;> simp

theorem steps_judgeGrace (waiting : b.startup.phase = .waiting) :
    Custody.Steps lax b.custody b.judgeGrace.custody := by
  unfold judgeGrace
  split
  · rename_i e exit
    exact .one (.endsEarly e _ waiting exit)
  · split
    · exact .one (.abandons _ waiting)
    · exact .one (.goesOn .probing waiting (.inl rfl))

/-- A bench that was stopped stays so. -/
theorem stopping_stop (b : Bench) : b.stop.stopping ≠ .no := by
  unfold stop
  split
  · rename_i w stopping
    rw [stopping]
    simp
  · simp

theorem exists_asked (asked : b.stopping ≠ .no) : ∃ w, b.stopping = .asked w := by
  cases stopping : b.stopping with
  | no => exact absurd stopping asked
  | asked w => exact ⟨w, rfl⟩

theorem stopSettled_eq {w : Bool} (stopping : b.stopping = .asked w) :
    b.stopSettled = (!w || b.exit.isSome) := by
  simp only [stopSettled, stopping]

theorem startup_stop (b : Bench) : b.stop.startup = b.startup := by
  unfold stop
  split
  · rfl
  · split <;> rfl

/-- What a start does that does not wait for anything. -/
inductive StartMove (b : Bench) : Bench → Prop
  | unmade {e : OtherError} : b.startup = .makingScratch → b.world.scratchError = some e →
      StartMove b (b.failStart (.other e))
  | builds : b.startup = .makingScratch → b.world.scratchError = none → StartMove b b.beginBuild
  | built {result : Except Thrown Unit} : b.startup = .built result →
      StartMove b (b.finishBuild result)
  | launches : b.startup = .checkedBuild → StartMove b b.launch
  | judges : b.startup = .checkedGrace → StartMove b b.judgeGrace
  | succeeds : b.startup = .checkedReady → StartMove b { b with startup := .started }
  | givesUp {e : OtherError} : b.startup = .checkedUnready e →
      StartMove b { b.stop with startup := .givingUp e }
  | gaveUp {e : OtherError} : b.startup = .givingUp e → b.stopSettled = true →
      StartMove b (b.failStart (b.judgeGivenUp e))
  | halted : b.startup = .halting → b.stopSettled = true →
      StartMove b (b.failStart b.stoppedWhileStarting)

theorem StartMove.of_resume (h : b.resumeStart? = some b') : StartMove b b' := by
  cases startup : b.startup with
  | makingScratch =>
    simp only [resumeStart?, startup] at h
    split at h
    · rename_i e broken
      cases h
      exact .unmade startup broken
    · rename_i fine
      cases h
      exact .builds startup fine
  | built result =>
    simp only [resumeStart?, startup] at h
    cases h
    exact .built startup
  | checkedBuild =>
    simp only [resumeStart?, startup] at h
    cases h
    exact .launches startup
  | checkedGrace =>
    simp only [resumeStart?, startup] at h
    cases h
    exact .judges startup
  | checkedReady =>
    simp only [resumeStart?, startup] at h
    cases h
    exact .succeeds startup
  | checkedUnready e =>
    simp only [resumeStart?, startup] at h
    cases h
    exact .givesUp startup
  | givingUp e =>
    simp only [resumeStart?, startup] at h
    split at h
    · rename_i settled
      cases h
      exact .gaveUp startup settled
    · cases h
  | halting =>
    simp only [resumeStart?, startup] at h
    split at h
    · rename_i settled
      cases h
      exact .halted startup settled
    · cases h
  | _ => simp [resumeStart?, startup] at h

theorem steps_resumeStart (h : b.resumeStart? = some b')
    (allowed : b.startup = .checkedBuild → b.stopping = .no ∨ lax) :
    Custody.Steps lax b.custody b'.custody := by
  cases StartMove.of_resume h with
  | unmade making _ => exact .one (.prepares (.failed _) (by rw [custody, making]; rfl) (.inr rfl))
  | builds making _ => exact steps_beginBuild (by rw [making]; rfl)
  | built built => exact steps_finishBuild (by rw [built]; rfl) _
  | launches cleared => exact steps_launch cleared (allowed cleared)
  | judges checked => exact steps_judgeGrace (by rw [checked]; rfl)
  | succeeds checked => exact .one (.goesOn .started (by rw [custody, checked]; rfl) (.inr rfl))
  | @givesUp e unready =>
    have stopped : Custody.Steps lax b.custody b.stop.custody := by
      rw [custody_stop]
      exact .one (.stops b.custody b.now b.killDelay)
    apply Custody.Steps.step stopped
    apply Custody.Step.givesUp (.givingUp e)
    · rw [custody, startup_stop, unready]
      rfl
    · exact b.stopping_stop
    · rfl
  | gaveUp givingUp _ => exact .one (.rests (.failed _) (by rw [custody, givingUp]; rfl) rfl)
  | halted halting _ => exact .one (.rests (.failed _) (by rw [custody, halting]; rfl) rfl)

/-! ## What is done with the cases -/

theorem custody_mark {i : ℕ} {m : Mark} (h : b.mark i m = .ok b') :
    ∃ some, b'.custody = b.custody.fail some := by
  unfold mark at h
  split at h
  · cases h
  · rename_i s marked
    cases h
    obtain ⟨some, failed⟩ := Standing.failed_mark marked
    refine ⟨some, ?_⟩
    show ({ b.custody with failed := s.failed } : Custody) = _
    rw [failed]
    rfl

theorem custody_markFailed {i : ℕ} {message : String} (h : b.markFailed i message = .ok b') :
    ∃ some, b'.custody = b.custody.fail some := by
  obtain ⟨c, marked, told⟩ := ok_of_bind_eq_ok h
  obtain ⟨some, same⟩ := custody_mark marked
  refine ⟨some, ?_⟩
  rw [← same]
  split at told
  · cases told
    rfl
  · cases told
    rw [custody_tell rfl rfl, custody_tell rfl rfl]

theorem custody_markTold {i : ℕ} {m : Mark} {message : String}
    (h : b.markTold i m message = .ok b') : ∃ some, b'.custody = b.custody.fail some := by
  obtain ⟨c, marked, told⟩ := ok_of_bind_eq_ok h
  obtain ⟨some, same⟩ := custody_mark marked
  refine ⟨some, ?_⟩
  cases told
  rw [← same, custody_tell rfl rfl]

theorem custody_markAs {i : ℕ} {m : Mark} {message : String}
    (h : b.markAs i m message = .ok b') : ∃ some, b'.custody = b.custody.fail some := by
  unfold markAs at h
  split at h
  · exact custody_markFailed h
  · exact custody_markTold h

theorem custody_conclude {i : ℕ} {ending : Ending} (h : b.conclude i ending = .ok b') :
    ∃ some, b'.custody = b.custody.fail some := by
  unfold conclude at h
  split at h
  · cases h
    exact ⟨false, by simp [Custody.fail]⟩
  · split at h
    · exact custody_markFailed h
    · obtain ⟨e, -, told⟩ := ok_of_bind_eq_ok h
      split at told
      · exact custody_markTold told
      · exact custody_markTold told
      · exact custody_markFailed told

theorem custody_openSession (b : Bench) (i : ℕ) (script : Script) :
    (b.openSession i script).1.custody = b.custody := by
  have same : (b.did (.connected b.route.host b.route.port)).custody = b.custody :=
    custody_did rfl rfl rfl
  rw [← same]
  rfl

theorem steps_of_fail (h : ∃ some, b'.custody = b.custody.fail some) :
    Custody.Steps lax b.custody b'.custody := by
  obtain ⟨some, same⟩ := h
  rw [same]
  exact .one (.fails b.custody some)

theorem steps_runCase (b : Bench) (i : ℕ) :
    Custody.Steps lax b.custody (b.runCase i).1.custody := by
  unfold runCase
  split
  · exact .refl _
  · rename_i c _
    have opened := custody_openSession b i c.script
    rcases session : b.openSession i c.script with ⟨o, report⟩
    rw [session] at opened
    have played : ({ o with now := o.now + report.elapsed } : Bench).custody = b.custody := opened
    simp only []
    split
    · rw [played]
      exact .refl _
    · have ended : ({ o with now := o.now + report.elapsed }.did .disconnected).custody = b.custody :=
        (custody_did rfl rfl rfl).trans played
      split
      · rw [ended]
        exact .refl _
      · rename_i concluded
        rw [← ended]
        exact steps_of_fail (custody_conclude concluded)

theorem plays_stop (plays : b.custody.Plays) : b.stop.custody.Plays := by
  have run : b.stop.run = b.run := by
    unfold stop
    split
    · rfl
    · split <;> rfl
  rw [Custody.Plays] at plays ⊢
  rw [custody, startup_stop, run]
  exact plays

theorem steps_closeRun (plays : b.custody.Plays) (result : Except Thrown Unit) :
    Custody.Steps lax b.custody (b.closeRun result).custody := by
  refine .step (.one (.stops b.custody b.now b.killDelay)) ?_
  rw [← custody_stop]
  exact .closes result (plays_stop plays) b.stopping_stop

theorem steps_playCase (plays : b.custody.Plays) (i : ℕ) :
    Custody.Steps lax b.custody (b.playCase i).custody := by
  unfold playCase
  split
  · exact steps_closeRun plays _
  · rename_i c _
    have opened := custody_openSession b i c.script
    rcases session : b.openSession i c.script with ⟨o, report⟩
    rw [session] at opened
    show Custody.Steps lax b.custody { o.custody with run := .playing i }
    rw [opened]
    exact .one (.plays i plays)

theorem steps_finishSession {i : ℕ} (run : b.run = .playing i) (s : OpenSession) :
    Custody.Steps lax b.custody (b.finishSession i s).custody := by
  unfold finishSession
  split
  · exact .refl _
  · have ended : ({ b with session := none }.did .disconnected).custody = b.custody :=
      custody_did rfl rfl rfl
    have plays : b.custody.Plays := .inr ⟨i, run⟩
    simp only []
    split
    · rw [← ended] at plays ⊢
      exact steps_closeRun plays _
    · rename_i concluded
      obtain ⟨some, same⟩ := custody_conclude concluded
      rw [ended] at same
      refine Custody.Steps.trans (.one (.fails b.custody some)) ?_
      rw [← same]
      refine steps_playCase ?_ (i + 1)
      rw [same]
      exact plays

theorem custody_skipCases (b : Bench) (i : ℕ) (cases : List Case) :
    ∃ some, (b.skipCases i cases).1.custody = b.custody.fail some := by
  induction cases generalizing b i with
  | nil => exact ⟨false, by simp [skipCases, Custody.fail]⟩
  | cons c rest ih =>
    unfold skipCases
    split
    · exact ⟨false, by simp [Custody.fail]⟩
    · rename_i told
      obtain ⟨some, same⟩ := custody_markTold told
      obtain ⟨more, same'⟩ := ih _ (i + 1)
      refine ⟨some || more, ?_⟩
      rw [same', same, Custody.fail, Custody.fail, Custody.fail, Bool.or_assoc]

theorem steps_startFailed (b : Bench) (t : Thrown) :
    Custody.Steps lax b.custody (b.startFailed t).custody := by
  unfold startFailed
  split
  · have told : (b.tell .skipRequested).custody = b.custody := custody_tell rfl rfl
    have skipped : Custody.Steps lax (b.tell .skipRequested).custody
        ((b.tell .skipRequested).skipCases 0 b.standing.cases).1.custody :=
      steps_of_fail (custody_skipCases _ 0 b.standing.cases)
    rw [told] at skipped
    simp only []
    split
    all_goals
      rename_i eq
      have eq : (b.tell .skipRequested).skipCases 0 b.standing.cases = _ := eq
      rw [eq] at skipped
      exact skipped.step (.finishes _ _)
  · have told : (b.tell (.startFailed t)).custody = b.custody := custody_tell rfl rfl
    have stopped : (b.tell (.startFailed t)).stop.custody =
        b.custody.stop b.now b.killDelay := by
      rw [← told]
      exact custody_stop _
    refine .step (.one (.stops b.custody b.now b.killDelay)) ?_
    rw [← stopped]
    exact .aborts t (stopping_stop _)

theorem steps_start (h : b.start = .ok b') : Custody.Steps lax b.custody b'.custody := by
  unfold start at h
  split at h
  · rename_i idle _
    cases h
    rw [custody_did rfl rfl rfl]
    exact .one (.prepares .makingScratch (by rw [custody, idle]; rfl) (.inl rfl))
  · cases h

theorem steps_beginRun (b : Bench) : Custody.Steps lax b.custody b.beginRun.custody := by
  unfold beginRun
  split
  · rename_i started
    exact (steps_start started).step (.begins _ none)
  · rename_i t _
    exact .one (.begins b.custody (some t))

/-- What a run does that does not wait for anything. -/
inductive RunMove (b : Bench) : Bench → Prop
  | refused {t : Thrown} : b.run = .starting (some t) → RunMove b (b.startFailed t)
  | begins : b.run = .starting none → b.startup = .started → RunMove b (b.playCase 0)
  | fails {t : Thrown} : b.run = .starting none → b.startup = .failed t →
      RunMove b (b.startFailed t)
  | plays {i : ℕ} {s : OpenSession} : b.run = .playing i → b.session = some s →
      RunMove b (b.finishSession i s)
  | aborts {t : Thrown} : b.run = .aborting t → b.stopSettled = true →
      RunMove b (b.finishRun (.ok (b.outcome .error (some t.message))))
  | breaks {t : Thrown} : b.run = .closing (.error t) → b.stopSettled = true →
      RunMove b (b.finishRun (.error t))
  | closes : b.run = .closing (.ok ()) → b.stopSettled = true →
      RunMove b (b.finishRun (.ok (b.outcome b.finalStatus none)))

theorem RunMove.of_resume (h : b.resumeRun? = some b') : RunMove b b' := by
  unfold resumeRun? at h
  split at h
  · rename_i t run
    cases h
    exact .refused run
  · rename_i run
    split at h
    · rename_i started
      cases h
      exact .begins run started
    · rename_i t failed
      cases h
      exact .fails run failed
    · cases h
  · rename_i i run
    split at h
    · rename_i s session
      split at h
      · cases h
        exact .plays run session
      · cases h
    · cases h
  · rename_i t run
    split at h
    · rename_i settled
      cases h
      exact .aborts run settled
    · cases h
  · rename_i t run
    split at h
    · rename_i settled
      cases h
      exact .breaks run settled
    · cases h
  · rename_i run
    split at h
    · rename_i settled
      cases h
      exact .closes run settled
    · cases h
  · cases h

theorem steps_resumeRun (h : b.resumeRun? = some b') : Custody.Steps lax b.custody b'.custody := by
  cases RunMove.of_resume h with
  | refused => exact steps_startFailed b _
  | begins _ started => exact steps_playCase (.inl started) 0
  | fails => exact steps_startFailed b _
  | plays run _ => exact steps_finishSession run _
  | aborts => exact .one (.finishes b.custody _)
  | breaks => exact .one (.finishes b.custody _)
  | closes => exact .one (.finishes b.custody _)

/-! ## What happens by itself -/

theorem due_programEnds {time : ℕ} (h : (time, Happening.programEnds) ∈ b.dues) :
    ∃ p, b.program = some p ∧ p.ended = false := by
  have due : b.program.bind Job.due? = some time := by
    simpa [dues] using h
  obtain ⟨p, program, due⟩ := Option.bind_eq_some_iff.1 due
  refine ⟨p, program, ?_⟩
  cases ended : p.ended with
  | false => rfl
  | true =>
    rw [Job.due?, if_pos ended] at due
    cases due

theorem due_graceEnds {time : ℕ} (h : (time, Happening.graceEnds) ∈ b.dues) :
    b.startup.phase = .waiting := by
  cases startup : b.startup with
  | grace finish => rfl
  | _ => simp [dues, startup] at h

theorem steps_happen {time : ℕ} {h : Happening} (due : (time, h) ∈ b.dues) :
    Custody.Steps lax b.custody ({ b with now := max b.now time }.happen h).custody := by
  cases h with
  | buildEnds =>
    simp only [happen]
    split
    · rename_i startup
      exact steps_finishBuild (b := { b with now := max b.now time })
        (by rw [show _ = _ from startup]; rfl) _
    · exact .refl _
  | programEnds =>
    obtain ⟨p, program, going⟩ := due_programEnds due
    simp only [happen]
    split
    · exact steps_recordExit (b := { b with now := max b.now time }) program (.inr going) _
    · exact .refl _
  | graceEnds =>
    exact steps_proceedTo (b := { b with now := max b.now time }) .checkedGrace
      (due_graceEnds due) (.inl rfl)
  | deadlinePasses =>
    exact steps_abortWait { b with now := max b.now time, deadline := none } .deadline
  | portAnswers =>
    exact steps_finishWait
      { b with now := max b.now time, ports := b.ports.map PortWait.proceed }
  | sessionEnds =>
    simp only [happen]
    split
    · rename_i run _
      exact steps_finishSession (b := { b with now := max b.now time }) run _
    · exact .refl _

/-- Somebody asked to stop after the check that allows the launch, and before the launch. -/
def Gap (b : Bench) : Prop := b.startup = .checkedBuild ∧ b.stopping ≠ .no

/-- Whatever happens to a bench is made of steps of the custody of its program. -/
theorem Step.custody (h : Step b b') (lax_of_gap : b.Gap → lax) :
    Custody.Steps lax b.custody b'.custody := by
  cases h with
  | starts h => exact steps_start h
  | stops =>
    rw [custody_stop]
    exact .one (.stops _ _ _)
  | flags => exact steps_of_fail ⟨true, by simp [flag, Standing.flag, Bench.custody, Custody.fail]⟩
  | marks h => exact steps_of_fail (custody_markAs h)
  | adds => exact .refl _
  | runs _ => exact steps_beginRun b
  | sees pending =>
    unfold pendingExit? at pending
    split at pending
    · rename_i none program
      exact steps_recordExit program (.inl none) _
    · cases pending
  | goesOn h =>
    -- Only a launch out of the gap needs more than the check that came before it.
    refine steps_resumeStart h fun cleared => ?_
    by_cases unasked : b.stopping = .no
    · exact .inl unasked
    · exact .inr (lax_of_gap ⟨cleared, unasked⟩)
  | playsOn h => exact steps_resumeRun h
  | plays i => exact steps_runCase b i
  | sends i script =>
    rw [custody_openSession]
    exact .refl _
  | happens due => exact steps_happen due
  | waits now => exact .refl _

theorem Course.custody (h : Course b b') : Custody.Steps True b.custody b'.custody := by
  induction h with
  | refl => exact .refl _
  | step _ step ih => exact ih.trans (step.custody fun _ => trivial)

/-! ## The order of the clock -/

theorem move_of_resume (h : b.resume? = some b') : Move b b' := by
  unfold resume? at h
  split at h
  · rename_i e pending
    cases h
    exact .sees pending
  · rcases resumed : b.resumeStart? with _ | c
    · rw [resumed] at h
      exact .playsOn h
    · rw [resumed] at h
      cases h
      exact .goesOn resumed

theorem mem_of_earliest {dues : List (ℕ × Happening)} {d : ℕ × Happening}
    (h : earliest dues = some d) : d ∈ dues := by
  induction dues generalizing d with
  | nil => cases h
  | cons first rest ih =>
    rw [earliest] at h
    split at h
    · cases h
      exact List.mem_cons_self
    · rename_i e rested
      cases h
      split
      · exact List.mem_cons_self
      · exact List.mem_cons_of_mem _ (ih rested)

theorem move_of_tick {limit : Option ℕ} (h : b.tick? limit = some b') : Move b b' := by
  unfold tick? at h
  split at h
  · cases h
  · rename_i time what next
    split at h
    · cases h
      exact .happens (mem_of_earliest next)
    · cases h

theorem course_settle (fuel : ℕ) (b : Bench) : Course b (settle fuel b) := by
  induction fuel generalizing b with
  | zero => exact .refl b
  | succ fuel ih =>
    rw [settle]
    split
    · rename_i c resumed
      exact (Course.one (move_of_resume resumed).step).trans (ih c)
    · exact .refl b

theorem course_passTime (limit : Option ℕ) (fuel : ℕ) (b : Bench) :
    Course b (passTime limit fuel b) := by
  induction fuel generalizing b with
  | zero => exact .refl b
  | succ fuel ih =>
    refine (course_settle b.momentBound b).trans ?_
    rw [passTime]
    split
    · rename_i c ticked
      exact (Course.one (move_of_tick ticked).step).trans (ih c)
    · exact .refl _

theorem course_advance (b : Bench) (ms : ℕ) : Course b (b.advance ms) := by
  have passed := course_passTime (some (b.now + ms)) b.timeBound b
  exact (passed.step (.waits _ (b.now + ms))).trans (course_settle _ _)

end Bench

end FilterBench
