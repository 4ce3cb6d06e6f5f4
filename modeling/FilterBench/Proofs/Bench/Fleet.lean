import FilterBench.Proofs.Bench.Atomicity
import FilterBench.Proofs.Bench.Ledger
import FilterBench.Proofs.Bench.Playing

/-!
# Directories that share a mail server

A `Fleet` is a number of benches that play their cases against one mail server. Anybody may mark and
flag at any moment, and a run of a case may be completed at any moment, of one case also several
times; whatever else happens to one of the benches comes in between (`Fleet.Course`).

Whatever is done marks ready cases only (`Bench.Marks`), so that a mark is for good; and what flags
the directory and the server at once is counted on both (`Fleet.Sound`).
-/
namespace FilterBench

/-- What is marked stays marked. -/
def Standing.Keeps (s s' : Standing) : Prop :=
  ∀ (i : ℕ) (m : Mark), s.states[i]? = some (some m) → s'.states[i]? = some (some m)

namespace Bench

variable {b b' b'' : Bench} {i : ℕ} {c : Case} {m : Mark}

/-! ## What marks are made on one bench -/

/-- Ready cases were marked, and others were not touched. With a case that failed the directory and
its server were flagged, else they were not. -/
structure Marks (b b' : Bench) : Prop where
  kept : b.standing.Keeps b'.standing
  counted : ∃ fails : Bool, b'.standing.failed = (b.standing.failed || fails) ∧
    b'.serverFailed = (b.serverFailed || fails) ∧
    (some .failed ∈ b'.standing.states ↔ some .failed ∈ b.standing.states ∨ fails = true)

theorem Marks.of_same (states : b'.standing.states = b.standing.states)
    (failed : b'.standing.failed = b.standing.failed) (server : b'.serverFailed = b.serverFailed) :
    b.Marks b' := by
  refine ⟨fun j m marked => states ▸ marked, false, ?_, ?_, ?_⟩
  · rw [failed, Bool.or_false]
  · rw [server, Bool.or_false]
  · simp [states]

theorem Marks.refl (b : Bench) : b.Marks b := .of_same rfl rfl rfl

theorem Marks.trans (h : b.Marks b') (h' : b'.Marks b'') : b.Marks b'' := by
  obtain ⟨kept, x, failed, server, lost⟩ := h
  obtain ⟨kept', x', failed', server', lost'⟩ := h'
  refine ⟨fun j m marked => kept' j m (kept j m marked), x || x', ?_, ?_, ?_⟩
  · rw [failed', failed, Bool.or_assoc]
  · rw [server', server, Bool.or_assoc]
  · rw [lost', lost, Bool.or_eq_true, or_assoc]

theorem Marks.of_ledger (same : b'.ledger = b.ledger) : b.Marks b' := by
  have standing : b'.standing = b.standing := congrArg Ledger.standing same
  have server : b'.serverFailed = b.serverFailed := congrArg Ledger.serverFailed same
  exact .of_same (by rw [standing]) (by rw [standing]) server

theorem marks_marked (present : b.standing.cases[i]? = some c) (ready : c.state = none) (m : Mark)
    (notices : List Notice) : b.Marks (b.marked i c m notices) := by
  have states : (b.marked i c m notices).standing.states = b.standing.states.set i (some m) :=
    List.map_set
  have unmarked : b.standing.states[i]? = some none := by
    rw [Standing.states, List.getElem?_map, present, Option.map_some, ready]
  have below : i < b.standing.states.length := (List.getElem?_eq_some_iff.1 unmarked).choose
  refine ⟨?_, m == .failed, rfl, rfl, ?_⟩
  · intro j s marked
    have apart : i ≠ j := by
      rintro rfl
      cases unmarked.symm.trans marked
    rw [states, List.getElem?_set_ne apart, marked]
  · rw [states, beq_iff_eq]
    constructor
    · intro mem
      rcases List.mem_or_eq_of_mem_set mem with old | now
      · exact .inl old
      · exact .inr (Option.some.inj now).symm
    · rintro (mem | rfl)
      · obtain ⟨j, at_j⟩ := List.mem_iff_getElem?.1 mem
        have apart : i ≠ j := by
          rintro rfl
          cases unmarked.symm.trans at_j
        exact List.mem_iff_getElem?.2 ⟨j, (List.getElem?_set_ne apart).trans at_j⟩
      · exact List.mem_iff_getElem?.2 ⟨i, List.getElem?_set_self below⟩

theorem marks_markAs {message : String} (present : b.standing.cases[i]? = some c)
    (h : b.markAs i m message = .ok b') : b.Marks b' := by
  unfold markAs at h
  split at h
  · obtain ⟨ready, notices, rfl⟩ := markFailed_ok present h
    exact marks_marked present ready _ notices
  · obtain ⟨ready, notices, rfl⟩ := markTold_ok present h
    exact marks_marked present ready _ notices

theorem marks_conclude {ending : Ending} (h : b.conclude i ending = .ok b') : b.Marks b' := by
  cases present : b.standing.cases[i]? with
  | none =>
    rw [conclude, present] at h
    cases h
    exact .refl b
  | some c =>
    obtain ⟨ready, m, notices, -, rfl⟩ := conclude_ok present h
    exact marks_marked present ready m notices

theorem marks_skipCases (b : Bench) (i : ℕ) (cases : List Case) :
    b.Marks (b.skipCases i cases).1 := by
  induction cases generalizing b i with
  | nil => exact .refl b
  | cons c rest ih =>
    unfold skipCases
    split
    · exact .refl b
    · rename_i b' told
      have marked : b.Marks b' := by
        cases present : b.standing.cases[i]? with
        | none =>
          simp only [markTold, mark, Standing.mark, present] at told
          cases told
          exact .of_same rfl rfl (Bool.or_false _)
        | some c => exact marks_markAs (m := .skipped) present told
      exact marked.trans (ih b' (i + 1))

theorem marks_openSession (b : Bench) (i : ℕ) (script : Script) :
    b.Marks (b.openSession i script).1 :=
  .of_same (Standing.states_hear b.standing i _) rfl rfl

theorem marks_stop (b : Bench) : b.Marks b.stop := .of_ledger b.stop_aside.1

theorem marks_closeRun (b : Bench) (result : Except Thrown Unit) : b.Marks (b.closeRun result) :=
  (marks_stop b).trans (.of_same rfl rfl rfl)

theorem marks_playCase (b : Bench) (i : ℕ) : b.Marks (b.playCase i) := by
  unfold playCase
  split
  · exact marks_closeRun b _
  · exact (marks_openSession b i _).trans (.of_same rfl rfl rfl)

theorem marks_finishSession (b : Bench) (i : ℕ) (s : OpenSession) :
    b.Marks (b.finishSession i s) := by
  unfold finishSession
  split
  · exact .of_same rfl rfl rfl
  · have ended : b.Marks ({ b with session := none }.did .disconnected) := .of_same rfl rfl rfl
    simp only []
    split
    · exact ended.trans (marks_closeRun _ _)
    · rename_i concluded
      exact ended.trans ((marks_conclude concluded).trans (marks_playCase _ _))

theorem marks_startFailed (b : Bench) (t : Thrown) : b.Marks (b.startFailed t) := by
  unfold startFailed
  split
  · have skipped := marks_skipCases (b.tell .skipRequested) 0 b.standing.cases
    have told : b.Marks (b.tell .skipRequested) := .of_same rfl rfl rfl
    simp only []
    split
    all_goals
      rename_i eq
      have eq : (b.tell .skipRequested).skipCases 0 b.standing.cases = _ := eq
      rw [eq] at skipped
      exact (told.trans skipped).trans (.of_same rfl rfl rfl)
  · have told : b.Marks (b.tell (.startFailed t)) := .of_same rfl rfl rfl
    exact told.trans ((marks_stop _).trans (.of_same rfl rfl rfl))

theorem marks_resumeRun (h : b.resumeRun? = some b') : b.Marks b' := by
  cases RunMove.of_resume h with
  | refused => exact marks_startFailed b _
  | begins => exact marks_playCase b 0
  | fails => exact marks_startFailed b _
  | plays => exact marks_finishSession b _ _
  | _ => exact .of_same rfl rfl rfl

theorem Move.marks (h : Move b b') : b.Marks b' := by
  cases h with
  | sees => exact .of_ledger (aside_recordExit b _).ledger
  | goesOn resumed => exact .of_ledger (aside_resumeStart resumed).ledger
  | playsOn resumed => exact marks_resumeRun resumed
  | @happens time what due =>
    have waited : b.Marks { b with now := max b.now time } := .of_same rfl rfl rfl
    refine waited.trans ?_
    by_cases session : what = .sessionEnds
    · subst session
      simp only [happen]
      split
      · exact marks_finishSession _ _ _
      · exact .refl _
    · exact .of_ledger (aside_happen session _).ledger
  | waits => exact .of_same rfl rfl rfl

/-- What else may happen to a bench: it is started, stopped and run, it gets cases, sessions are
begun, and it goes on by itself. -/
inductive Onward (b : Bench) : Bench → Prop
  | starts {b' : Bench} : b.start = .ok b' → Onward b b'
  | stops : Onward b b.stop
  | runs : Onward b b.beginRun
  | adds (path : String) (script : Script) (e : Expectation) :
      Onward b { b with standing := b.standing.add path script e }
  | sends (i : ℕ) (script : Script) : Onward b (b.openSession i script).1
  | moves {b' : Bench} : Move b b' → Onward b b'

theorem marks_start (h : b.start = .ok b') : b.Marks b' := by
  unfold start at h
  split at h
  · cases h
    exact .of_same rfl rfl rfl
  · cases h

/-- A case that is added is ready. -/
theorem marks_add (b : Bench) (path : String) (script : Script) (e : Expectation) :
    b.Marks { b with standing := b.standing.add path script e } := by
  have states : (b.standing.add path script e).states = b.standing.states ++ [none] := by
    simp [Standing.states, Standing.add]
  refine ⟨?_, false, ?_, ?_, ?_⟩
  · intro j s marked
    have below : j < b.standing.states.length := (List.getElem?_eq_some_iff.1 marked).choose
    rw [states, List.getElem?_append_left below, marked]
  · exact (Bool.or_false _).symm
  · exact (Bool.or_false _).symm
  · simp [states]

theorem Onward.marks (h : b.Onward b') : b.Marks b' := by
  cases h with
  | starts started => exact marks_start started
  | stops => exact marks_stop b
  | runs =>
    unfold beginRun
    split
    · rename_i started
      exact (marks_start started).trans (.of_same rfl rfl rfl)
    · exact .of_same rfl rfl rfl
  | adds path script e => exact marks_add b path script e
  | sends i script => exact marks_openSession b i script
  | moves move => exact move.marks

end Bench

/-! ## The fleet -/

/-- A bench whose mail server has this flag. -/
def Bench.under (flagged : Bool) (b : Bench) : Bench := { b with serverFailed := flagged }

@[simp] theorem Bench.standing_under (flagged : Bool) (b : Bench) :
    (b.under flagged).standing = b.standing := rfl

/-- Benches that share a mail server, and the flag of this server. -/
@[ext]
structure Fleet where
  benches : List Bench := []
  flagged : Bool := false
  shared : ∀ b ∈ benches, b.serverFailed = flagged

/-- What anybody may do with the cases, the directories and the server. -/
inductive Call where
  | mark (d i : ℕ) (m : Mark) (message : String)
  /-- A run of a case is completed: its session has ended. -/
  | conclude (d i : ℕ) (ending : Ending)
  | flag (d : ℕ)
  | flagServer

namespace Fleet

/-- The benches with a flag for their server. -/
def share (benches : List Bench) (flagged : Bool) : Fleet where
  benches := benches.map (Bench.under flagged)
  flagged := flagged
  shared := by
    intro b mem
    obtain ⟨b', -, rfl⟩ := List.mem_map.1 mem
    rfl

/-- One bench has become another, which may have flagged the server. -/
def put (f : Fleet) (d : ℕ) (b : Bench) : Fleet := share (f.benches.set d b) b.serverFailed

/-- Does something with one bench. What was done before it throws stays done. -/
def act (f : Fleet) (d : ℕ) (acts : Bench.Acts) : Fleet × Option Thrown :=
  match f.benches[d]? with
  | none => (f, none)
  | some b =>
    match acts.run b with
    | .ok () b' => (f.put d b', none)
    | .error t b' => (f.put d b', some t)

def call (f : Fleet) : Call → Fleet × Option Thrown
  | .mark d i m message => f.act d (Bench.Acts.marks i m message)
  | .conclude d i ending => f.act d (Bench.Acts.concludes i ending)
  | .flag d => f.act d Bench.Acts.flags
  | .flagServer => (share f.benches true, none)

/-- A call, or something else that happens to one of the benches. -/
inductive Step (f : Fleet) : List Call → Fleet → Prop
  | calls (c : Call) : Step f [c] (f.call c).1
  | goesOn {d : ℕ} {b b' : Bench} : f.benches[d]? = some b → b.Onward b' → Step f [] (f.put d b')

/-- Calls and other things, one after another, with all the calls in their order. -/
inductive Course (f : Fleet) : List Call → Fleet → Prop
  | refl : Course f [] f
  | step {calls more : List Call} {f' f'' : Fleet} : Course f calls f' → Step f' more f'' →
      Course f (calls ++ more) f''

variable {f f' f'' : Fleet} {calls more : List Call} {d i : ℕ} {b b' : Bench}

/-- The state of a case. -/
def state? (f : Fleet) (d i : ℕ) : Option CaseState :=
  f.benches[d]?.bind fun b => b.standing.states[i]?

theorem bench_share {benches : List Bench} {flagged : Bool} :
    (share benches flagged).benches[d]? = benches[d]?.map (Bench.under flagged) :=
  List.getElem?_map

theorem share_same (f : Fleet) : share f.benches f.flagged = f := by
  apply Fleet.ext
  · have same : ∀ b ∈ f.benches, { b with serverFailed := f.flagged } = b := by
      intro b mem
      rw [← f.shared b mem]
    exact (List.map_congr_left same).trans (List.map_id _)
  · rfl

theorem put_same (present : f.benches[d]? = some b) : f.put d b = f := by
  obtain ⟨below, found⟩ := List.getElem?_eq_some_iff.1 present
  have flagged : b.serverFailed = f.flagged := f.shared b (List.mem_of_getElem? present)
  rw [put, ← found, List.set_getElem_self below, found, flagged, share_same]

theorem bench_put (present : f.benches[d]? = some b) (b' : Bench) :
    (f.put d b').benches[d]? = some b' := by
  have below : d < f.benches.length := (List.getElem?_eq_some_iff.1 present).choose
  rw [put, bench_share, List.getElem?_set_self below]
  rfl

theorem bench_put_other {e : ℕ} (apart : d ≠ e) (b' : Bench) :
    (f.put d b').benches[e]? = f.benches[e]?.map (Bench.under b'.serverFailed) := by
  rw [put, bench_share, List.getElem?_set_ne apart]

/-- What is done whole or not at all is not seen when it throws. -/
theorem act_whole {acts : Bench.Acts} {r : Except Thrown Bench} (present : f.benches[d]? = some b)
    (run : acts.run b = b.whole r) : f.act d acts = match r with
      | .ok b' => (f.put d b', none)
      | .error t => (f, some t) := by
  rw [act, present]
  cases r with
  | ok b' => simp only [run, Bench.whole]
  | error t => simp only [run, Bench.whole, put_same present]

/-! ## What a step does -/

/-- What a step comes to: nothing, marks on one bench, or one of the flags. -/
inductive Effect (f : Fleet) : List Call → Fleet → Prop
  | none {more : List Call} : (∀ d b, f.benches[d]? = some b → .flag d ∉ more) →
      .flagServer ∉ more → Effect f more f
  | marks {more : List Call} {d : ℕ} {b b' : Bench} : f.benches[d]? = some b → b.Marks b' →
      (∀ e, .flag e ∉ more) → .flagServer ∉ more → Effect f more (f.put d b')
  | flags {d : ℕ} {b : Bench} : f.benches[d]? = some b → Effect f [.flag d] (f.put d b.flag)
  | server : Effect f [.flagServer] (share f.benches true)

theorem Effect.of_act {acts : Bench.Acts} {c : Call} (unflagged : ∀ e, c ≠ .flag e)
    (other : c ≠ .flagServer) (run : ∀ b, ∃ r, acts.run b = b.whole r ∧ ∀ b', r = .ok b' → b.Marks b') :
    Effect f [c] (f.act d acts).1 := by
  have directories : ∀ e, .flag e ∉ [c] := fun e mem => unflagged e (List.mem_singleton.1 mem).symm
  have server : .flagServer ∉ [c] := fun mem => other (List.mem_singleton.1 mem).symm
  cases present : f.benches[d]? with
  | none =>
    rw [act, present]
    exact .none (fun e _ _ => directories e) server
  | some b =>
    obtain ⟨r, ran, marks⟩ := run b
    rw [act_whole present ran]
    cases r with
    | ok b' => exact .marks present (marks b' rfl) directories server
    | error t => exact .none (fun e _ _ => directories e) server

theorem Step.effect (h : Step f more f') : Effect f more f' := by
  cases h with
  | calls c =>
    cases c with
    | mark d i m message =>
      refine .of_act (by simp) (by simp) fun b => ?_
      cases present : b.standing.cases[i]? with
      | none =>
        refine ⟨.ok b, ?_, fun b' same => Except.ok.inj same ▸ .refl b⟩
        cases m <;> exact Bench.run_withCase_absent present _
      | some c => exact ⟨_, Bench.run_marks present m message, fun b' => Bench.marks_markAs present⟩
    | conclude d i ending =>
      refine .of_act (by simp) (by simp) fun b => ?_
      cases present : b.standing.cases[i]? with
      | none =>
        refine ⟨.ok b, ?_, fun b' same => Except.ok.inj same ▸ .refl b⟩
        exact Bench.run_withCase_absent present _
      | some c => exact ⟨_, Bench.run_concludes present ending, fun b' => Bench.marks_conclude⟩
    | flag d =>
      cases present : f.benches[d]? with
      | none =>
        rw [call, act, present]
        refine .none (fun e b there mem => ?_) (by simp)
        obtain rfl : e = d := by simpa using mem
        cases present.symm.trans there
      | some b =>
        rw [call, act, present]
        exact .flags present
    | flagServer => exact .server
  | goesOn present onward => exact .marks present onward.marks (by simp) (by simp)

/-! ## Marks and flags are for good -/

/-- Marks and flags stay. -/
structure Grows (f f' : Fleet) : Prop where
  bench : ∀ (d : ℕ) (b : Bench), f.benches[d]? = some b → ∃ b', f'.benches[d]? = some b' ∧
    b.standing.Keeps b'.standing ∧ (b.standing.failed = true → b'.standing.failed = true)
  server : f.flagged = true → f'.flagged = true

theorem Grows.refl (f : Fleet) : f.Grows f :=
  ⟨fun _ b present => ⟨b, present, fun _ _ marked => marked, fun failed => failed⟩,
    fun flagged => flagged⟩

theorem Grows.trans (h : f.Grows f') (h' : f'.Grows f'') : f.Grows f'' := by
  refine ⟨fun d b present => ?_, fun flagged => h'.server (h.server flagged)⟩
  obtain ⟨b', present', kept, failed⟩ := h.bench d b present
  obtain ⟨b'', present'', kept', failed'⟩ := h'.bench d b' present'
  exact ⟨b'', present'', fun j m marked => kept' j m (kept j m marked),
    fun flagged => failed' (failed flagged)⟩

theorem grows_put (present : f.benches[d]? = some b)
    (kept : b.standing.Keeps b'.standing)
    (failed : b.standing.failed = true → b'.standing.failed = true)
    (server : b.serverFailed = true → b'.serverFailed = true) : f.Grows (f.put d b') := by
  constructor
  · intro e other there
    by_cases same : d = e
    · subst same
      obtain rfl : b = other := Option.some.inj (present.symm.trans there)
      exact ⟨b', bench_put present b', kept, failed⟩
    · refine ⟨other.under b'.serverFailed, ?_, fun _ _ marked => marked, fun flagged => flagged⟩
      rw [bench_put_other same, there]
      rfl
  · intro flagged
    apply server
    rw [f.shared b (List.mem_of_getElem? present), flagged]

theorem Effect.grows (h : Effect f more f') : f.Grows f' := by
  cases h with
  | none => exact .refl f
  | marks present marks =>
    obtain ⟨kept, x, failed, server, -⟩ := marks
    exact grows_put present kept (by rw [failed]; simp +contextual)
      (by rw [server]; simp +contextual)
  | flags present => exact grows_put present (fun _ _ marked => marked) (fun _ => rfl) fun _ => rfl
  | server =>
    refine ⟨fun d b present => ?_, fun _ => rfl⟩
    refine ⟨b.under true, ?_, fun _ _ marked => marked, fun flagged => flagged⟩
    rw [bench_share, present]
    rfl

theorem Course.grows (h : Course f calls f') : f.Grows f' := by
  induction h with
  | refl => exact .refl f
  | step _ step ih => exact ih.trans step.effect.grows

/-! ## What the flags tell -/

/-- Nothing is marked or flagged yet. -/
structure Fresh (f : Fleet) : Prop where
  unfailed : ∀ b ∈ f.benches, b.standing.failed = false
  ready : ∀ b ∈ f.benches, ∀ c ∈ b.standing.cases, c.state = none
  unflagged : f.flagged = false

/-- After these calls the flags tell which directories have a failed case or were flagged
themselves, and whether there is one or the server was flagged itself. -/
structure Sound (f : Fleet) (calls : List Call) : Prop where
  directory : ∀ (d : ℕ) (b : Bench), f.benches[d]? = some b →
    (b.standing.failed = true ↔ some .failed ∈ b.standing.states ∨ .flag d ∈ calls)
  server : f.flagged = true ↔
    (∃ (d : ℕ) (b : Bench), f.benches[d]? = some b ∧ b.standing.failed = true) ∨
      .flagServer ∈ calls

theorem Fresh.sound (h : f.Fresh) : f.Sound [] := by
  constructor
  · intro d b present
    have mem := List.mem_of_getElem? present
    have honest : b.standing.failed = true ↔ some .failed ∈ b.standing.states :=
      Standing.honest_of_ready (h.unfailed b mem) (h.ready b mem)
    simpa using honest
  · rw [h.unflagged]
    refine ⟨by simp, ?_⟩
    rintro (⟨d, b, present, failed⟩ | mem)
    · rw [h.unfailed b (List.mem_of_getElem? present)] at failed
      exact failed
    · cases mem

theorem Sound.put {x : Bool} (h : f.Sound calls) (present : f.benches[d]? = some b)
    (failed : b'.standing.failed = (b.standing.failed || x))
    (server : b'.serverFailed = (b.serverFailed || x))
    (reason : some .failed ∈ b'.standing.states ∨ .flag d ∈ more ↔
      some .failed ∈ b.standing.states ∨ x = true)
    (others : ∀ e, d ≠ e → .flag e ∉ more) (unflagged : .flagServer ∉ more) :
    (f.put d b').Sound (calls ++ more) := by
  have failed : b'.standing.failed = true ↔ b.standing.failed = true ∨ x = true := by
    rw [failed, Bool.or_eq_true]
  constructor
  · intro e other there
    rw [List.mem_append]
    by_cases same : d = e
    · subst same
      obtain rfl : b' = other := Option.some.inj ((bench_put present b').symm.trans there)
      rw [failed, h.directory d b present, or_right_comm, ← reason]
      exact or_assoc.trans (or_congr_right or_comm)
    · rw [bench_put_other same] at there
      obtain ⟨before, stood, rfl⟩ := Option.map_eq_some_iff.1 there
      simpa [others e same] using h.directory e before stood
  · have flagged : (f.put d b').flagged = true ↔ f.flagged = true ∨ x = true := by
      show b'.serverFailed = true ↔ _
      rw [server, f.shared b (List.mem_of_getElem? present), Bool.or_eq_true]
    rw [flagged, h.server, List.mem_append, or_iff_left unflagged, or_right_comm]
    apply or_congr_left
    constructor
    · rintro (⟨e, other, there, lost⟩ | x)
      · by_cases same : d = e
        · subst same
          obtain rfl : b = other := Option.some.inj (present.symm.trans there)
          exact ⟨d, b', bench_put present b', failed.2 (.inl lost)⟩
        · refine ⟨e, other.under b'.serverFailed, ?_, lost⟩
          rw [bench_put_other same, there]
          rfl
      · exact ⟨d, b', bench_put present b', failed.2 (.inr x)⟩
    · rintro ⟨e, other, there, lost⟩
      by_cases same : d = e
      · subst same
        obtain rfl : b' = other := Option.some.inj ((bench_put present b').symm.trans there)
        exact (failed.1 lost).imp_left fun lost => ⟨d, b, present, lost⟩
      · rw [bench_put_other same] at there
        obtain ⟨before, stood, rfl⟩ := Option.map_eq_some_iff.1 there
        exact .inl ⟨e, before, stood, lost⟩

theorem Effect.sound (h : Effect f more f') (sound : f.Sound calls) : f'.Sound (calls ++ more) := by
  cases h with
  | none directories server =>
    constructor
    · intro d b present
      simpa [directories d b present] using sound.directory d b present
    · simpa [server] using sound.server
  | marks present marks directories server =>
    obtain ⟨-, x, failed, flagged, lost⟩ := marks
    exact sound.put present failed flagged (by simp [directories, lost]) (fun e _ => directories e)
      server
  | flags present =>
    refine sound.put (x := true) present (by simp [Bench.flag, Standing.flag]) (by simp [Bench.flag])
      (by simp) (fun e apart => ?_) (by simp)
    simpa using fun same => apart same.symm
  | server =>
    constructor
    · intro d b present
      rw [bench_share] at present
      obtain ⟨before, stood, rfl⟩ := Option.map_eq_some_iff.1 present
      simpa using sound.directory d before stood
    · simp [share]

theorem Course.sound (h : Course f calls f') (fresh : f.Fresh) : f'.Sound calls := by
  induction h with
  | refl => exact fresh.sound
  | step _ step ih => exact step.effect.sound ih

/-! ## The main result -/

/-- A case that is marked already is not marked again: whoever tries it is thrown a fault, and
nothing has changed. -/
theorem call_marked {c : Case} {s : Mark} (present : f.benches[d]? = some b)
    (stands : b.standing.cases[i]? = some c) (marked : c.state = some s) :
    (∀ m message, f.call (.mark d i m message) = (f, some (c.alreadyMarked s m))) ∧
      ∀ ending, f.call (.conclude d i ending) = (f, some (c.thrownBy s ending)) := by
  constructor
  · intro m message
    have ran := Bench.run_marks stands m message
    rw [Bench.markAs_marked stands marked] at ran
    exact act_whole present ran
  · intro ending
    have ran := Bench.run_concludes stands ending
    rw [Bench.conclude_marked stands marked] at ran
    exact act_whole present ran

/-- A case that is ready can be marked. -/
theorem call_ready {c : Case} (present : f.benches[d]? = some b)
    (stands : b.standing.cases[i]? = some c) (ready : c.state = none) (m : Mark)
    (message : String) : ∃ b', f.call (.mark d i m message) = (f.put d b', none) ∧
      b'.standing.states[i]? = some (some m) := by
  obtain ⟨notices, marked⟩ := Bench.markAs_ready stands ready m message
  have ran := Bench.run_marks stands m message
  rw [marked] at ran
  have below : i < b.standing.states.length := by
    rw [Standing.states, List.length_map]
    exact (List.getElem?_eq_some_iff.1 stands).choose
  refine ⟨_, act_whole present ran, ?_⟩
  show (b.standing.cases.set i _ |>.map (·.state))[i]? = _
  rw [List.map_set]
  exact List.getElem?_set_self below

/-- Directories share a mail server, and nothing is marked or flagged at first. Whatever is marked
and flagged then, and however many runs of a case are completed, a case is marked once: the mark
stays, and who tries to mark the case again is thrown a fault and changes nothing. A directory is
flagged if and only if one of its cases has failed or somebody has flagged it, the server if and only
if a directory is flagged or somebody has flagged the server, and the flags stay. -/
theorem marked_once (fresh : f.Fresh) (course : f.Course calls f') (onward : f'.Course more f'') :
    (∀ d i m, f'.state? d i = some (some m) → f''.state? d i = some (some m)) ∧
      (∀ (d i : ℕ) (b : Bench) (c : Case), f'.benches[d]? = some b → b.standing.cases[i]? = some c →
        match c.state with
        | none => ∀ m message, (f'.call (.mark d i m message)).2 = none ∧
            (f'.call (.mark d i m message)).1.state? d i = some (some m)
        | some s =>
          (∀ m message, f'.call (.mark d i m message) = (f', some (c.alreadyMarked s m))) ∧
            ∀ ending, f'.call (.conclude d i ending) = (f', some (c.thrownBy s ending))) ∧
      (∀ (d : ℕ) (b : Bench), f'.benches[d]? = some b →
        (b.standing.failed = true ↔ some .failed ∈ b.standing.states ∨ .flag d ∈ calls)) ∧
      (f'.flagged = true ↔
        (∃ (d : ℕ) (b : Bench), f'.benches[d]? = some b ∧ b.standing.failed = true) ∨
          .flagServer ∈ calls) ∧
      (∀ (d : ℕ) (b : Bench), f'.benches[d]? = some b → b.standing.failed = true →
        ∃ b', f''.benches[d]? = some b' ∧ b'.standing.failed = true) ∧
      (f'.flagged = true → f''.flagged = true) := by
  have sound := course.sound fresh
  have grows := onward.grows
  refine ⟨?_, ?_, sound.directory, sound.server, ?_, grows.server⟩
  · intro d i m marked
    obtain ⟨b, present, state⟩ := Option.bind_eq_some_iff.1 marked
    obtain ⟨b', present', kept, -⟩ := grows.bench d b present
    exact Option.bind_eq_some_iff.2 ⟨b', present', kept i m state⟩
  · intro d i b c present stands
    cases state : c.state with
    | none =>
      intro m message
      obtain ⟨b', called, marked⟩ := call_ready present stands state m message
      rw [called]
      exact ⟨rfl, Option.bind_eq_some_iff.2 ⟨b', bench_put present b', marked⟩⟩
    | some s => exact call_marked present stands state
  · intro d b present failed
    obtain ⟨b', present', -, flagged⟩ := grows.bench d b present
    exact ⟨b', present', flagged failed⟩

/-- Two directories with a case each. -/
def twinFleet : Fleet :=
  let bench : Bench :=
    { standing := ({} : Standing).add "/src/tests/basic/accepted.yaml" []
        (DecisionPattern.expectation { code := 250, stage := .eom }) }
  share [bench, bench] false

theorem fresh_twinFleet : twinFleet.Fresh := by
  refine ⟨?_, ?_, rfl⟩
  all_goals
    intro b mem
    simp only [twinFleet, share, List.map_cons, List.map_nil, List.mem_cons, List.not_mem_nil,
      or_false, or_self] at mem
    subst mem
  · rfl
  · intro c mem
    simp only [Bench.standing_under, Standing.add, List.nil_append, List.mem_singleton] at mem
    subst mem
    rfl

/-- The case of the first directory has failed, and is to be marked passed. -/
theorem marked_once_twin :
    let failed := (twinFleet.call (.mark 0 0 .failed "FAIL")).1
    failed.call (.mark 0 0 .ok "OK") = (failed, some (.fault
      { code := .stateAlreadySet
        message := "accepted.yaml is already failed, cannot mark it ok" })) ∧
      (failed.benches.map fun b => b.standing.failed) = [true, false] ∧ failed.flagged = true := by
  intro failed
  have course : twinFleet.Course [.mark 0 0 .failed "FAIL"] failed := .step .refl (.calls _)
  obtain ⟨-, marked, -, server, -⟩ := marked_once fresh_twinFleet course .refl
  refine ⟨?_, ?_, ?_⟩
  · let c : Case :=
      { index := 0, path := "/src/tests/basic/accepted.yaml", script := [], state := some .failed
        expectation := DecisionPattern.expectation { code := 250, stage := .eom } }
    have again := (marked 0 0 _ c rfl rfl).1 .ok "OK"
    have name : c.filename = "accepted.yaml" := by decide +kernel
    rw [Case.alreadyMarked, name] at again
    exact again
  · decide +kernel
  · exact server.2 (.inl ⟨0, _, rfl, by decide +kernel⟩)

end Fleet

end FilterBench
