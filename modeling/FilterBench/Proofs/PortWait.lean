import FilterBench.PortWait
import Mathlib.Data.Nat.Notation

/-!
# A wait for a port that goes on

While a wait is not over it probes the port or pauses before the next probe (`Polls`). What is due
next is the success of a probe, or the wait goes on (`polls_proceed`), and then it has come nearer to
any time at which it is sure to be broken off (`ahead`). A wait that is broken off has failed.
-/
namespace FilterBench

/-- When a probe has its outcome that started at a time, and whether it fails then. -/
def Attempt.outcome? (a : Attempt) (start : ℕ) : Option (ℕ × Option String) :=
  match a with
  | .never => none
  | .settles after error => some (start + after, error)

namespace PortWait

/-- How long its pauses are. -/
def gap (w : PortWait) : ℕ := w.timers.delay w.interval

/-- A wait that began at a time and has come to another one. -/
structure Polls (answers : PortScript) (since now : ℕ) (w : PortWait) : Prop where
  script : w.script = answers
  spaced : 0 < w.gap
  due : ∀ time, w.due? = some time → now ≤ time
  phase : (∃ n start, since ≤ start ∧ start ≤ now ∧ w.probes.getLast? = some { start := start } ∧
      w.phase = .probing ((answers n start).outcome? start)) ∨
    ∃ p, since ≤ p.finish ∧ w.pause = some p ∧ w.phase = .pausing

/-- A probe that started after a time has connected at another one, and its socket is closed. -/
def Connected (answers : PortScript) (since time : ℕ) (w : PortWait) : Prop :=
  w.result? = some (.ok ()) ∧ ∃ n start after, since ≤ start ∧ start + after = time ∧
    answers n start = .settles after none ∧
    w.probes.getLast? = some { start := start, closed := some time }

/-- A bound for what can still happen until a time at which the wait is broken off: each pause takes
its time, and a probe fails before a pause. -/
def ahead (limit : ℕ) (w : PortWait) : ℕ :=
  match w.phase, w.pause with
  | .probing (some (time, _)), _ => 2 * (limit - time) + 1
  | .pausing, some p => 2 * (limit + w.gap - p.finish)
  | _, _ => 0

variable {answers : PortScript} {since now limit time : ℕ} {w : PortWait}

theorem due_of_outcome {a : Attempt} {start : ℕ} (phase : w.phase = .probing (a.outcome? start))
    (h : w.due? = some time) : start ≤ time := by
  cases a with
  | never => simp [due?, phase, Attempt.outcome?] at h
  | settles after error =>
    simp only [due?, phase, Attempt.outcome?, Option.map_some, Option.some.injEq] at h
    omega

theorem phase_startProbe (w : PortWait) (now : ℕ) :
    (w.startProbe now).phase = .probing ((w.script w.probes.length now).outcome? now) := by
  rw [startProbe]
  cases w.script w.probes.length now <;> rfl

theorem polls_startProbe (script : w.script = answers) (spaced : 0 < w.gap)
    (begun : since ≤ now) : (w.startProbe now).Polls answers since now := by
  have phase := phase_startProbe w now
  refine ⟨script, spaced, fun time due => due_of_outcome phase due, .inl ?_⟩
  rw [script] at phase
  refine ⟨_, now, begun, Nat.le_refl now, ?_, phase⟩
  rw [startProbe, List.getLast?_concat]

theorem polls_start (timers : Timers) {interval : ℕ} (spaced : 0 < interval) :
    (start timers answers interval now none).Polls answers now now :=
  polls_startProbe rfl (timers.delay_pos spaced) (Nat.le_refl now)

/-- Time passes, but not beyond what is due. -/
theorem Polls.wait (h : w.Polls answers since now) (later : now ≤ time)
    (before : ∀ t, w.due? = some t → time ≤ t) : w.Polls answers since time := by
  refine ⟨h.script, h.spaced, before, ?_⟩
  rcases h.phase with ⟨n, start, begun, started, probing⟩ | pausing
  · exact .inl ⟨n, start, begun, Nat.le_trans started later, probing⟩
  · exact .inr pausing

theorem Polls.unsettled (h : w.Polls answers since now) : w.result? = none := by
  rcases h.phase with ⟨n, start, -, -, -, phase⟩ | ⟨p, -, -, phase⟩ <;> simp [result?, phase]

theorem connected_proceed {n start after : ℕ} (begun : since ≤ start)
    (answer : answers n start = .settles after none)
    (last : w.probes.getLast? = some { start := start })
    (phase : w.phase = .probing (some (start + after, none))) :
    w.proceed.Connected answers since (start + after) := by
  have closed : w.proceed = (w.closeSocket (start + after)).settle (.ok ()) := by
    simp only [proceed, phase]
  refine ⟨by rw [closed, result?, settle], n, start, after, begun, rfl, answer, ?_⟩
  rw [closed, settle, closeSocket]
  simp only [last, List.getLast?_concat]

theorem polls_pause {start after : ℕ} {message : String} (h : w.Polls answers since now)
    (begun : since ≤ start)
    (phase : w.phase = .probing (some (start + after, some message))) :
    w.proceed.Polls answers since (start + after) ∧ w.proceed.ahead limit < w.ahead limit := by
  have paused : w.proceed.phase = .pausing ∧
      w.proceed.pause = some ⟨start + after + w.gap⟩ := by
    simp only [proceed, phase]
    exact ⟨trivial, rfl⟩
  have same : w.proceed.script = w.script ∧ w.proceed.gap = w.gap := by
    simp only [proceed, phase, closeSocket]
    split <;> exact ⟨rfl, rfl⟩
  have spaced := h.spaced
  refine ⟨⟨same.1.trans h.script, by rw [same.2]; exact spaced, ?_,
    .inr ⟨_, ?_, paused.2, paused.1⟩⟩, ?_⟩
  · intro t due
    simp only [due?, paused, Option.map_some, Option.some.injEq] at due
    omega
  · show since ≤ start + after + w.gap
    omega
  · simp only [ahead, paused, phase, same.2]
    omega

theorem polls_probe {p : Pause} (h : w.Polls answers since now) (begun : since ≤ p.finish)
    (pause : w.pause = some p) (phase : w.phase = .pausing) (within : p.finish ≤ limit) :
    w.proceed.Polls answers since p.finish ∧ w.proceed.ahead limit < w.ahead limit := by
  have probed : w.proceed = { w with pause := none }.startProbe p.finish := by
    simp only [proceed, phase, pause]
  have spaced := h.spaced
  rw [probed]
  refine ⟨polls_startProbe (w := { w with pause := none }) h.script spaced begun, ?_⟩
  simp only [ahead, phase, pause, phase_startProbe]
  cases w.script w.probes.length p.finish with
  | never =>
    show 0 < _
    omega
  | settles after error =>
    show 2 * (limit - (p.finish + after)) + 1 < _
    omega

/-- What is due is the success of a probe, or the wait goes on and is nearer to its limit. -/
theorem polls_proceed (h : w.Polls answers since now) (due : w.due? = some time)
    (within : time ≤ limit) : w.proceed.Connected answers since time ∨
      w.proceed.Polls answers since time ∧ w.proceed.ahead limit < w.ahead limit := by
  rcases h.phase with ⟨n, start, begun, started, last, phase⟩ | ⟨p, begun, pause, phase⟩
  · cases answer : answers n start with
    | never => simp [due?, phase, answer, Attempt.outcome?] at due
    | settles after error =>
      rw [answer, Attempt.outcome?] at phase
      obtain rfl : start + after = time := by simpa [due?, phase] using due
      cases error with
      | none => exact .inl (connected_proceed begun answer last phase)
      | some message => exact .inr (polls_pause h begun phase)
  · obtain rfl : p.finish = time := by simpa [due?, phase, pause] using due
    exact .inr (polls_probe h begun pause phase within)

theorem Polls.abort (h : w.Polls answers since now) (now' : ℕ) (reason : AbortReason) :
    ∃ e, (w.abort now' reason).result? = some (.error e) := by
  rcases h.phase with ⟨n, start, -, -, -, phase⟩ | ⟨p, -, -, phase⟩
  · exact ⟨_, by simp only [PortWait.abort, phase]; rfl⟩
  · exact ⟨_, by simp only [PortWait.abort, phase]; rfl⟩

end PortWait

end FilterBench
