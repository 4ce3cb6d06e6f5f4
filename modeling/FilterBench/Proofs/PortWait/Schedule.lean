import FilterBench.Proofs.PortWait

/-!
# The schedule of a wait for a port

The answers of the port alone say when each probe starts if nothing ends the wait: the first one
with the wait, and each other one when the pause after the failure of the one before it is over
(`Starts`). A wait that is not over follows this schedule (`Follows`), and a wait that is over has
done so until a probe connected or until it was aborted (`Over`): that is where every run of a wait
comes to (`wait_cases`), and with enough fuel it does come to its end.
-/
namespace FilterBench.PortWait

/-- Whether a wait is aborted: never, before it is begun, or some milliseconds after that. -/
inductive Abortion where
  | never
  | beforehand (reason : AbortReason)
  | during (later : ℕ) (reason : AbortReason)

namespace Abortion

/-- When a wait that began at a time is aborted, and why. -/
def moment? (since : ℕ) : Abortion → Option (ℕ × AbortReason)
  | .never => none
  | .beforehand reason => some (since, reason)
  | .during later reason => some (since + later, reason)

/-- A time comes before the wait is aborted. -/
def After (since time : ℕ) (a : Abortion) : Prop :=
  ∀ limit reason, a.moment? since = some (limit, reason) → time < limit

end Abortion

/-- A whole wait that is begun at a time; at most `fuel` things happen in it. -/
def wait (timers : Timers) (answers : PortScript) (interval since : ℕ) (a : Abortion) (fuel : ℕ) :
    ℕ × PortWait :=
  match a with
  | .never => run none fuel since (start timers answers interval since none)
  | .beforehand reason => run none fuel since (start timers answers interval since (some reason))
  | .during later reason =>
    run (some (since + later, reason)) fuel since (start timers answers interval since none)

/-- When the probe of a number starts if nothing ends the wait before, and each pause takes `gap`
milliseconds. -/
inductive Starts (answers : PortScript) (gap since : ℕ) : ℕ → ℕ → Prop
  | first : Starts answers gap since 0 since
  | next {n start after : ℕ} {message : String} : Starts answers gap since n start →
      answers n start = .settles after (some message) →
      Starts answers gap since (n + 1) (start + after + gap)

/-- The probe of a number fails at a time. -/
def Fails (answers : PortScript) (gap since n time : ℕ) (message : String) : Prop :=
  ∃ start after, Starts answers gap since n start ∧
    answers n start = .settles after (some message) ∧ time = start + after

/-- The probe of a number connects at a time. -/
def Connects (answers : PortScript) (gap since n time : ℕ) : Prop :=
  ∃ start after, Starts answers gap since n start ∧
    answers n start = .settles after none ∧ time = start + after

/-- Probes that have all failed, the message of the last one, and when the next one starts. -/
inductive Failed (answers : PortScript) (gap since : ℕ) :
    List Probe → Option String → ℕ → Prop
  | none : Failed answers gap since [] none since
  | more {probes : List Probe} {last : Option String} {start after : ℕ} {message : String} :
      Failed answers gap since probes last start →
      answers probes.length start = .settles after (some message) →
      Failed answers gap since
        (probes ++ [{ start := start, closed := some (start + after) }]) (some message)
        (start + after + gap)

variable {timers : Timers} {answers : PortScript} {interval gap since now n m start start' time : ℕ}

section Schedule

theorem Starts.unique (h : Starts answers gap since n start)
    (h' : Starts answers gap since n start') : start = start' := by
  induction h generalizing start' with
  | first =>
    cases h'
    rfl
  | next _ answer ih =>
    cases h' with
    | next h' answer' =>
      obtain rfl := ih h'
      rw [answer] at answer'
      injection answer' with same _
      rw [same]

/-- A probe starts when the pause after the one before it is over, and later than all others. -/
theorem Starts.before (h : Starts answers gap since m start')
    (earlier : n < m) : ∃ time message, Fails answers gap since n time message ∧
      time + gap ≤ start' := by
  induction h with
  | first => omega
  | @next k start after message started answer ih =>
    rcases Nat.lt_succ_iff_lt_or_eq.1 earlier with earlier | rfl
    · obtain ⟨time, text, fails, ordered⟩ := ih earlier
      exact ⟨time, text, fails, by omega⟩
    · exact ⟨_, _, ⟨start, after, started, answer, rfl⟩, Nat.le_refl _⟩

theorem Starts.since_le (h : Starts answers gap since n start) : since ≤ start := by
  induction h with
  | first => exact Nat.le_refl _
  | next _ _ ih => omega

theorem Connects.not_fails {text : String} (h : Connects answers gap since n time) :
    ¬Fails answers gap since n time' text := by
  rintro ⟨start', after', started', answer', -⟩
  obtain ⟨start, after, started, answer, -⟩ := h
  obtain rfl := started.unique started'
  rw [answer] at answer'
  simp at answer'

/-- No probe starts after one that connects. -/
theorem Connects.last (h : Connects answers gap since n time)
    (started : Starts answers gap since m start) : m ≤ n := by
  refine Nat.le_of_not_lt fun later => ?_
  obtain ⟨_, _, fails, -⟩ := started.before later
  exact h.not_fails fails

theorem Failed.starts {probes : List Probe} {last : Option String}
    (h : Failed answers gap since probes last start) :
    Starts answers gap since probes.length start := by
  induction h with
  | none => exact .first
  | more _ answer ih =>
    rw [List.length_append]
    exact .next ih answer

/-- Each of the probes that have failed was on the schedule, and its socket is closed. -/
theorem Failed.of_getElem {probes : List Probe} {last : Option String} {p : Probe}
    (h : Failed answers gap since probes last start) (found : probes[n]? = some p) :
    ∃ after message, Starts answers gap since n p.start ∧
      answers n p.start = .settles after (some message) ∧ p.closed = some (p.start + after) ∧
      p.start + after + gap ≤ start := by
  induction h with
  | none => simp at found
  | @more probes last start after message failed answer ih =>
    rcases Nat.lt_trichotomy n probes.length with within | rfl | beyond
    · rw [List.getElem?_append_left within] at found
      obtain ⟨after', message', started, answer', closed, ordered⟩ := ih found
      exact ⟨after', message', started, answer', closed, by omega⟩
    · rw [List.getElem?_concat_length] at found
      obtain rfl := Option.some.inj found
      exact ⟨after, message, failed.starts, answer, rfl, Nat.le_refl _⟩
    · rw [List.getElem?_eq_none (by simp; omega)] at found
      cases found

/-- The message is that of the last probe of all. -/
theorem Failed.last {probes : List Probe} {message : String}
    (h : Failed answers gap since probes (some message) start) :
    ∃ n time, probes.length = n + 1 ∧ Fails answers gap since n time message ∧
      start = time + gap := by
  cases h with
  | more failed answer =>
    exact ⟨_, _, List.length_append, ⟨_, _, failed.starts, answer, rfl⟩, rfl⟩

end Schedule

/-- A wait whose last probe has no outcome yet. -/
def atProbe (timers : Timers) (answers : PortScript) (interval : ℕ) (probes : List Probe)
    (last : Option String) (start : ℕ) : PortWait where
  timers := timers
  interval := interval
  script := answers
  probes := probes ++ [{ start := start }]
  lastError := last.map fun message => { message := message }
  phase := .probing ((answers probes.length start).outcome? start)

/-- A wait whose last probe has failed at a time. -/
def atPause (timers : Timers) (answers : PortScript) (interval : ℕ) (probes : List Probe)
    (message : String) (time : ℕ) : PortWait where
  timers := timers
  interval := interval
  script := answers
  probes := probes
  lastError := some { message := message }
  pause := some (.begin timers time interval)
  phase := .pausing

/-- A wait that is not over, and when it came there. -/
inductive Follows (timers : Timers) (answers : PortScript) (interval since : ℕ) :
    ℕ → PortWait → Prop
  | probing {probes : List Probe} {last : Option String} {start : ℕ} :
      Failed answers (timers.delay interval) since probes last start →
      Follows timers answers interval since start (atProbe timers answers interval probes last start)
  | pausing {probes : List Probe} {message : String} {time : ℕ} :
      Failed answers (timers.delay interval) since probes (some message) (time + timers.delay interval) →
      Follows timers answers interval since time (atPause timers answers interval probes message time)

/-- A wait that is over, and when: a probe has connected before any abort, the abort cut a probe
short or came in a pause, or nothing was ever begun. -/
inductive Over (timers : Timers) (answers : PortScript) (interval since : ℕ) (a : Abortion) :
    ℕ → PortWait → Prop
  | connected {probes : List Probe} {last : Option String} {start after : ℕ} :
      Failed answers (timers.delay interval) since probes last start →
      answers probes.length start = .settles after none → a.After since (start + after) →
      Over timers answers interval since a (start + after)
        { timers := timers, interval := interval, script := answers
          probes := probes ++ [{ start := start, closed := some (start + after) }]
          lastError := last.map fun message => { message := message }, phase := .settled (.ok ()) }
  | cut {probes : List Probe} {last : Option String} {start later : ℕ} {reason : AbortReason} :
      a = .during later reason → Failed answers (timers.delay interval) since probes last start →
      start < since + later ∨ start = since ∧ later = 0 →
      (∀ outcome, (answers probes.length start).outcome? start = some outcome →
        since + later ≤ outcome.1) →
      Over timers answers interval since a (since + later)
        { timers := timers, interval := interval, script := answers
          probes := probes ++ [{ start := start, closed := some (since + later) }]
          lastError := some reason.error, phase := .settled (.error reason.error) }
  | paused {probes : List Probe} {message : String} {time later : ℕ} {reason : AbortReason} :
      a = .during later reason →
      Failed answers (timers.delay interval) since probes (some message) (time + timers.delay interval) →
      time < since + later → since + later ≤ time + timers.delay interval →
      Over timers answers interval since a (since + later)
        { timers := timers, interval := interval, script := answers, probes := probes
          lastError := some { message := message }
          phase := .settled (.error { message := message }) }
  | refused {reason : AbortReason} : a = .beforehand reason →
      Over timers answers interval since a since
        { timers := timers, interval := interval, script := answers
          phase := .settled (.error reason.error) }

section Steps

variable {probes : List Probe} {last : Option String} {message : String} {w : PortWait}
  {a : Abortion}

theorem start_eq :
    PortWait.start timers answers interval since none =
      atProbe timers answers interval [] none since := by
  rw [PortWait.start, startProbe, atProbe]
  simp only [List.length_nil]
  cases answers 0 since <;> rfl

theorem follows_start :
    Follows timers answers interval since since (PortWait.start timers answers interval since none) :=
  start_eq ▸ .probing .none

/-- When a probe fails, its socket is closed and the pause begins. -/
theorem proceed_failing {after : ℕ} (answer : answers probes.length start =
    .settles after (some message)) : (atProbe timers answers interval probes last start).proceed =
      atPause timers answers interval
        (probes ++ [{ start := start, closed := some (start + after) }]) message
        (start + after) := by
  simp only [PortWait.proceed, atProbe, answer, Attempt.outcome?, closeSocket,
    List.getLast?_concat, List.dropLast_concat, atPause]

/-- When the pause is over, the next probe starts. -/
theorem proceed_pausing : (atPause timers answers interval probes message time).proceed =
    atProbe timers answers interval probes (some message) (time + timers.delay interval) := by
  simp only [PortWait.proceed, atPause, startProbe, atProbe, Option.map_some, Pause.finish_begin]
  cases answers probes.length (time + timers.delay interval) <;> rfl

theorem Follows.unsettled (h : Follows timers answers interval since now w) : w.result? = none := by
  cases h <;> rfl

theorem Over.settled (h : Over timers answers interval since a now w) :
    ∃ result, w.phase = .settled result := by
  cases h <;> exact ⟨_, rfl⟩

/-- What is due is that the wait goes on, or that a probe connects. -/
theorem Follows.proceed (h : Follows timers answers interval since now w) (due : w.due? = some time)
    (before : a.After since time) : Follows timers answers interval since time w.proceed ∨
      Over timers answers interval since a time w.proceed := by
  cases h with
  | @probing probes last _ failed =>
    cases answer : answers probes.length now with
    | never => simp [due?, atProbe, answer, Attempt.outcome?] at due
    | settles after error =>
      obtain rfl : now + after = time := by
        simpa [due?, atProbe, answer, Attempt.outcome?] using due
      cases error with
      | none =>
        simp only [PortWait.proceed, atProbe, answer, Attempt.outcome?, closeSocket, settle,
          List.getLast?_concat, List.dropLast_concat]
        exact .inr (.connected failed answer before)
      | some message =>
        rw [proceed_failing answer]
        exact .inl (.pausing (.more failed answer))
  | @pausing probes message _ failed =>
    obtain rfl : now + timers.delay interval = time := by simpa [due?, atPause] using due
    rw [proceed_pausing]
    exact .inl (.probing failed)

/-- An abort ends the wait, unless something was due before. -/
theorem Follows.abort {later : ℕ} {reason : AbortReason}
    (h : Follows timers answers interval since now w)
    (reached : now < since + later ∨
      now = since ∧ later = 0 ∧ ∃ outcome, w.phase = .probing outcome)
    (undue : ∀ time, w.due? = some time → since + later ≤ time) :
    Over timers answers interval since (.during later reason) (since + later)
      (w.abort (since + later) reason) := by
  cases h with
  | @probing probes last _ failed =>
    simp only [PortWait.abort, atProbe, closeSocket, giveUp, settle, List.getLast?_concat,
      List.dropLast_concat, Option.getD_some]
    refine .cut rfl failed ?_ fun outcome eq => undue outcome.1 ?_
    · exact reached.imp_right fun first => ⟨first.1, first.2.1⟩
    · rw [due?, atProbe, eq]
      rfl
  | @pausing probes message _ failed =>
    simp only [PortWait.abort, atPause, giveUp, settle, Option.getD_some]
    refine .paused rfl failed ?_ (undue _ rfl)
    rcases reached with reached | ⟨-, -, outcome, probing⟩
    · exact reached
    · cases probing

end Steps

section Running

variable {w : PortWait} {a : Abortion} {abortion : Option (ℕ × AbortReason)}

theorem run_settled {result : Except OtherError Unit} (h : w.phase = .settled result)
    (fuel : ℕ) : PortWait.run abortion fuel now w = (now, w) := by
  cases fuel with
  | zero => rfl
  | succ fuel => simp only [PortWait.run, h]

/-- One thing happens in a wait that is not over: what is due, or the abort if it comes first. -/
theorem Follows.run_succ (h : Follows timers answers interval since now w) (fuel : ℕ) :
    PortWait.run abortion (fuel + 1) now w =
      match w.due?, abortion with
      | some t, some (a, reason) =>
        if a ≤ t then (a, w.abort a reason) else PortWait.run abortion fuel t w.proceed
      | some t, none => PortWait.run abortion fuel t w.proceed
      | none, some (a, reason) => (a, w.abort a reason)
      | none, none => (now, w) := by
  cases h <;> rfl

/-- The abort of a wait that is not over is yet to come. -/
def Pending (since now : ℕ) (w : PortWait) : Abortion → Prop
  | .never => True
  | .beforehand _ => False
  | .during later _ =>
    now < since + later ∨ now = since ∧ later = 0 ∧ ∃ outcome, w.phase = .probing outcome

/-- Wherever a wait is stopped that follows its schedule, it still does so or it is over. -/
theorem Follows.run (fuel : ℕ) (h : Follows timers answers interval since now w)
    (pending : Pending since now w a) :
    let r := PortWait.run (a.moment? since) fuel now w
    (Follows timers answers interval since r.1 r.2 ∧ Pending since r.1 r.2 a) ∨
      Over timers answers interval since a r.1 r.2 := by
  induction fuel generalizing now w with
  | zero => exact .inl ⟨h, pending⟩
  | succ fuel ih =>
    rw [h.run_succ]
    cases a with
    | beforehand reason => exact pending.elim
    | never =>
      cases due : w.due? with
      | none => exact .inl ⟨h, trivial⟩
      | some time =>
        rcases h.proceed due (a := .never) (by simp [Abortion.After, Abortion.moment?])
          with h | ended
        · exact ih h trivial
        · obtain ⟨result, settled⟩ := ended.settled
          exact .inr (by simpa only [Abortion.moment?, run_settled settled] using ended)
    | during later reason =>
      cases due : w.due? with
      | none => exact .inr (h.abort pending (by simp [due]))
      | some time =>
        by_cases first : since + later ≤ time
        · simp only [Abortion.moment?, first, if_true]
          exact .inr (h.abort pending (by simp [due, first]))
        · simp only [Abortion.moment?, first, if_false]
          have before : (Abortion.during later reason).After since time := by
            rintro limit reason' ⟨⟩
            omega
          rcases h.proceed due before with h | ended
          · exact ih h (.inl (by omega))
          · obtain ⟨result, settled⟩ := ended.settled
            exact .inr (by simpa only [run_settled settled] using ended)

/-- Wherever a wait is stopped, it follows its schedule or it is over. -/
theorem wait_cases (timers : Timers) (answers : PortScript) (interval since : ℕ) (a : Abortion)
    (fuel : ℕ) :
    let r := wait timers answers interval since a fuel
    (Follows timers answers interval since r.1 r.2 ∧ Pending since r.1 r.2 a) ∨
      Over timers answers interval since a r.1 r.2 := by
  cases a with
  | never => exact follows_start.run (a := .never) fuel trivial
  | beforehand reason =>
    have settled : (PortWait.start timers answers interval since (some reason)).phase =
        .settled (.error reason.error) := rfl
    rw [wait, run_settled settled]
    exact .inr (.refused rfl)
  | during later reason =>
    refine follows_start.run (a := .during later reason) fuel ?_
    rcases Nat.eq_zero_or_pos later with rfl | positive
    · exact .inr ⟨rfl, rfl, _, phase_startProbe _ _⟩
    · exact .inl (by omega)

end Running

end FilterBench.PortWait
