import FilterBench.Proofs.PortWait.Schedule

/-!
# When a wait for a port ends, and what it leaves

A wait ends when the first probe connects, if that is before the abort, and else when it is aborted;
it goes on for ever if neither happens. Until then its probes are those of the schedule, one after
the other, and none of them starts too late; and once it is over every socket is closed and no timer
is set (`wait_scheduled`).
-/
namespace FilterBench

/-- The socket of the probe is open at a time. -/
def Probe.isOpen (time : ℕ) (p : Probe) : Bool := p.start ≤ time && p.closed.all (time < ·)

/-- The socket of a probe is closed before another one starts. -/
def Probe.Before (p q : Probe) : Prop := ∃ time, p.closed = some time ∧ time ≤ q.start

namespace PortWait

variable {timers : Timers} {answers : PortScript} {interval gap since now n m start time t : ℕ}
  {a : Abortion} {probes : List Probe} {last : Option String} {w : PortWait}

/-- The wait ends at a time with a result, provided that it goes on for long enough. -/
def Ends (timers : Timers) (answers : PortScript) (interval since : ℕ) (a : Abortion) (time : ℕ)
    (result : Except OtherError Unit) : Prop :=
  ∃ fuel w, wait timers answers interval since a fuel = (time, w) ∧ w.result? = some result

/-- A probe may start at a time: before the abort, or when the wait begins in the very moment in
which it is aborted. -/
def Abortion.Admits (since start : ℕ) (a : Abortion) : Prop :=
  a.After since start ∨ start = since ∧ ∃ reason, a = .during 0 reason

section Reaching

theorem Abortion.After.mono {time' : ℕ} (later : a.After since time') (le : time ≤ time') :
    a.After since time :=
  fun limit reason moment => Nat.lt_of_le_of_lt le (later limit reason moment)

theorem Abortion.After.allowed (later : a.After since time) (le : since ≤ time) :
    ∀ reason, a ≠ .beforehand reason := by
  rintro reason rfl
  have early := later since reason rfl
  omega

theorem wait_eq (allowed : ∀ reason, a ≠ .beforehand reason) (fuel : ℕ) :
    wait timers answers interval since a fuel =
      run (a.moment? since) fuel since (PortWait.start timers answers interval since none) := by
  cases a with
  | beforehand reason => exact absurd rfl (allowed reason)
  | _ => rfl

theorem abort_settled (w : PortWait) (now : ℕ) (reason : AbortReason) :
    ∃ result, (w.abort now reason).phase = .settled result := by
  rw [PortWait.abort]
  split
  · exact ⟨_, rfl⟩
  · exact ⟨_, rfl⟩
  · exact ⟨_, ‹_›⟩

theorem run_stuck (due : w.due? = none) (fuel : ℕ) : run none fuel now w = (now, w) := by
  cases fuel with
  | zero => rfl
  | succ fuel =>
    simp only [run, due]
    split <;> rfl

/-- A wait that was stopped somewhere goes on from there. -/
theorem run_add (abortion : Option (ℕ × AbortReason)) (fuel more now : ℕ) (w : PortWait) :
    run abortion (fuel + more) now w =
      run abortion more (run abortion fuel now w).1 (run abortion fuel now w).2 := by
  induction fuel generalizing now w with
  | zero => rw [Nat.zero_add, run]
  | succ fuel ih =>
    rw [Nat.add_right_comm]
    cases phase : w.phase with
    | settled result => rw [run_settled phase, run_settled phase, run_settled phase]
    | _ =>
      simp only [run, phase]
      split
      · split
        · obtain ⟨result, settled⟩ := abort_settled w _ _
          rw [run_settled settled]
        · exact ih ..
      · exact ih ..
      · obtain ⟨result, settled⟩ := abort_settled w _ _
        rw [run_settled settled]
      · rw [run_stuck ‹_›]

/-- What is due before the abort happens. -/
theorem wait_step {fuel : ℕ} (h : Follows timers answers interval since now w)
    (reached : wait timers answers interval since a fuel = (now, w)) (due : w.due? = some time)
    (begun : since ≤ time) (before : a.After since time) :
    wait timers answers interval since a (fuel + 1) = (time, w.proceed) := by
  have allowed := before.allowed begun
  rw [wait_eq allowed] at reached ⊢
  rw [run_add, reached, h.run_succ]
  cases moment : a.moment? since with
  | none => simp only [due, run]
  | some m =>
    obtain ⟨limit, reason⟩ := m
    have early := before limit reason moment
    simp only [due, Nat.not_le.2 early, if_false, run]

theorem due_probing {after : ℕ} {error : Option String}
    (answer : answers probes.length start = .settles after error) :
    (atProbe timers answers interval probes last start).due? = some (start + after) := by
  simp only [due?, atProbe, answer, Attempt.outcome?, Option.map_some]

/-- Every probe on the schedule is started, unless the wait is aborted before. -/
theorem Starts.reached (h : Starts answers (timers.delay interval) since n start)
    (before : a.After since start) :
    ∃ fuel probes last, probes.length = n ∧
      Failed answers (timers.delay interval) since probes last start ∧
      wait timers answers interval since a fuel =
        (start, atProbe timers answers interval probes last start) := by
  induction h with
  | first =>
    have allowed := before.allowed (Nat.le_refl since)
    exact ⟨0, [], none, rfl, .none, by rw [wait_eq allowed, run, start_eq]⟩
  | @next n start after message started answer ih =>
    have begun := started.since_le
    obtain ⟨fuel, probes, last, rfl, failed, reached⟩ := ih (before.mono (by omega))
    have failing := wait_step (.probing failed) reached (due_probing answer) (by omega)
      (before.mono (by omega))
    rw [proceed_failing answer] at failing
    have later : since ≤ start + after + timers.delay interval := by omega
    have pausing := wait_step (.pausing (.more failed answer)) failing rfl later before
    rw [proceed_pausing] at pausing
    exact ⟨fuel + 2, _, _, List.length_append, .more failed answer, pausing⟩

/-- A wait that is aborted comes to its end. -/
theorem Polls.run_settles {limit : ℕ} {reason : AbortReason} (h : w.Polls answers since now)
    (fuel : ℕ) (enough : w.ahead limit < fuel) :
    ∃ result, (PortWait.run (some (limit, reason)) fuel now w).2.result? = some result := by
  induction fuel generalizing now w with
  | zero => omega
  | succ fuel ih =>
    obtain ⟨e, aborted⟩ := h.abort limit reason
    have unsettled := h.unsettled
    cases phase : w.phase with
    | settled result => simp [result?, phase] at unsettled
    | _ =>
      simp only [PortWait.run, phase]
      cases due : w.due? with
      | none => exact ⟨_, aborted⟩
      | some time =>
        by_cases first : limit ≤ time
        · simp only [first, if_true]
          exact ⟨_, aborted⟩
        · simp only [first, if_false]
          have within : time ≤ limit := by omega
          rcases polls_proceed h due within with ⟨connected, -⟩ | ⟨polls, less⟩
          · have settled : w.proceed.phase = .settled (.ok ()) := by
              rw [result?] at connected
              split at connected
              · rename_i eq
                rw [eq, Option.some.inj connected]
              · cases connected
            rw [run_settled settled]
            exact ⟨_, connected⟩
          · exact ih polls (by omega)

end Reaching

section Ending

/-- A probe that connects does not do so before the last one has started. -/
theorem Connects.started (h : Connects answers gap since n time)
    (latest : Starts answers gap since m start) : start ≤ time := by
  obtain ⟨start', after, started, -, rfl⟩ := id h
  rcases Nat.lt_or_eq_of_le (h.last latest) with earlier | rfl
  · obtain ⟨_, _, ⟨_, _, started', -, rfl⟩, ordered⟩ := started.before earlier
    obtain rfl := started'.unique latest
    omega
  · obtain rfl := started.unique latest
    omega

/-- While the last probe has no outcome before a time, none connects before it. -/
theorem Connects.not_before {limit : ℕ} (h : Connects answers gap since n time)
    (latest : Starts answers gap since m start)
    (undue : ∀ outcome, (answers m start).outcome? start = some outcome → limit ≤ outcome.1) :
    limit ≤ time := by
  obtain ⟨start', after, started, answer, rfl⟩ := id h
  rcases Nat.lt_or_eq_of_le (h.last latest) with earlier | rfl
  · obtain ⟨_, _, ⟨_, after', started', answer', rfl⟩, ordered⟩ := started.before earlier
    obtain rfl := started'.unique latest
    have late := undue _ (by rw [answer', Attempt.outcome?])
    simp only at late
    omega
  · obtain rfl := started.unique latest
    exact undue _ (by rw [answer, Attempt.outcome?])

/-- A wait that is over has resolved because a probe has connected in time, or has failed because
of the abort and no probe connects before. -/
theorem Over.ended (h : Over timers answers interval since a now w) :
    (w.result? = some (.ok ()) ∧ a.After since now ∧
      ∃ n, Connects answers (timers.delay interval) since n now) ∨
    (∃ e reason, w.result? = some (.error e) ∧ a.moment? since = some (now, reason)) ∧
      ∀ n time, Connects answers (timers.delay interval) since n time → now ≤ time := by
  cases h with
  | connected failed answer before =>
    exact .inl ⟨rfl, before, _, _, _, failed.starts, answer, rfl⟩
  | @cut probes last start later reason aborted failed begun undue =>
    subst aborted
    refine .inr ⟨⟨_, reason, rfl, rfl⟩, fun n time connects => ?_⟩
    exact connects.not_before failed.starts undue
  | @paused probes message time later reason aborted failed before undue =>
    subst aborted
    refine .inr ⟨⟨_, reason, rfl, rfl⟩, fun n time connects => ?_⟩
    exact Nat.le_trans undue (connects.started failed.starts)
  | @refused reason aborted =>
    subst aborted
    refine .inr ⟨⟨_, reason, rfl, rfl⟩, fun n time connects => connects.started .first⟩

theorem over_of_result {result : Except OtherError Unit} {fuel : ℕ}
    (h : wait timers answers interval since a fuel = (time, w)) (ended : w.result? = some result) :
    Over timers answers interval since a time w := by
  have cases := wait_cases timers answers interval since a fuel
  simp only [h] at cases
  rcases cases with ⟨follows, -⟩ | ended
  · rw [follows.unsettled] at ended
    cases ended
  · exact ended

/-- A wait resolves when a probe connects before the abort, and at that very moment. -/
theorem ends_ok_iff : Ends timers answers interval since a time (.ok ()) ↔
    (∃ n, Connects answers (timers.delay interval) since n time) ∧ a.After since time := by
  constructor
  · rintro ⟨fuel, w, h, ended⟩
    rcases (over_of_result h ended).ended with ⟨-, before, connects⟩ | ⟨⟨e, reason, failed, -⟩, -⟩
    · exact ⟨connects, before⟩
    · rw [failed] at ended
      cases ended
  · rintro ⟨⟨n, start, after, started, answer, rfl⟩, before⟩
    have begun := started.since_le
    obtain ⟨fuel, probes, last, rfl, failed, reached⟩ := started.reached (before.mono (by omega))
    refine ⟨fuel + 1, _, wait_step (.probing failed) reached (due_probing answer) (by omega)
      before, ?_⟩
    simp only [PortWait.proceed, atProbe, answer, Attempt.outcome?, settle, result?]

/-- A wait fails at the moment of the abort, unless a probe connects before it. -/
theorem ends_error_iff (spaced : 0 < interval) :
    (∃ e, Ends timers answers interval since a time (.error e)) ↔
      (∃ reason, a.moment? since = some (time, reason)) ∧
        ∀ n t, Connects answers (timers.delay interval) since n t → time ≤ t := by
  constructor
  · rintro ⟨e, fuel, w, h, ended⟩
    rcases (over_of_result h ended).ended with ⟨resolved, -⟩ | ⟨⟨e', reason, -, moment⟩, none⟩
    · rw [resolved] at ended
      cases ended
    · exact ⟨⟨reason, moment⟩, none⟩
  · rintro ⟨⟨reason, moment⟩, unmet⟩
    cases a with
    | never => cases moment
    | beforehand reason =>
      cases moment
      exact ⟨_, 0, _, rfl, rfl⟩
    | during later reason =>
      cases moment
      obtain ⟨fuel, result, ended⟩ : ∃ fuel result,
          (wait timers answers interval since (.during later reason) fuel).2.result? = some result :=
        ⟨_, (polls_start timers spaced).run_settles _ (Nat.lt_succ_self _)⟩
      rcases stopped : wait timers answers interval since (.during later reason) fuel with ⟨t, w⟩
      rw [stopped] at ended
      rcases (over_of_result stopped ended).ended with
        ⟨-, before, n, connects⟩ | ⟨⟨e, _, failed, moment⟩, -⟩
      · have early := before _ _ rfl
        have late := unmet n _ connects
        omega
      · injection moment with same
        injection same with same
        exact ⟨e, fuel, w, same ▸ stopped, failed⟩

end Ending

section Probes

theorem Pending.admits
    (h : Pending since start (atProbe timers answers interval probes last start) a) :
    a.Admits since start := by
  cases a with
  | never => exact .inl (by simp [Abortion.After, Abortion.moment?])
  | beforehand reason => exact h.elim
  | during later reason =>
    rcases h with early | ⟨first, rfl, -⟩
    · refine .inl ?_
      rintro limit reason' ⟨⟩
      exact early
    · exact .inr ⟨first, reason, rfl⟩

theorem Pending.after {message : String}
    (h : Pending since time (atPause timers answers interval probes message time) a) :
    a.After since time := by
  cases a with
  | never => simp [Abortion.After, Abortion.moment?]
  | beforehand reason => exact h.elim
  | during later reason =>
    rcases h with early | ⟨-, -, outcome, probing⟩
    · rintro limit reason' ⟨⟩
      exact early
    · cases probing

theorem Failed.start_le {p : Probe} (h : Failed answers gap since probes last start)
    (among : p ∈ probes) : since ≤ p.start ∧ p.start + gap ≤ start := by
  obtain ⟨n, found⟩ := List.mem_iff_getElem?.1 among
  obtain ⟨after, message, started, -, -, ordered⟩ := h.of_getElem found
  exact ⟨started.since_le, by omega⟩

theorem Failed.after {p : Probe} (h : Failed answers gap since probes last start)
    (spaced : 0 < gap) (admits : a.Admits since start) (among : p ∈ probes) :
    a.After since p.start := by
  obtain ⟨begun, ordered⟩ := h.start_le among
  rcases admits with before | ⟨first, -⟩
  · exact before.mono (by omega)
  · omega

/-- The probes of a wait are those that have failed, and perhaps one more; none starts too late. -/
theorem probes_cases (spaced : 0 < interval) {fuel : ℕ}
    (h : wait timers answers interval since a fuel = (now, w)) :
    ∃ probes last start, Failed answers (timers.delay interval) since probes last start ∧
      (∀ p ∈ probes, a.After since p.start) ∧
      (w.probes = probes ∨ a.Admits since start ∧
        ∃ closed, w.probes = probes ++ [{ start := start, closed := closed }]) := by
  have positive := timers.delay_pos spaced
  have cases := wait_cases timers answers interval since a fuel
  simp only [h] at cases
  rcases cases with ⟨follows, pending⟩ | ended
  · cases follows with
    | probing failed =>
      exact ⟨_, _, _, failed, fun p => failed.after positive pending.admits,
        .inr ⟨pending.admits, _, rfl⟩⟩
    | pausing failed =>
      refine ⟨_, _, _, failed, fun p among => ?_, .inl rfl⟩
      have ordered := failed.start_le among
      exact pending.after.mono (by omega)
  · cases ended with
    | connected failed _ before =>
      have admits : a.Admits since _ := .inl (before.mono (Nat.le_add_right _ _))
      exact ⟨_, _, _, failed, fun p => failed.after positive admits, .inr ⟨admits, _, rfl⟩⟩
    | @cut probes last start later reason aborted failed begun _ =>
      subst aborted
      have admits : (Abortion.during later reason).Admits since start := by
        rcases begun with early | ⟨first, rfl⟩
        · refine .inl ?_
          rintro limit reason' ⟨⟩
          exact early
        · exact .inr ⟨first, reason, rfl⟩
      exact ⟨_, _, _, failed, fun p => failed.after positive admits, .inr ⟨admits, _, rfl⟩⟩
    | @paused probes message time later reason aborted failed before _ =>
      subst aborted
      refine ⟨_, _, _, failed, fun p among => ?_, .inl rfl⟩
      have ordered := failed.start_le among
      rintro limit reason' ⟨⟩
      omega
    | refused _ => exact ⟨[], _, _, .none, by simp, .inl rfl⟩

/-- What holds of the probes of a wait wherever it is stopped. -/
structure Orderly (answers : PortScript) (gap since : ℕ) (a : Abortion) (w : PortWait) :
    Prop where
  /-- A probe is on the schedule, and starts when the pause after the failure of the one before it
  is over. -/
  spaced : ∀ n q, w.probes[n + 1]? = some q → ∃ p time message, w.probes[n]? = some p ∧
    Fails answers gap since n time message ∧ p.closed = some time ∧ q.start = time + gap
  single : ∀ time, (w.probes.filter (Probe.isOpen time)).length ≤ 1
  timely : ∀ p ∈ w.probes, a.Admits since p.start
  last : ∀ n time, Connects answers gap since n time → w.probes.length ≤ n + 1
  /-- A timer is armed in a pause only. -/
  armed : ∀ p, w.pause = some p → w.phase = .pausing

/-- What holds of a wait that is over at a time. -/
structure Cleared (now : ℕ) (w : PortWait) : Prop where
  closed : ∀ p ∈ w.probes, ∃ time, p.closed = some time ∧ time ≤ now
  idle : w.due? = none
  unarmed : w.pause = none

/-- Of probes of which each one is closed before the next one starts, one is open at a time. -/
theorem length_open_le (ordered : w.probes.Pairwise Probe.Before) (t : ℕ) :
    (w.probes.filter (Probe.isOpen t)).length ≤ 1 := by
  have both := ordered.filter (Probe.isOpen t)
  have all : ∀ p ∈ w.probes.filter (Probe.isOpen t), p.isOpen t := fun p among =>
    (List.mem_filter.1 among).2
  cases found : w.probes.filter (Probe.isOpen t) with
  | nil => simp
  | cons p rest =>
    cases rest with
    | nil => simp
    | cons q rest =>
      rw [found] at both all
      obtain ⟨time, closed, before⟩ := (List.pairwise_cons.1 both).1 q (by simp)
      have here := all p (by simp)
      have there := all q (by simp)
      simp only [Probe.isOpen, closed, Bool.and_eq_true, decide_eq_true_eq, Option.all_some]
        at here there
      omega

/-- Probes that have failed are closed before the next one starts. -/
theorem Failed.pairwise (h : Failed answers gap since probes last start)
    (closed : Option ℕ) :
    List.Pairwise Probe.Before (probes ++ [{ start := start, closed := closed }]) := by
  induction h generalizing closed with
  | none => exact List.pairwise_singleton ..
  | @more probes last start after message failed answer ih =>
    refine List.pairwise_append.2 ⟨ih _, List.pairwise_singleton .., fun p among q next => ?_⟩
    obtain rfl := List.mem_singleton.1 next
    obtain ⟨n, found⟩ := List.mem_iff_getElem?.1 among
    obtain ⟨after', _, _, _, closed, ordered⟩ := (Failed.more failed answer).of_getElem found
    exact ⟨_, closed, Nat.le_trans (Nat.le_add_right _ _) ordered⟩

/-- The probes of a wait are on its schedule, and all but the last one have failed. -/
theorem Failed.on_schedule {ps : List Probe} {p : Probe}
    (h : Failed answers gap since probes last start)
    (shape : ps = probes ∨ ∃ closed, ps = probes ++ [{ start := start, closed := closed }])
    (found : ps[n]? = some p) : Starts answers gap since n p.start ∧
      ∀ m < n, ∃ q, ps[m]? = some q ∧ probes[m]? = some q := by
  rcases shape with rfl | ⟨closed, rfl⟩
  · obtain ⟨_, _, started, -⟩ := h.of_getElem found
    obtain ⟨within, -⟩ := List.getElem?_eq_some_iff.1 found
    refine ⟨started, fun m earlier => ⟨ps[m], ?_, ?_⟩⟩ <;> exact List.getElem?_eq_getElem _
  · obtain ⟨within, eq⟩ := List.getElem?_eq_some_iff.1 found
    rw [List.length_append, List.length_singleton] at within
    refine ⟨?_, fun m earlier => ⟨probes[m], ?_, List.getElem?_eq_getElem _⟩⟩
    · rcases Nat.lt_succ_iff_lt_or_eq.1 within with within | rfl
      · rw [List.getElem?_append_left within] at found
        obtain ⟨_, _, started, -⟩ := h.of_getElem found
        exact started
      · rw [List.getElem?_concat_length] at found
        obtain rfl := Option.some.inj found
        exact h.starts
    · rw [List.getElem?_append_left (by omega), List.getElem?_eq_getElem]

/-- The pause that goes on is that of the phase of a wait. -/
theorem wait_armed {fuel : ℕ} (h : wait timers answers interval since a fuel = (now, w)) {p : Pause}
    (pause : w.pause = some p) : w.phase = .pausing := by
  have cases := wait_cases timers answers interval since a fuel
  simp only [h] at cases
  rcases cases with ⟨follows, -⟩ | ended
  · cases follows with
    | probing => cases pause
    | pausing => rfl
  · cases ended <;> cases pause

theorem wait_orderly (spaced : 0 < interval) {fuel : ℕ}
    (h : wait timers answers interval since a fuel = (now, w)) :
    Orderly answers (timers.delay interval) since a w := by
  obtain ⟨probes, last, start, failed, before, shape⟩ := probes_cases spaced h
  have within : w.probes = probes ∨
      ∃ closed, w.probes = probes ++ [{ start := start, closed := closed }] :=
    shape.imp_right And.right
  constructor
  case spaced =>
    intro n q found
    obtain ⟨started, earlier⟩ := failed.on_schedule within found
    obtain ⟨p, here, there⟩ := earlier n (Nat.lt_succ_self n)
    obtain ⟨after, message, started', answer, closed, -⟩ := failed.of_getElem there
    exact ⟨p, _, message, here, ⟨_, after, started', answer, rfl⟩, closed,
      started.unique (.next started' answer)⟩
  case single =>
    refine length_open_le ?_
    rcases within with eq | ⟨closed, eq⟩
    · rw [eq]
      exact (List.pairwise_append.1 (failed.pairwise none)).1
    · rw [eq]
      exact failed.pairwise closed
  case timely =>
    intro p among
    rcases shape with eq | ⟨admits, closed, eq⟩
    · exact .inl (before p (eq ▸ among))
    · rw [eq] at among
      rcases List.mem_append.1 among with among | among
      · exact .inl (before p among)
      · rw [List.mem_singleton.1 among]
        exact admits
  case last =>
    intro n time connects
    have latest := connects.last failed.starts
    rcases within with eq | ⟨closed, eq⟩
    · rw [eq]
      omega
    · rw [eq, List.length_append, List.length_singleton]
      omega
  case armed => exact fun p => wait_armed h

theorem Failed.closed {p : Probe} (h : Failed answers gap since probes last start)
    (among : p ∈ probes) : ∃ time, p.closed = some time ∧ time + gap ≤ start := by
  obtain ⟨n, found⟩ := List.mem_iff_getElem?.1 among
  obtain ⟨after, _, _, _, closed, ordered⟩ := h.of_getElem found
  exact ⟨_, closed, ordered⟩

theorem Failed.closed_concat {p : Probe} (h : Failed answers gap since probes last start)
    (begun : start ≤ now) (among : p ∈ probes ++ [{ start := start, closed := some now }]) :
    ∃ time, p.closed = some time ∧ time ≤ now := by
  rcases List.mem_append.1 among with among | among
  · obtain ⟨time, closed, ordered⟩ := h.closed among
    exact ⟨time, closed, by omega⟩
  · rw [List.mem_singleton.1 among]
    exact ⟨now, rfl, Nat.le_refl now⟩

/-- Once a wait is over, its sockets are closed and no pause goes on. -/
theorem Over.cleared (h : Over timers answers interval since a now w) : w.Cleared now := by
  cases h with
  | @connected probes last start after failed answer before =>
    exact ⟨fun p => failed.closed_concat (Nat.le_add_right _ _), rfl, rfl⟩
  | cut aborted failed begun undue =>
    refine ⟨fun p => failed.closed_concat ?_, rfl, rfl⟩
    omega
  | paused aborted failed before undue =>
    refine ⟨fun p among => ?_, rfl, rfl⟩
    obtain ⟨time, closed, ordered⟩ := failed.closed among
    exact ⟨time, closed, by omega⟩
  | refused aborted => exact ⟨by simp, rfl, rfl⟩

/-- Once a wait is over, nothing more happens in it. -/
theorem wait_final {fuel : ℕ} (h : wait timers answers interval since a fuel = (now, w))
    (ended : Over timers answers interval since a now w) (more : ℕ) :
    wait timers answers interval since a (fuel + more) = (now, w) := by
  obtain ⟨result, settled⟩ := ended.settled
  cases a <;> simp only [wait] at h ⊢ <;> rw [run_add, h, run_settled settled]

/-- A probe on the schedule that the abort admits is started. -/
theorem Starts.probed (h : Starts answers (timers.delay interval) since n start) (spaced : 0 < interval)
    (admits : a.Admits since start) :
    ∃ fuel p, (wait timers answers interval since a fuel).2.probes[n]? = some p ∧
      p.start = start := by
  rcases admits with before | ⟨rfl, reason, rfl⟩
  · obtain ⟨fuel, probes, last, rfl, failed, reached⟩ := h.reached before
    exact ⟨fuel, { start := start }, by rw [reached]; exact List.getElem?_concat_length, rfl⟩
  · obtain rfl : n = 0 := by
      rcases Nat.eq_zero_or_pos n with rfl | later
      · rfl
      · obtain ⟨_, _, ⟨_, _, started, -, rfl⟩, ordered⟩ := h.before later
        have begun := started.since_le
        have positive := timers.delay_pos spaced
        omega
    exact ⟨0, { start := start }, by rw [wait, run, start_eq]; rfl, rfl⟩

end Probes

/-- A wait for a port with any answers of the port, a pause that is not empty and any abort.
It resolves just when a probe connects before the abort, and fails just when it is aborted before
any probe connects; so it goes on for ever if neither happens. Each probe on the schedule that the
abort admits is started, and the wait starts no others: they come in order, one at a time. Once it
is over it stays as it is, with every socket closed and no timer left. -/
theorem wait_scheduled (timers : Timers) (answers : PortScript) {interval : ℕ}
    (spaced : 0 < interval) (since : ℕ) (a : Abortion) :
    (∀ time, Ends timers answers interval since a time (.ok ()) ↔
      (∃ n, Connects answers (timers.delay interval) since n time) ∧ a.After since time) ∧
    (∀ time, (∃ e, Ends timers answers interval since a time (.error e)) ↔
      (∃ reason, a.moment? since = some (time, reason)) ∧
        ∀ n t, Connects answers (timers.delay interval) since n t → time ≤ t) ∧
    (∀ n start, (∃ fuel p, (wait timers answers interval since a fuel).2.probes[n]? = some p ∧
        p.start = start) ↔
      Starts answers (timers.delay interval) since n start ∧ a.Admits since start) ∧
    ∀ fuel now w, wait timers answers interval since a fuel = (now, w) →
      Orderly answers (timers.delay interval) since a w ∧
        (w.result?.isSome → w.Cleared now ∧
          ∀ more, wait timers answers interval since a (fuel + more) = (now, w)) := by
  refine ⟨fun time => ends_ok_iff, fun time => ends_error_iff spaced, fun n start => ⟨?_, ?_⟩, ?_⟩
  · rintro ⟨fuel, p, found, rfl⟩
    rcases stopped : wait timers answers interval since a fuel with ⟨now, w⟩
    rw [stopped] at found
    obtain ⟨probes, last, start, failed, -, shape⟩ := probes_cases spaced stopped
    exact ⟨(failed.on_schedule (shape.imp_right And.right) found).1,
      (wait_orderly spaced stopped).timely p (List.mem_of_getElem? found)⟩
  · rintro ⟨started, admits⟩
    exact started.probed spaced admits
  · intro fuel now w stopped
    refine ⟨wait_orderly spaced stopped, fun ended => ?_⟩
    obtain ⟨result, settled⟩ := Option.isSome_iff_exists.1 ended
    have done := over_of_result stopped settled
    exact ⟨done.cleared, wait_final stopped done⟩

/-- The third probe connects. -/
def lateOpening : PortScript := fun n _ =>
  if n < 2 then .settles 3 (some "connect ECONNREFUSED") else .settles 5 none

theorem wait_scheduled_late :
    let r := wait .limited lateOpening 10 0 (.during 500 .default) 5
    0 < 10 ∧ r.2.probes = [⟨0, some 3⟩, ⟨13, some 16⟩, ⟨26, some 31⟩] ∧
      Ends .limited lateOpening 10 0 (.during 500 .default) 31 (.ok ()) ∧
      Orderly lateOpening 10 0 (.during 500 .default) r.2 ∧ r.2.Cleared 31 := by
  obtain ⟨resolves, -, -, stopped⟩ :=
    wait_scheduled .limited lateOpening (by decide : 0 < 10) 0 (.during 500 .default)
  have second : Starts lateOpening 10 0 1 13 := @Starts.next _ _ _ 0 0 3 _ .first rfl
  have third : Starts lateOpening 10 0 2 26 := @Starts.next _ _ _ 1 13 3 _ second rfl
  have connects : Connects lateOpening 10 0 2 31 := ⟨26, 5, third, rfl, rfl⟩
  have before : (Abortion.during 500 .default).After 0 31 := by
    rintro limit reason ⟨⟩
    decide
  obtain ⟨orderly, cleared⟩ := stopped 5 31 _ rfl
  exact ⟨by decide, rfl, (resolves 31).2 ⟨⟨2, connects⟩, before⟩, orderly, (cleared rfl).1⟩

/-- The second probe connects. -/
def secondOpening : PortScript := fun n _ =>
  if n = 0 then .settles 0 (some "connect ECONNREFUSED") else .settles 0 none

/-- A pause that is longer than limited timers can be set for is over after one millisecond. -/
theorem overlong_pause_cut :
    let r := wait .limited secondOpening 2147483648 0 .never 3
    Ends .limited secondOpening 2147483648 0 .never 1 (.ok ()) ∧
      r.2.probes = [⟨0, some 0⟩, ⟨1, some 1⟩] ∧ Starts secondOpening 2147483648 0 1 2147483648 ∧
      ¬Orderly secondOpening 2147483648 0 .never r.2 := by
  refine ⟨⟨3, _, rfl, rfl⟩, rfl, @Starts.next _ _ _ 0 0 0 _ .first rfl, fun orderly => ?_⟩
  obtain ⟨p, time, message, first, -, closed, begun⟩ := orderly.spaced 0 ⟨1, some 1⟩ rfl
  cases first
  cases closed
  cases begun

end PortWait

end FilterBench
