import FilterBench.Proofs.PortWait.Settling

/-!
# The error of an aborted wait

A wait that is aborted before a probe connects fails with the error of the probe that failed last,
and with the reason of the abort if none has failed: so it is unless the abort cuts a probe short.
That probe then counts as the last one that failed, for the reason of the abort (`abort_error`), and
the errors of all probes before it are lost (`hung_probe_hides_failure`).
-/
namespace FilterBench.PortWait

variable {timers : Timers} {answers : PortScript} {interval gap since now n m time limit : ℕ}
  {a : Abortion} {w : PortWait} {message text : String}

/-- A probe that started before a time has no outcome before it. -/
def CutShort (answers : PortScript) (gap since limit : ℕ) : Prop :=
  ∃ n start, Starts answers gap since n start ∧ start < limit ∧
    ∀ outcome, (answers n start).outcome? start = some outcome → limit ≤ outcome.1

/-- The message of the last probe that fails before a time. -/
def LastFailure (answers : PortScript) (gap since limit : ℕ) (message : String) : Prop :=
  ∃ n time, Fails answers gap since n time message ∧ time < limit ∧
    ∀ m t text, Fails answers gap since m t text → t < limit → m ≤ n

theorem Fails.unique {t : ℕ} (h : Fails answers gap since n time message)
    (h' : Fails answers gap since n t text) : time = t ∧ message = text := by
  obtain ⟨start, after, started, answer, rfl⟩ := h
  obtain ⟨start', after', started', answer', rfl⟩ := h'
  obtain rfl := started.unique started'
  obtain ⟨rfl, rfl⟩ : after = after' ∧ message = text := by simpa using answer.symm.trans answer'
  exact ⟨rfl, rfl⟩

theorem Fails.since_le (h : Fails answers gap since n time message) : since ≤ time := by
  obtain ⟨start, after, started, -, rfl⟩ := h
  exact Nat.le_trans started.since_le (Nat.le_add_right _ _)

/-- A wait ends once. -/
theorem Ends.unique {t : ℕ} {result result' : Except OtherError Unit}
    (h : Ends timers answers interval since a time result)
    (h' : Ends timers answers interval since a t result') :
    time = t ∧ result = result' := by
  obtain ⟨fuel, w, stopped, ended⟩ := h
  obtain ⟨fuel', w', stopped', ended'⟩ := h'
  have final := wait_final stopped (over_of_result stopped ended) fuel'
  have final' := wait_final stopped' (over_of_result stopped' ended') fuel
  rw [Nat.add_comm, final', Prod.mk.injEq] at final
  obtain ⟨rfl, rfl⟩ := final
  exact ⟨rfl, Option.some.inj (ended.symm.trans ended')⟩

theorem LastFailure.unique (h : LastFailure answers gap since limit message)
    (h' : LastFailure answers gap since limit text) : message = text := by
  obtain ⟨n, time, fails, before, last⟩ := h
  obtain ⟨n', time', fails', before', last'⟩ := h'
  obtain rfl : n = n' := Nat.le_antisymm (last' _ _ _ fails before) (last _ _ _ fails' before')
  exact (fails.unique fails').2

/-- In the pause after a failure that one is the last, and no probe is cut short. -/
theorem Fails.pausing (h : Fails answers gap since n time message) (before : time < limit)
    (within : limit ≤ time + gap) : LastFailure answers gap since limit message ∧
      ¬CutShort answers gap since limit := by
  have latest : ∀ m start, Starts answers gap since m start → start < limit → m ≤ n := by
    intro m start started early
    refine Nat.le_of_not_lt fun later => ?_
    obtain ⟨time', text, fails, ordered⟩ := started.before later
    obtain ⟨rfl, rfl⟩ := h.unique fails
    omega
  refine ⟨⟨n, time, h, before, ?_⟩, ?_⟩
  · rintro m t text ⟨start, after, started, -, rfl⟩ early
    exact latest m start started (by omega)
  · rintro ⟨m, start, started, early, undue⟩
    obtain ⟨first, after, started', answer, rfl⟩ := id h
    rcases Nat.lt_or_eq_of_le (latest m start started early) with earlier | rfl
    · obtain ⟨_, _, ⟨_, after', started'', answer', rfl⟩, ordered⟩ := started'.before earlier
      obtain rfl := started.unique started''
      have late := undue _ (by rw [answer', Attempt.outcome?])
      simp only at late
      omega
    · obtain rfl := started.unique started'
      have late := undue _ (by rw [answer, Attempt.outcome?])
      simp only at late
      omega

/-- A wait that was aborted has the reason of the abort for its error, unless that came in a
pause. -/
theorem Over.error {reason : AbortReason} {e : OtherError}
    (h : Over timers answers interval since a now w) (moment : a.moment? since = some (limit, reason))
    (failed : w.result? = some (.error e)) :
    e = reason.error ∧ (CutShort answers (timers.delay interval) since limit ∨ limit = since) ∨
      ∃ n time message, e = { message := message } ∧
        Fails answers (timers.delay interval) since n time message ∧
        time < limit ∧ limit ≤ time + timers.delay interval := by
  cases h with
  | connected => cases failed
  | cut aborted tried begun undue =>
    subst aborted
    cases moment
    cases failed
    refine .inl ⟨rfl, ?_⟩
    rcases begun with early | ⟨-, rfl⟩
    · exact .inl ⟨_, _, tried.starts, early, undue⟩
    · exact .inr rfl
  | @paused probes message time _ _ aborted tried before within =>
    subst aborted
    cases moment
    cases failed
    obtain ⟨n, time', -, fails, same⟩ := tried.last
    obtain rfl : time' = time := by omega
    exact .inr ⟨n, time', message, rfl, fails, before, within⟩
  | refused aborted =>
    subst aborted
    cases moment
    cases failed
    exact .inl ⟨rfl, .inr rfl⟩

/-- A wait that is aborted before any probe connects ends then and fails: for the reason of the
abort if no probe has failed or if the abort cuts a probe short, and else with the error of the
probe that failed last. -/
theorem abort_error (timers : Timers) (spaced : 0 < interval) {reason : AbortReason}
    (moment : a.moment? since = some (limit, reason))
    (unmet : ∀ n t, Connects answers (timers.delay interval) since n t → limit ≤ t) :
    ∃ e, (∀ time result,
        Ends timers answers interval since a time result ↔ time = limit ∧ result = .error e) ∧
      (CutShort answers (timers.delay interval) since limit → e = reason.error) ∧
      (∀ message, LastFailure answers (timers.delay interval) since limit message →
        ¬CutShort answers (timers.delay interval) since limit → e = { message := message }) ∧
      ((∀ n t message, Fails answers (timers.delay interval) since n t message → limit ≤ t) →
        e = reason.error) := by
  obtain ⟨e, ends⟩ := (ends_error_iff spaced).2 ⟨⟨reason, moment⟩, unmet⟩
  refine ⟨e, fun time result => ⟨fun h => ?_, ?_⟩, ?_⟩
  · obtain ⟨same, equal⟩ := h.unique ends
    exact ⟨same, equal⟩
  · rintro ⟨rfl, rfl⟩
    exact ends
  · obtain ⟨fuel, w, stopped, failed⟩ := ends
    rcases (over_of_result stopped failed).error moment failed with
      ⟨rfl, cut⟩ | ⟨n, time, message, rfl, fails, before, within⟩
    · refine ⟨fun _ => rfl, fun message last uncut => ?_, fun _ => rfl⟩
      rcases cut with cut | rfl
      · exact absurd cut uncut
      · obtain ⟨n, time, fails, early, -⟩ := last
        have begun := fails.since_le
        omega
    · obtain ⟨last, uncut⟩ := fails.pausing before within
      refine ⟨fun cut => absurd cut uncut, fun text last' _ => ?_, fun none => ?_⟩
      · rw [last.unique last']
      · have late := none _ _ _ fails
        omega

/-- Every probe fails at once. -/
def refusing : PortScript := fun _ _ => .settles 0 (some "connect ECONNREFUSED")

theorem not_connects_refusing : ¬Connects refusing 100 0 n time := by
  rintro ⟨start, after, -, answer, -⟩
  cases answer

theorem abort_error_paused :
    0 < 100 ∧ (Abortion.during 250 .default).moment? 0 = some (250, .default) ∧
      (∀ n t, Connects refusing 100 0 n t → 250 ≤ t) ∧
      Ends .limited refusing 100 0 (.during 250 .default) 250
        (.error { message := "connect ECONNREFUSED" }) := by
  have unmet : ∀ n t, Connects refusing 100 0 n t → 250 ≤ t := fun n t connects =>
    absurd connects not_connects_refusing
  have moment : (Abortion.during 250 .default).moment? 0 = some (250, .default) := rfl
  obtain ⟨e, ends, -, last, -⟩ := abort_error .limited (by decide : 0 < 100) moment unmet
  have second : Starts refusing 100 0 1 100 := @Starts.next _ _ _ 0 0 0 _ .first rfl
  have third : Starts refusing 100 0 2 200 := @Starts.next _ _ _ 1 100 0 _ second rfl
  have fails : Fails refusing 100 0 2 200 "connect ECONNREFUSED" := ⟨200, 0, third, rfl, rfl⟩
  obtain ⟨failure, uncut⟩ := fails.pausing (by decide : 200 < 250) (by decide)
  exact ⟨by decide, rfl, unmet, (ends 250 _).2 ⟨rfl, by rw [last _ failure uncut]⟩⟩

/-- The first probe fails, and the second one has no outcome. -/
def refusedThenHung : PortScript := fun n _ =>
  if n = 0 then .settles 0 (some "connect ECONNREFUSED 127.0.0.1:7044") else .never

/-- A wait that is aborted during its second probe does not tell why the first one failed. -/
theorem hung_probe_hides_failure :
    let reason : AbortReason := some { message := "program exited" }
    LastFailure refusedThenHung 10 0 50 "connect ECONNREFUSED 127.0.0.1:7044" ∧
      ¬Ends .limited refusedThenHung 10 0 (.during 50 reason) 50
        (.error { message := "connect ECONNREFUSED 127.0.0.1:7044" }) ∧
      Ends .limited refusedThenHung 10 0 (.during 50 reason) 50
        (.error { message := "program exited" }) := by
  intro reason
  have ends : Ends .limited refusedThenHung 10 0 (.during 50 reason) 50
      (.error { message := "program exited" }) := ⟨3, _, rfl, rfl⟩
  refine ⟨⟨0, 0, ⟨0, 0, .first, rfl, rfl⟩, by decide, ?_⟩, fun told => ?_, ends⟩
  · rintro m t text ⟨start, after, -, answer, -⟩ -
    cases m with
    | zero => exact Nat.le_refl 0
    | succ m => cases answer
  · obtain ⟨-, same⟩ := told.unique ends
    simp at same

end FilterBench.PortWait
