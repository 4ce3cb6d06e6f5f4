import FilterBench.Proofs.Connection.Reaching
import FilterBench.Proofs.Session.Acceptance

/-!
# How long a session takes, and what it leaves

Time passes for a client only while it waits for a reply, for its time limit at most, and while a
handshake goes on (`Connection.run_clock`). A step waits for no more than four replies, and a session
for one more, the greeting (`Session.Passes.waits`). At last the session gives its connection up; nobody
waits then, and nothing happens on the connection any more (`Session.ends_in_time`).
-/
namespace FilterBench
open Utf8 Turnout Session

/-- How long it takes until it turns out. -/
def Attempt.delay : Attempt → ℕ
  | .never => 0
  | .settles after _ => after

/-- The time that some attempts take one after another. -/
def delays (attempts : List Attempt) : ℕ := (attempts.map Attempt.delay).sum

/-- How many of the dealings are waits for a reply. -/
def waits (deals : List Dealing) : ℕ := deals.countP (·.request = .await)

/-- How many of the dealings are handshakes. -/
def upgrades (deals : List Dealing) : ℕ := deals.countP (·.request = .secure)

/-! ## How many replies a step waits for -/

namespace Turnout

/-- However it turns out, no more replies are waited for. -/
def Waits (P : Turnout) (n : ℕ) : Prop := ∀ deals result, P deals result → waits deals ≤ n

variable {P P' : Turnout} {m n : ℕ}

theorem waits_append (first second : List Dealing) :
    waits (first ++ second) = waits first + waits second := List.countP_append

theorem waits_hears {octets : Bytes} {deals : List Dealing} {result : Except Setback Reply}
    (heard : Hears octets deals result) : waits deals ≤ 1 := by
  cases heard with
  | unsaid s => exact Nat.zero_le 1
  | unanswered s => exact Nat.le_refl 1
  | answered r => exact Nat.le_refl 1

theorem waits_asks (octets : Bytes) (codes : List ℕ) : (asks octets codes).Waits 1 := by
  intro deals result asked
  cases asked with
  | fails heard => exact waits_hears heard
  | refused heard _ => exact waits_hears heard
  | accepted heard _ => exact waits_hears heard

theorem waits_andThen (first : P.Waits m) (second : P'.Waits n) : (P.andThen P').Waits (m + n) := by
  intro deals result turnout
  cases turnout with
  | fails failed => exact Nat.le_add_right_of_le (first _ _ failed)
  | goesOn succeeded turnout =>
    have one := first _ _ succeeded
    have other := second _ _ turnout
    rw [waits_append]
    omega

theorem waits_secures : secures.Waits 0 := by
  intro deals result secured
  rw [show deals = [⟨.secure, result⟩] from secured]
  exact Nat.le_refl 0

theorem waits_greets (name : String) : (greets name).Waits 2 := by
  intro deals result turnout
  cases turnout with
  | extended turnout _ => exact Nat.le_succ_of_le (waits_asks _ _ _ _ turnout)
  | old refused _ turnout =>
    have one := waits_asks _ _ _ _ refused
    have other := waits_asks _ _ _ _ turnout
    rw [waits_append]
    omega

theorem waits_introduces (i : Introduction) : (introduces i).Waits 2 := by
  intro deals result turnout
  cases turnout with
  | known => exact Nat.zero_le 2
  | anew turnout => exact waits_greets _ _ _ turnout

theorem waits_logsIn (m : Mechanism) : (logsIn m).Waits 2 := by
  intro deals result turnout
  cases turnout with
  | fails heard | refused heard _ | accepted heard _ => exact Nat.le_succ_of_le (waits_hears heard)
  | uncancelled heard _ heard' | challenged heard _ heard' =>
    have one := waits_hears heard
    have other := waits_hears heard'
    rw [waits_append]
    omega

theorem Waits.mono (h : P.Waits m) (le : m ≤ n) : P.Waits n :=
  fun deals result turnout => (h deals result turnout).trans le

end Turnout

namespace Session

variable {accounts : Accounts} {i : Introduction} {stream : Option Stuffing} {script : Script}
  {deals : List Dealing} {e : Ending}

theorem waits_command {step : Step} {c : Command} (single : step.command? accounts i = some c) :
    c.turnout.Waits 4 := by
  cases step with
  | helo name =>
    cases single
    exact (waits_greets name).mono (by omega)
  | startTls =>
    cases single
    have hello := waits_andThen waits_secures (waits_asks (commandLine ("EHLO " ++ introduced i)) [250])
    exact waits_andThen (waits_introduces i) (waits_andThen (waits_asks _ _) hello)
  | login user =>
    cases single
    exact waits_andThen (waits_introduces i) (waits_logsIn _)
  | sender address =>
    cases single
    exact (waits_andThen (waits_introduces i) (waits_asks _ _)).mono (by omega)
  | recipient address =>
    cases single
    exact (waits_asks _ _).mono (by omega)
  | reset =>
    cases single
    exact (waits_andThen (waits_introduces i) (waits_asks _ _)).mono (by omega)
  | header content => cases single
  | body content => cases single
  | unknown kind => cases single

theorem waits_leaves (h : Leaves deals) : waits deals ≤ 1 := by
  cases h with
  | answered asked | remarked asked =>
    have one := waits_asks _ _ _ _ asked
    rw [waits_append]
    exact one

end Session

/-- No step waits for more than four replies. -/
theorem Script.Plays.waits {accounts : Accounts} {i : Introduction} {stream : Option Stuffing}
    {script : Script} {deals : List Dealing} {e : Ending} (h : script.Plays accounts i stream deals e) :
    waits deals ≤ 4 * script.length := by
  have written : ∀ octets answer (deals : List Dealing),
      FilterBench.waits (⟨.write octets, answer⟩ :: deals) = FilterBench.waits deals :=
    fun _ _ _ => rfl
  induction h with
  | exhausted | unknown | streamless | unfilled => exact Nat.zero_le _
  | goesOn single succeeded _ ih =>
    have one := waits_command single _ _ succeeded
    rw [waits_append, List.length_cons]
    omega
  | fails single failed =>
    have one := waits_command single _ _ failed
    rw [List.length_cons]
    omega
  | unopened asked =>
    have one := waits_asks _ _ _ _ asked
    rw [List.length_cons]
    omega
  | untold asked =>
    have one := waits_asks _ _ _ _ asked
    rw [waits_append, written, List.length_cons]
    simp only [FilterBench.waits, List.countP_nil] at *
    omega
  | opened asked _ ih =>
    have one := waits_asks _ _ _ _ asked
    rw [waits_append, written, List.length_cons]
    omega
  | unaccepted asked =>
    have one := waits_asks _ _ _ _ asked
    rw [written, List.length_cons]
    omega
  | accepted asked leaves =>
    have one := waits_asks _ _ _ _ asked
    have other := waits_leaves leaves
    rw [written, waits_append, List.length_cons]
    omega

/-- A session waits for the greeting besides. -/
theorem Session.Passes.waits {accounts : Accounts} {script : Script} {deals : List Dealing} {e : Ending}
    (h : Passes accounts script deals e) : waits deals ≤ 1 + 4 * script.length := by
  cases h with
  | unanswered | unwelcome =>
    show 1 ≤ _
    omega
  | @greeted greeting deals _ _ plays =>
    have played := plays.waits
    have whole : FilterBench.waits (.got greeting :: (deals ++ [.closed])) =
        FilterBench.waits deals + 1 := by
      rw [FilterBench.waits, List.countP_cons_of_pos rfl, List.countP_append]
      rfl
    omega

/-! ## The clock of a connection -/

namespace Inbox

/-- Who waits gives up at this time. -/
def Until (time : ℕ) (b : Inbox) : Prop := ∀ deadline, b.waiter = .waiting deadline →
  deadline = some time

theorem receives_until (time : ℕ) : Receives (Until time) where
  deliver _ _ := fun _ waiting => (not_waiting_deliver waiting).elim
  fail _ h := by
    intro deadline waiting
    have same := fail_of_waiting waiting
    rw [same] at waiting
    exact h deadline waiting
  read _ _ h := h

end Inbox

namespace Connection

variable {c c' : Connection}

/-- Who waits until some time waits no longer, whatever the peer does and however little of a reply it
sends. -/
theorem playWhile_awaits_now {time : ℕ} (s : Schedule) (early : c.now ≤ time)
    (h : c.inbox.Until time) : (playWhile awaits s c).now ≤ time := by
  fun_induction playWhile awaits s c with
  | case1 c => exact early
  | case2 p rest c wants ih =>
    have moved : (c.play p).now = max c.now p.due := (foldl_act_clock _ _ _).1
    have due : p.due ≤ time := by
      unfold awaits at wants
      split at wants
      · rename_i deadline waiter
        rw [h deadline waiter] at wants
        simp only [Option.all_some, Part.isBefore, Bool.or_eq_true, decide_eq_true_eq,
          Bool.and_eq_true, beq_iff_eq] at wants
        omega
      · cases wants
    apply ih
    · rw [moved]
      exact Nat.max_le.2 ⟨early, due⟩
    · exact (Inbox.receives_until time).steady.play p h
  | case3 p rest c unwanted => exact early

theorem settle_now {time : ℕ} (early : c.now ≤ time) (h : c.inbox.Until time) :
    c.settle.1.now ≤ time := by
  have played := playWhile_awaits_now c.upcoming early h
  have still : (playWhile awaits c.upcoming c).inbox.Until time :=
    (Inbox.receives_until time).steady.playWhile awaits c.upcoming h
  rw [settle]
  split
  · exact played
  · rename_i deadline waiter
    obtain rfl := Option.some.inj (still _ waiter)
    exact Nat.le_refl _
  · exact played

/-- A wait is over by its deadline. -/
theorem await_now (limited : 0 < c.timeout.ms) : c.await.1.now ≤ c.now + c.timeout.ms := by
  rw [await_eq, received_now]
  obtain ⟨r, rest, -, answered⟩ | ⟨s, -, -, answered⟩ | ⟨-, -, answered⟩ := c.answered_cases
  all_goals rw [answered]
  · exact Nat.le_add_right _ _
  · exact Nat.le_add_right _ _
  · refine Nat.le_trans (settle_now (c := c.awaiting) (Nat.le_add_right _ _) ?_)
      (Nat.add_le_add_left (c.timeout.timers.delay_le limited) c.now)
    intro deadline waiting
    simp only [awaiting, Timeout.deadline_of_pos limited, Waiter.waiting.injEq] at waiting
    exact waiting.symm

theorem answer_now (r : Connection × Option String) (a : PeerAct) :
    (answer r a).1.now = r.1.now := by
  obtain same | acts := answer_fst r a
  · rw [same]
  · rw [acts, (act_clock _ _ _).1]

theorem respond_now (c : Connection) : c.respond.1.now = c.now := by
  have turn : ∀ (acts : Turn) r, (acts.foldl answer r).1.now = r.1.now := by
    intro acts
    induction acts with
    | nil => exact fun r => rfl
    | cons a acts ih => exact fun r => (ih _).trans (answer_now r a)
  rw [respond]
  split
  · rfl
  · exact turn _ _

theorem write_now (c : Connection) (data : Bytes) : (c.write data).1.now = c.now := by
  obtain ⟨s, -, same⟩ | ⟨-, -, same⟩ | ⟨-, -, same⟩ := c.write_cases data
  all_goals rw [same]
  · rfl
  · exact respond_now (c.record (.wrote data))

theorem steady_handshakes (attempts : List Attempt) : Steady fun c => c.handshakes = attempts where
  act heard a h := (keeps_act heard _ a).handshakes.trans h
  move _ _ h := h

/-- Only a handshake takes from the handshakes that are to come. -/
theorem perform_handshakes (c : Connection) (q : Request) :
    (c.perform q).1.handshakes = c.handshakes.drop (if q = .secure then 1 else 0) := by
  have steady := steady_handshakes c.handshakes
  cases q with
  | write data =>
    show (c.write data).1.handshakes = c.handshakes
    obtain ⟨s, -, same⟩ | ⟨-, -, same⟩ | ⟨-, -, same⟩ := c.write_cases data
    all_goals rw [same]
    · rfl
    · exact steady.respond (fun _ h => h) (c := c.record (.wrote data)) rfl
  | await =>
    show c.await.1.handshakes = c.handshakes
    rw [await_eq, received_handshakes]
    obtain ⟨r, rest, -, answered⟩ | ⟨s, -, -, answered⟩ | ⟨-, -, answered⟩ := c.answered_cases
    all_goals rw [answered]
    have played := steady.playWhile awaits c.awaiting.upcoming (c := c.awaiting) rfl
    rw [settle]
    split <;> exact played
  | secure =>
    have played : ∀ wanted,
        (playWhile wanted c.forsaken c.handshaking).handshakes = c.handshakes.tail :=
      fun wanted => (steady_handshakes _).playWhile wanted _ (c := c.handshaking) rfl
    show c.secure.1.handshakes = c.handshakes.drop 1
    rw [List.drop_one]
    rcases attempt : c.handshakes.headD (.settles 0 none) with _ | ⟨after, _ | cause⟩
    · rw [secure_of_never attempt]
      exact (steady_handshakes _).playWhile _ _ (c := { c.handshaking with
        dropped := false, spoiled := false }) rfl
    · rw [secure_of_succeeds attempt]
      exact played _
    · rw [secure_of_fails attempt]
      exact played _
  | close =>
    exact (keeps_finish { c with dropped := true } c.listening .closed).handshakes
  | note text => rfl

/-- A wait takes the time limit at most, a handshake its delay, and nothing else takes time. -/
theorem perform_now (limited : 0 < c.timeout.ms) {q : Request} {answer : q.Answer}
    (performed : c.perform q = (c', some answer)) : c'.now ≤ c.now +
      (if q = .await then 1 else 0) * c.timeout.ms +
        delays (c.handshakes.take (if q = .secure then 1 else 0)) := by
  cases q with
  | write data =>
    have same : c'.now = c.now := by
      rw [← write_now c data]
      exact congrArg (·.1.now) performed.symm
    omega
  | await =>
    have ended := await_now limited
    rw [show c.await = (c', some answer) from performed] at ended
    simp only [if_pos, Nat.one_mul]
    exact Nat.le_add_right_of_le ended
  | secure =>
    have performed : c.secure = (c', some answer) := performed
    rw [if_pos rfl]
    rcases attempt : c.handshakes.headD (.settles 0 none) with _ | ⟨after, error⟩
    · rw [secure_of_never attempt] at performed
      cases performed
    have delay : delays (c.handshakes.take 1) = after := by
      rcases attempts : c.handshakes with _ | ⟨a, rest⟩
      all_goals rw [attempts] at attempt
      · cases attempt
        rfl
      · obtain rfl : a = .settles after error := attempt
        rfl
    have finish : c'.now = c.now + after := by
      cases error with
      | none =>
        rw [secure_of_succeeds attempt] at performed
        cases performed
        rfl
      | some cause =>
        rw [secure_of_fails attempt] at performed
        cases performed
        rfl
    omega
  | close =>
    cases performed
    have same : c.close.now = c.now := by
      rw [close]
      cases c.listening <;> rfl
    omega
  | note text =>
    cases performed
    exact Nat.le_add_right_of_le (Nat.le_add_right _ _)

/-- Whatever is asked for is answered if there is a time limit and the handshakes settle. -/
theorem perform_answers (limited : 0 < c.timeout.ms) (settle : ∀ a ∈ c.handshakes, a ≠ .never)
    (q : Request) : ∃ answer, (c.perform q).2 = some answer := by
  by_cases clear : q = .secure
  · subst clear
    show ∃ answer, c.secure.2 = some answer
    rcases attempt : c.handshakes.headD (.settles 0 none) with _ | ⟨after, _ | cause⟩
    · rcases attempts : c.handshakes with _ | ⟨a, rest⟩
      all_goals rw [attempts] at attempt settle
      · cases attempt
      · exact (settle a List.mem_cons_self attempt).elim
    · rw [secure_of_succeeds attempt]
      exact ⟨_, rfl⟩
    · rw [secure_of_fails attempt]
      exact ⟨_, rfl⟩
  · obtain ⟨c', answer, performed, -⟩ := perform_ends limited clear
    rw [performed]
    exact ⟨answer, rfl⟩

/-- A dialogue comes to its end in the time that its waits and its handshakes take. -/
theorem run_clock {α : Type} (d : Dialogue α) (limited : 0 < c.timeout.ms)
    (settle : ∀ a ∈ c.handshakes, a ≠ .never) : ∃ c' a, c.run d = (c', some a) ∧
      c'.now ≤ c.now + waits (c.dealings d) * c.timeout.ms +
        delays (c.handshakes.take (upgrades (c.dealings d))) := by
  induction d generalizing c with
  | done a => exact ⟨c, a, rfl, Nat.le_add_right_of_le (Nat.le_add_right _ _)⟩
  | ask q next ih =>
    obtain ⟨answer, answered⟩ := perform_answers limited settle q
    rcases performed : c.perform q with ⟨c₁, _⟩
    rw [performed] at answered
    obtain rfl : _ = some answer := answered
    obtain ⟨deals, ran⟩ := dealings_ask (k := next) performed
    obtain ⟨es, -, goes⟩ := goes_perform performed
    have now := perform_now limited performed
    have left := perform_handshakes c q
    rw [performed] at left
    have timeout : c₁.timeout = c.timeout := goes.timeout
    obtain ⟨c', a, rest, later⟩ := ih answer (c := c₁) (timeout ▸ limited)
      (fun a mem => settle a (List.mem_of_mem_drop (left ▸ mem)))
    refine ⟨c', a, ran.trans rest, ?_⟩
    have waited : waits (c.dealings (.ask q next)) =
        waits (c₁.dealings (next answer)) + if q = .await then 1 else 0 := by
      rw [deals, waits, List.countP_cons]
      simp only [decide_eq_true_eq]
      rfl
    have taken : delays (c.handshakes.take (upgrades (c.dealings (.ask q next)))) =
        delays (c.handshakes.take (if q = .secure then 1 else 0)) +
          delays (c₁.handshakes.take (upgrades (c₁.dealings (next answer)))) := by
      rw [deals, upgrades, List.countP_cons, Nat.add_comm, List.take_add, delays, List.map_append,
        List.sum_append, left]
      simp only [decide_eq_true_eq]
      rfl
    rw [timeout] at later
    rw [waited, taken, Nat.add_mul]
    omega

/-! ## After the end -/

/-- The channel was given up, nobody waits for a reply, and nothing happens any more. -/
structure AtRest (c : Connection) : Prop where
  dropped : c.dropped = true
  idle : c.Idle
  still : ∀ limit, (c.playUntil limit).history = c.history ∧ (c.playUntil limit).Idle

theorem AtRest.of_dropped (dropped : c.dropped = true) (idle : c.Idle) : c.AtRest where
  dropped := dropped
  idle := idle
  still := by
    -- A peer does nothing on a channel that is over.
    have steady : Steady fun d => d.isOver = true ∧ d.history = c.history ∧ d.Idle := by
      constructor
      · intro d heard a h
        have same : d.act heard a = d := by
          unfold act
          rw [if_pos h.1]
        rw [same]
        exact h
      · intro d now s h
        exact h
    intro limit
    have gone : c.isOver = true := by rw [isOver, dropped, Bool.true_or]
    exact (steady.playWhile _ c.upcoming ⟨gone, rfl, idle⟩).2

theorem close_dropped (c : Connection) : c.close.dropped = true := by
  rw [close]
  cases c.listening <;> rfl

/-- A dialogue that closes the connection at last leaves it given up. -/
theorem dropped_of_run {α : Type} {d : Dialogue α} {a : α} (ran : c.run d = (c', some a))
    (last : (c.dealings d).getLast? = some .closed) : c'.dropped = true := by
  induction d generalizing c with
  | done b => cases last
  | ask q next ih =>
    rcases performed : c.perform q with ⟨c₁, _ | answer⟩
    · rw [(dealings_stuck performed).2] at ran
      cases ran
    obtain ⟨deals, runs⟩ := dealings_ask (k := next) performed
    rw [runs] at ran
    rw [deals, List.getLast?_cons] at last
    rcases more : (c₁.dealings (next answer)).getLast? with _ | x
    · -- It was the last dealing, and the rest is over.
      rw [more] at last
      cases Option.some.inj last
      have final : Leads (next ()) [] (.done a) := by
        rw [← List.getLast?_eq_none_iff.1 more]
        exact leads_dealings ran
      generalize next () = rest at ran final
      cases final
      cases ran
      cases performed
      exact close_dropped c
    · rw [more] at last
      exact ih answer ran (more.trans last)

end Connection

namespace Session

variable {route : Route} {accounts : Accounts} {script : Script} {peer : Peer} {c c' : Connection}
  {e : Ending}

theorem Passes.closes {deals : List Dealing} (h : Passes accounts script deals e) :
    deals.getLast? = some .closed := by
  cases h with
  | unanswered | unwelcome => rfl
  | greeted _ plays => rw [← List.cons_append, List.getLast?_concat]

/-- Whatever a session ends with, its connection is at rest then. -/
theorem atRest_of_run (connects : peer.connect route.host route.port route.timeout = .connected c)
    (ran : c.run (dialogue accounts script) = (c', some e)) : c'.AtRest := by
  obtain ⟨accounted, idle⟩ := Connection.accounted_connected connects
  have quiet := (accounted.run (dialogue accounts script) idle).2
  rw [ran] at quiet
  have passes := passes_of_leads (Connection.leads_dealings ran)
  exact .of_dropped (Connection.dropped_of_run ran passes.closes) (quiet rfl)

/-- How a connection begins: the time that connecting took is over, and no handshake has been begun. -/
theorem clock_connected (connects : peer.connect route.host route.port route.timeout = .connected c) :
    c.now = peer.arrival.delay ∧ c.handshakes = peer.handshakes := by
  obtain ⟨after, arrival, rfl⟩ := Connection.connected_eq connects
  rw [arrival]
  exact ⟨rfl, rfl⟩

/-- With a time limit, a session comes to its end if the peer lets the client connect and finish its
handshakes, and in a bounded time. -/
theorem elapsed_le (limited : 0 < route.timeout.ms) (arrives : peer.arrival ≠ .never)
    (settle : ∀ a ∈ peer.handshakes, a ≠ .never) :
    ∃ e, (run route accounts script peer).ending = some e ∧
      (run route accounts script peer).elapsed ≤ peer.arrival.delay +
        delays (peer.handshakes.take (upgrades (dealings route accounts script peer))) +
          (1 + 4 * script.length) * route.timeout.ms := by
  rcases connects : peer.connect route.host route.port route.timeout with c | ⟨after, s⟩ | _
  · obtain ⟨now, handshakes⟩ := clock_connected connects
    have timeout : c.timeout = route.timeout := (connect_sound connects).2
    obtain ⟨c', e, ran, clock⟩ := Connection.run_clock (dialogue accounts script)
      (timeout ▸ limited) (handshakes ▸ settle)
    have few := (passes_of_leads (Connection.leads_dealings ran)).waits
    have bound := Nat.mul_le_mul_right route.timeout.ms few
    rw [timeout, now, handshakes] at clock
    rw [run_connected connects, ran, dealings_connected connects]
    refine ⟨e, rfl, ?_⟩
    show c'.now ≤ _
    omega
  · obtain ⟨cause, arrival, -⟩ := Connection.failed_eq connects
    have delay : peer.arrival.delay = after := by rw [arrival]; rfl
    rw [run, connects]
    refine ⟨_, rfl, ?_⟩
    show after ≤ _
    omega
  · rw [Peer.connect] at connects
    split at connects
    · rename_i never
      exact (arrives never).elim
    · cases connects
    · cases connects

/-- A session ends in time and cleans up, with any script and any peer. It takes no longer than
connecting and the handshakes take, and the time limit for the greeting and for four replies of each step;
whatever a peer sends without finishing a reply, no wait goes on beyond the limit. Whenever a session
ends, its connection is closed and at rest. -/
theorem ends_in_time (route : Route) (accounts : Accounts) (script : Script) (peer : Peer) :
    (0 < route.timeout.ms → peer.arrival ≠ .never → (∀ a ∈ peer.handshakes, a ≠ .never) →
      ∃ e, (run route accounts script peer).ending = some e ∧
        (run route accounts script peer).elapsed ≤ peer.arrival.delay +
          delays (peer.handshakes.take (upgrades (dealings route accounts script peer))) +
            (1 + 4 * script.length) * route.timeout.ms) ∧
    (∀ c : Connection, 0 < c.timeout.ms →
      (∃ answer, c.await.2 = some answer) ∧ c.await.1.now ≤ c.now + c.timeout.ms) ∧
    ∀ e, (run route accounts script peer).ending = some e →
      (run route accounts script peer).closed = true ∧
      ∀ c, peer.connect route.host route.port route.timeout = .connected c →
        ∃ c', c.run (dialogue accounts script) = (c', some e) ∧ c'.AtRest := by
  refine ⟨elapsed_le, fun c limited => ⟨Connection.await_ends limited, Connection.await_now limited⟩, ?_⟩
  intro e ends
  rcases connects : peer.connect route.host route.port route.timeout with c | ⟨after, s⟩ | _
  · rw [run_connected connects] at ends ⊢
    rcases ran : c.run (dialogue accounts script) with ⟨c', _⟩
    rw [ran] at ends
    obtain rfl : _ = some e := ends
    have rests := atRest_of_run connects ran
    constructor
    · show c'.isClosed = true
      rw [Connection.isClosed, Connection.isOver, rests.dropped, Bool.true_or, Bool.true_or]
    · intro d same
      cases same
      exact ⟨c', ran, rests⟩
  · rw [run, connects]
    refine ⟨rfl, ?_⟩
    intro d same
    cases same
  · rw [run, connects] at ends
    cases ends

/-- A server that keeps the client waiting for each reply as long as it may, and sends lines of a reply for
ever at last. -/
def tricklingPeer : Peer where
  turns :=
    [[.waits 999, .sends (encode "220 hi\r\n")], [.waits 1000, .sends (encode "502 no\r\n")],
      [.waits 1000, .sends (encode "250 ok\r\n")], [.waits 1000, .sends (encode "220 go\r\n")],
      [.waits 400, .sends (encode "250-a\r\n"), .waits 400, .sends (encode "250-b\r\n"),
        .waits 400, .sends (encode "250-c\r\n")]]
  handshakes := [.settles 300 none]

theorem ends_in_time_trickling : ∃ e,
    (run ⟨"mail", 25, { ms := 1000 }⟩ {} [.startTls] tricklingPeer).ending = some e ∧
    (run ⟨"mail", 25, { ms := 1000 }⟩ {} [.startTls] tricklingPeer).elapsed ≤ 5300 ∧
    (run ⟨"mail", 25, { ms := 1000 }⟩ {} [.startTls] tricklingPeer).elapsed = 5299 ∧
    (run ⟨"mail", 25, { ms := 1000 }⟩ {} [.startTls] tricklingPeer).closed = true := by
  obtain ⟨bounded, -, cleans⟩ := ends_in_time ⟨"mail", 25, { ms := 1000 }⟩ {} [.startTls] tricklingPeer
  obtain ⟨e, ends, bound⟩ := bounded (by decide) (by decide) (by decide)
  have upgraded : upgrades (dealings ⟨"mail", 25, { ms := 1000 }⟩ {} [.startTls] tricklingPeer) = 1 := by
    decide +kernel
  rw [upgraded] at bound
  exact ⟨e, ends, bound, by decide +kernel, (cleans e ends).1⟩

end Session

end FilterBench
