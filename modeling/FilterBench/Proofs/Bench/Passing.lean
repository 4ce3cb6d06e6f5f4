import FilterBench.Proofs.Bench.Marking
import FilterBench.Proofs.Session.Acceptance

/-!
# What a passed case says

A case that asks for the code 250 at the end of the message passes if the message was accepted, and
hardly otherwise (`Bench.accepted_of_passed`): a refusal at no particular stage fits every stage that
is expected, so that a server which answers `STARTTLS` or a login with the code 250 passes too, as
these do not accept it. No other command refuses this code at a stage that fits.
-/
namespace FilterBench
open Utf8 Session

/-- Only `STARTTLS` and a login refuse a reply with the code 250 at a stage that fits the end of the
message. -/
theorem Script.Refused.fits {accounts : Accounts} {script : Script} {deals : List Dealing}
    {d : Decision} (h : script.Refused accounts deals d) (code : d.code = 250)
    (stage : d.stage = .any ∨ d.stage = .eom) :
    ∃ pre octets r, deals = pre ++ [.said octets, .got r] ∧ r.code = 250 ∧
      (.startTls ∈ script ∧ octets = commandLine "STARTTLS" ∨ ∃ user, .login user ∈ script ∧
        octets = loginLine (Plain.mechanism ⟨"", user, accounts.passwordFor user⟩)) := by
  cases h with
  | @last step stage' octets codes pre r mem asks other =>
    have code : (r.code : Int) = 250 := code
    have code : r.code = 250 := by omega
    rw [code] at other
    refine ⟨pre, octets, r, rfl, code, ?_⟩
    rcases asks.accepts other with data | ⟨-, ⟨rfl, line⟩ | ⟨user, rfl, line⟩⟩
    · simp [data] at stage
    · exact .inl ⟨mem, line⟩
    · exact .inr ⟨user, mem, line⟩

namespace Bench

variable {b : Bench} {i : ℕ} {c : Case}

/-- The peer of the next session. -/
def nextPeer (b : Bench) : Peer := b.world.peers.headD .absent

theorem case_openSession (present : b.standing.cases[i]? = some c) (script : Script) :
    ∃ transcript, (b.openSession i script).1.standing.cases[i]? =
      some { c with transcript := transcript } := by
  refine ⟨c.transcript ++ (b.openSession i script).2.transcript, ?_⟩
  show (b.standing.cases.modify i _)[i]? = _
  rw [List.getElem?_modify_eq, present]
  rfl

/-- A case that passes when it is played passes by the ending of its session. -/
theorem judged_of_passed (present : b.standing.cases[i]? = some c) (unpassed : c.state ≠ some .ok)
    (passed : (b.runCase i).1.standing.cases[i]?.bind (·.state) = some .ok) :
    ∃ ending, (Session.run b.route b.settings.accounts c.script b.nextPeer).ending = some ending ∧
      c.judge ending = .ok .ok := by
  obtain ⟨transcript, opened⟩ := case_openSession present c.script
  have report : (b.openSession i c.script).2 =
      Session.run b.route b.settings.accounts c.script b.nextPeer := rfl
  rw [runCase, present] at passed
  rcases session : b.openSession i c.script with ⟨o, r⟩
  rw [session] at opened report
  have unchanged : o.standing.cases[i]?.bind (·.state) ≠ some .ok := by
    rw [opened]
    exact unpassed
  simp only [session] at passed
  rw [← report]
  split at passed
  · exact absurd passed unchanged
  · rename_i ending ends
    refine ⟨ending, ends, ?_⟩
    split at passed
    · exact absurd passed unchanged
    · rename_i b' concluded
      have ended : ({ o with now := o.now + r.elapsed }.did .disconnected).standing.cases[i]? =
        some { c with transcript := transcript } := opened
      obtain ⟨-, m, notices, judged, rfl⟩ := conclude_ok ended concluded
      have state : (o.standing.cases.set i { c with transcript := transcript, state := some m })[i]?.bind
          (·.state) = some .ok := passed
      rw [List.getElem?_set_self (List.getElem?_eq_some_iff.1 opened).choose] at state
      cases state
      exact judged

/-- A case that expects the code 250 at the end of the message, and passes: the message was
accepted, or the session has ended with a reply with the code 250 to `STARTTLS` or to a login. -/
theorem accepted_of_passed {part : Option String} (present : b.standing.cases[i]? = some c)
    (expects : c.expectation =
      DecisionPattern.expectation { code := 250, stage := .eom, messagePart := part })
    (unpassed : c.state ≠ some .ok)
    (passed : (b.runCase i).1.standing.cases[i]?.bind (·.state) = some .ok) :
    ∃ greeting deals, dealings b.route b.settings.accounts c.script b.nextPeer =
        .got greeting :: (deals ++ [.closed]) ∧ greeting.code = 220 ∧
      ((∃ up post, deals = up ++ post ∧
          c.script.Accepted b.settings.accounts none none up) ∨
        ∃ pre octets r, deals = pre ++ [.said octets, .got r] ∧ r.code = 250 ∧
          (.startTls ∈ c.script ∧ octets = commandLine "STARTTLS" ∨
            ∃ user, .login user ∈ c.script ∧ octets = loginLine (Plain.mechanism
              ⟨"", user, b.settings.accounts.passwordFor user⟩))) := by
  obtain ⟨ending, ends, judged⟩ := judged_of_passed present unpassed passed
  obtain ⟨d, e, rfl, evaluated, verdict⟩ := Case.judge_ok judged
  rw [expects] at evaluated
  obtain rfl : DecisionPattern.evaluate { code := 250, stage := .eom, messagePart := part } d = e :=
    Except.ok.inj evaluated
  obtain ⟨-, code, stage, -⟩ := DecisionPattern.evaluate_ok.1 verdict
  have stage : d.stage = .any ∨ d.stage = .eom := stage.resolve_left (by simp)
  obtain ⟨greeting, deals, same, fine, ⟨-, up, post, rfl, accepted⟩ | refused⟩ := decided ends
  · exact ⟨greeting, _, same, fine, .inl ⟨up, post, rfl, accepted⟩⟩
  · refine ⟨greeting, deals, same, fine, .inr ?_⟩
    exact refused.fits code stage

/-- A bench with one case that expects its message to be accepted, and a server to play it
against. -/
def messageBench (script : Script) (peer : Peer) : Bench where
  world := { peers := [peer] }
  standing := ({} : Standing).add "/src/tests/basic/accepted.yaml" script
    (DecisionPattern.expectation { code := 250, stage := .eom })

/-- A server that says the same of everything after its greeting. -/
def agreeablePeer : Peer where
  turns := [[.sends (encode "220 hi\r\n")], [.sends (encode "250 ok\r\n")],
    [.sends (encode "250 ok\r\n")]]

/-- The client gives up a secure channel that was refused with the code 250, and the case passes
without a message. -/
theorem refused_upgrade_passes :
    ∃ (b : Bench) (c : Case), b.standing.cases[0]? = some c ∧ c.state = none ∧
      c.expectation = DecisionPattern.expectation { code := 250, stage := .eom } ∧
      (b.runCase 0).1.standing.cases[0]?.bind (·.state) = some .ok ∧
      ¬∃ greeting up post, dealings b.route b.settings.accounts c.script b.nextPeer =
        .got greeting :: up ++ post ∧ greeting.code = 220 ∧
          c.script.Accepted b.settings.accounts none none up := by
  let script : Script := [.helo "me", .startTls, .sender "a", .header [65], .body [66]]
  refine ⟨messageBench script agreeablePeer, _, rfl, rfl, rfl, by decide +kernel, ?_⟩
  rintro ⟨greeting, up, post, deals, fine, accepted⟩
  have queued := queued_of_accepted (by decide) deals fine accepted
  have refused : (Session.run {} {} script agreeablePeer).ending = some (.ok ⟨250, "ok", .any⟩) :=
    decision_of_toOption (by decide +kernel)
  have same := Except.ok.inj (Option.some.inj (refused.symm.trans queued))
  exact absurd same (by decide)

theorem accepted_of_passed_curt :
    ((messageBench [.helo "me", .header [65], .body [66]] curtPeer).runCase 0).1.standing.cases[0]?.bind
        (·.state) = some .ok ∧
      ∃ greeting deals, dealings {} {} [.helo "me", .header [65], .body [66]] curtPeer =
          .got greeting :: (deals ++ [.closed]) ∧ greeting.code = 220 ∧
        ∃ up post, deals = up ++ post ∧
          Script.Accepted {} none none [.helo "me", .header [65], .body [66]] up := by
  have passed : ((messageBench [.helo "me", .header [65], .body [66]]
      curtPeer).runCase 0).1.standing.cases[0]?.bind (·.state) = some .ok := by
    decide +kernel
  obtain ⟨greeting, deals, same, fine, accepted | ⟨_, _, _, _, _, ⟨started, _⟩ | ⟨_, logged, _⟩⟩⟩ :=
    accepted_of_passed (b := messageBench [.helo "me", .header [65], .body [66]] curtPeer) rfl rfl
      (by simp) passed
  · exact ⟨passed, greeting, deals, same, fine, accepted⟩
  · simp at started
  · simp at logged

end Bench

end FilterBench
