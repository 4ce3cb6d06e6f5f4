import FilterBench.Proofs.Session.Refusals
import FilterBench.Proofs.Session.SecureChannel

/-!
# When a message is accepted

A session tells that its message was queued exactly if the message was accepted in its dealings
with the peer (`Session.queued_iff`): the greeting and every command before were answered as they
have to be, the content was written to an open stream, and the reply to the end mark has the code
250. Whatever the peer does from then on, the session tells the same.
-/
namespace FilterBench
open Utf8 Turnout Session

theorem Script.Refused.ne_queued {accounts : Accounts} {script : Script} {deals : List Dealing}
    {d : Decision} (h : script.Refused accounts deals d) : d ≠ .queued := by
  cases h with
  | @last step stage octets codes pre r mem asks other =>
    intro same
    simp only [Decision.queued, Decision.mk.injEq] at same
    obtain ⟨code, -, stage⟩ := same
    have code : r.code = 250 := by omega
    rw [code] at other
    have elsewhere := asks.accepts other
    rw [stage] at elsewhere
    simp at elsewhere

namespace Session

/-- The dealings of a session with its peer; there are none if the client does not reach it. -/
def dealings (route : Route) (accounts : Accounts) (script : Script) (peer : Peer) : List Dealing :=
  match peer.connect route.host route.port route.timeout with
  | .connected c => c.dealings (dialogue accounts script)
  | _ => []

variable {route : Route} {accounts : Accounts} {script : Script} {peer : Peer}

theorem run_connected {c : Connection}
    (connects : peer.connect route.host route.port route.timeout = .connected c) :
    run route accounts script peer = report (c.run (dialogue accounts script)) := by
  rw [run, connects]

theorem dealings_connected {c : Connection}
    (connects : peer.connect route.host route.port route.timeout = .connected c) :
    dealings route accounts script peer = c.dealings (dialogue accounts script) := by
  rw [dealings, connects]

theorem connect_sound {c : Connection} {host : String} {port : ℕ} {timeout : Timeout}
    (connects : peer.connect host port timeout = .connected c) :
    c.inbox.Sound ∧ c.timeout = timeout := by
  obtain ⟨after, -, rfl⟩ := Connection.connected_eq connects
  refine ⟨⟨?_, ?_⟩, rfl⟩
  · intro s failed
    cases failed
  · intro s answered
    cases answered

theorem sound_dealings : ∀ x ∈ dealings route accounts script peer, x.Sound := by
  rw [dealings]
  split
  · rename_i c connects
    exact Connection.sound_dealings (connect_sound connects).1
  · intro x hx
    cases hx

/-- What the client did in a session, as its history shows it, are its dealings. -/
theorem traced_history : Traced (dealings route accounts script peer)
    ((run route accounts script peer).history.filter Event.isOwn) := by
  rw [dealings, run]
  rcases connects : peer.connect route.host route.port route.timeout with c | ⟨after, s⟩ | _
  · obtain ⟨es, traced, goes⟩ := Connection.traced_run (dialogue accounts script) c
    have own : (c.run (dialogue accounts script)).1.history.filter Event.isOwn = es := by
      rw [goes.own, Connection.fresh_connected connects]
      rfl
    show Traced _ ((c.run (dialogue accounts script)).1.history.filter Event.isOwn)
    rwa [own]
  · exact .nil
  · exact .nil

/-- A session that comes to a decision has passed so. -/
theorem passes_of_decided {d : Decision} (h : (run route accounts script peer).ending = some (.ok d)) :
    Passes accounts script (dealings route accounts script peer) (.ok d) := by
  rw [run] at h
  rw [dealings]
  split at h
  · cases h
  · cases h
  · rename_i c connects
    rcases ran : c.run (dialogue accounts script) with ⟨c', e⟩
    rw [ran] at h
    obtain rfl : e = some (.ok d) := h
    rw [connects]
    exact passes_of_leads (Connection.leads_dealings ran)

/-- A decision is that the message was accepted, or a refusal. -/
theorem decided {d : Decision} (h : (run route accounts script peer).ending = some (.ok d)) :
    ∃ greeting deals, dealings route accounts script peer = .got greeting :: (deals ++ [.closed]) ∧
      greeting.code = 220 ∧
      ((d = .queued ∧ ∃ up post, deals = up ++ post ∧ script.Accepted accounts none none up) ∨
        script.Refused accounts deals d) := by
  have sound : ∀ x ∈ dealings route accounts script peer, x.Sound := sound_dealings
  have passes := passes_of_decided h
  rcases same : dealings route accounts script peer with _ | ⟨_, _⟩
  all_goals
    rw [same] at passes sound
    cases passes
  rename_i greeting deals fine plays
  refine ⟨greeting, deals, rfl, fine, plays.decided ?_ rfl⟩
  intro x hx
  exact sound x (by simp [hx])

/-- Taking leave is no handshake. -/
theorem inClear_leaving (i : Introduction) : ((leaving.run.run i).bind closing).InClear := by
  have closes : ∀ r : Except Ending Decision × Introduction, (closing r).InClear :=
    fun r => .ask (by simp) fun _ => .done _
  refine .ask (by simp) ?_
  rintro (s | _)
  · exact .ask (by simp) fun _ => .ask (by simp) fun _ => closes (.ok .queued, i)
  · refine .ask (by simp) ?_
    rintro (s | r)
    · exact .ask (by simp) fun _ => .ask (by simp) fun _ => closes (.ok .queued, i)
    · show (((during .any (afterQuit r) >>= fun _ => (pure .queued : Play Decision)).run.run i).bind
        closing).InClear
      rw [afterQuit, Client.expect]
      split
      · exact .ask (by simp) fun _ => closes (.ok .queued, i)
      · exact .ask (by simp) fun _ => .ask (by simp) fun _ => closes (.ok .queued, i)

/-- Whatever the peer does after it has accepted the message, the session tells that it was queued. -/
theorem queued_of_accepted (limited : 0 < route.timeout.ms) {greeting : Reply} {up post : List Dealing}
    (deals : dealings route accounts script peer = .got greeting :: up ++ post)
    (fine : greeting.code = 220) (accepted : script.Accepted accounts none none up) :
    (run route accounts script peer).ending = some (.ok .queued) := by
  obtain ⟨j, leads⟩ := leads_dialogue fine accepted
  rw [dealings] at deals
  split at deals
  · rename_i c connects
    obtain ⟨sound, timeout⟩ := connect_sound connects
    have within : (.got greeting :: up) <+: c.dealings (dialogue accounts script) := by
      rw [deals]
      exact List.prefix_append _ _
    have keeps : Connection.Performs fun c => c.timeout = route.timeout := by
      intro c c' q answer same performed
      obtain ⟨es, -, goes⟩ := Connection.goes_perform performed
      exact goes.timeout.trans same
    obtain ⟨d, c₁, leads', same, ran⟩ := Connection.run_of_dealings keeps timeout within
    obtain rfl := leads.unique leads'
    have limited : 0 < c₁.timeout.ms := by rwa [same]
    obtain ⟨c', e, ended⟩ := Connection.run_ends (inClear_leaving j) limited
    have left := Connection.leads_dealings ended
    obtain ⟨first, ⟨result, i⟩, second, -, leaves, closes⟩ := Leads.bind_iff.1 left
    obtain ⟨-, rfl, -⟩ := comes_leaving.1 leaves
    obtain ⟨_, -, rfl⟩ := Leads.request_iff.1 closes
    rw [run, connects]
    show (c.run (dialogue accounts script)).2 = _
    rw [ran, ended]
    rfl
  · cases deals

/-- A session tells that its message was queued if and only if, after the greeting, every command
before was answered as it has to be, the content and its end mark were written to an open stream,
and the reply to the end mark has the code 250. What comes after this reply does not count. -/
theorem queued_iff (limited : 0 < route.timeout.ms) :
    (run route accounts script peer).ending = some (.ok .queued) ↔
      ∃ greeting up post, dealings route accounts script peer = .got greeting :: up ++ post ∧
        greeting.code = 220 ∧ script.Accepted accounts none none up := by
  constructor
  · intro queued
    obtain ⟨greeting, deals, same, fine, ⟨-, up, post, rfl, accepted⟩ | refused⟩ := decided queued
    · refine ⟨greeting, up, post ++ [.closed], ?_, fine, accepted⟩
      rw [same, List.append_assoc]
      rfl
    · exact absurd rfl refused.ne_queued
  · rintro ⟨greeting, up, post, deals, fine, accepted⟩
    exact queued_of_accepted limited deals fine accepted

theorem decision_of_toOption {ending : Option Ending} {d : Decision}
    (h : ending.bind Except.toOption = some d) : ending = some (.ok d) := by
  obtain ⟨e, rfl, decided⟩ := Option.bind_eq_some_iff.1 h
  cases e with
  | error t => cases decided
  | ok d' =>
    cases decided
    rfl

/-- A server that accepts the message and is gone at once. -/
def curtPeer : Peer where
  turns :=
    [[.sends (encode "220 hi\r\n")], [.sends (encode "250 ok\r\n")],
      [.sends (encode "354 go\r\n")], [], [], [.sends (encode "250 ok\r\n"), .closes]]

theorem queued_iff_curt : 0 < 500 ∧
    ∃ greeting up post, dealings { timeout := { ms := 500 } } {}
        [.helo "me", .header [65], .body [66]] curtPeer = .got greeting :: up ++ post ∧
      greeting.code = 220 ∧
      Script.Accepted {} none none [.helo "me", .header [65], .body [66]] up := by
  have queued : (run { timeout := { ms := 500 } } {} [.helo "me", .header [65], .body [66]]
      curtPeer).ending = some (.ok .queued) := decision_of_toOption (by decide +kernel)
  exact ⟨by decide, (queued_iff (by decide)).1 queued⟩

end Session

end FilterBench
