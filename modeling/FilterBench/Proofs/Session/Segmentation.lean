import FilterBench.Proofs.Connection.Recutting
import FilterBench.Proofs.Session.Acceptance
import FilterBench.Session.Basic

/-!
# Sessions do not depend on how octets are cut into chunks

Two peers that send the same octets at the same time, and do the same else, bring a session to the
same end and are written the same octets, however each cuts what it sends (`Session.run_recut`).
The octets need not be text, nor the text replies. The one exception are chunks in which a complete
reply stands before a malformed line: of these the reader loses the reply, which it keeps when the
line arrives by itself (`Session.malformed_line_costs_reply`).
-/
namespace FilterBench
open Utf8

/-- The peer that sends each octet on its own. -/
def Peer.singly (p : Peer) : Peer := { p with turns := p.turns.map Turn.singly }

/-- The peers do the same, but for the chunks in which octets are sent that nothing separates. -/
def Peer.Recuts (p p' : Peer) : Prop := p.singly = p'.singly

theorem Peer.Recuts.of_turns {p p' : Peer} (arrival : p.arrival = p'.arrival)
    (handshakes : p.handshakes = p'.handshakes)
    (turns : p.turns.map Turn.singly = p'.turns.map Turn.singly) : p.Recuts p' := by
  rw [Recuts, singly, singly, arrival, handshakes, turns]

theorem Peer.connect_singly (p : Peer) (host : String) (port : ℕ) (timeout : Timeout) :
    p.singly.connect host port timeout = match p.connect host port timeout with
      | .connected c => .connected c.singly
      | other => other := by
  obtain ⟨arrival, turns, handshakes⟩ := p
  rcases arrival with _ | ⟨after, _ | cause⟩
  · rfl
  · cases turns <;> rfl
  · rfl

/-- A connection that was just made has read nothing. -/
theorem Connection.tidy_connected {p : Peer} {host : String} {port : ℕ} {timeout : Timeout} {c : Connection}
    (connects : p.connect host port timeout = .connected c) : c.Tidy c.history := by
  rw [Peer.connect] at connects
  split at connects
  · cases connects
  · cases connects
  · cases connects
    exact ⟨rfl, ⟨[], rfl⟩, List.prefix_refl _⟩

namespace Session

variable {route : Route} {accounts : Accounts} {script : Script} {p p' : Peer}

/-- A session that loses nothing is that with the peer that sends each octet on its own. -/
theorem run_singly (lossless : losesFrom {} (run route accounts script p).history = false) :
    (run route accounts script p.singly).ending = (run route accounts script p).ending ∧
      (run route accounts script p.singly).sent = (run route accounts script p).sent := by
  have connects := p.connect_singly route.host route.port route.timeout
  unfold run at lossless ⊢
  rw [connects]
  rcases connected : p.connect route.host route.port route.timeout with c | ⟨after, s⟩ | _
  · rw [connected] at lossless
    have tidy := Connection.tidy_connected connected
    have agrees := tidy.run_singly (.refl c.singly) (dialogue accounts script) lossless
    exact ⟨agrees.2, agrees.1.sent⟩
  · exact ⟨rfl, rfl⟩
  · exact ⟨rfl, rfl⟩

/-- How a peer cuts what it sends has no influence on a session, as long as no chunk has cost
replies that stood in it before a malformed line. -/
theorem run_recut (recuts : p.Recuts p')
    (lossless : losesFrom {} (run route accounts script p).history = false)
    (lossless' : losesFrom {} (run route accounts script p').history = false) :
    (run route accounts script p').ending = (run route accounts script p).ending ∧
      (run route accounts script p').sent = (run route accounts script p).sent := by
  have whole := run_singly lossless
  have whole' := run_singly lossless'
  rw [Peer.Recuts] at recuts
  rw [recuts] at whole
  exact ⟨whole'.1.symm.trans whole.1, whole'.2.symm.trans whole.2⟩

/-- A server that cuts its greeting and its answer where it pleases. -/
def cuttingPeer : Peer where
  turns :=
    [[.sends (encode "220 h"), .sends (encode "i\r\n")], [.sends (encode "250 ok\r\n")],
      [.sends (encode "250-caf" ++ [0xC3]), .sends ([0xA9, 0xFF] ++ encode "\r\nbad\r"),
        .sends (encode "\n550 no\r\n")]]

/-- It sends the same in other chunks. -/
def recuttingPeer : Peer where
  turns :=
    [[.sends (encode "220 hi\r\n")], [.sends (encode "2"), .sends (encode "50 ok\r\n")],
      [.sends (encode "250-caf" ++ [0xC3, 0xA9]), .sends [0xFF],
        .sends (encode "\r\nbad\r\n550 no\r\n")]]

theorem run_recut_cutting : cuttingPeer.Recuts recuttingPeer ∧
    losesFrom {} (run {} {} [.helo "me", .sender "a"] cuttingPeer).history = false ∧
    losesFrom {} (run {} {} [.helo "me", .sender "a"] recuttingPeer).history = false ∧
    (run {} {} [.helo "me", .sender "a"] recuttingPeer).ending =
      (run {} {} [.helo "me", .sender "a"] cuttingPeer).ending ∧
    (run {} {} [.helo "me", .sender "a"] recuttingPeer).sent =
      (run {} {} [.helo "me", .sender "a"] cuttingPeer).sent := by
  have recuts : cuttingPeer.Recuts recuttingPeer := .of_turns rfl rfl (by decide +kernel)
  have lossless : losesFrom {} (run {} {} [.helo "me", .sender "a"] cuttingPeer).history = false := by
    decide +kernel
  have lossless' :
      losesFrom {} (run {} {} [.helo "me", .sender "a"] recuttingPeer).history = false := by
    decide +kernel
  exact ⟨recuts, lossless, lossless', run_recut recuts lossless lossless'⟩

/-- A server whose refusal and a line that is no reply make one chunk. -/
def joiningPeer : Peer where
  turns := [[.sends (encode "220 hi\r\n")], [.sends (encode "550 no\r\nbad\r\n")]]

/-- It sends the line by itself. -/
def partingPeer : Peer where
  turns := [[.sends (encode "220 hi\r\n")],
    [.sends (encode "550 no\r\n"), .sends (encode "bad\r\n")]]

/-- What a fault of a session is about, if it is one. -/
def faultCode? : Ending → Option FaultCode
  | .error t => some t.toFault.code
  | .ok _ => none

/-- The refusal decides the session if the malformed line comes by itself, and is lost if the line
comes with it. -/
theorem malformed_line_costs_reply : joiningPeer.Recuts partingPeer ∧
    (run {} {} [.sender "a"] partingPeer).ending = some (.ok ⟨550, "no", .from⟩) ∧
    (run {} {} [.sender "a"] joiningPeer).ending.bind faultCode? = some .smtpProtocol := by
  refine ⟨.of_turns rfl rfl ?_, decision_of_toOption ?_, ?_⟩
  · decide +kernel
  · decide +kernel
  · decide +kernel

end Session

end FilterBench
