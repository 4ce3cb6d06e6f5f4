import FilterBench.Proofs.Client.Operating
import FilterBench.Proofs.Connection.Reaching

/-!
# The first failure is final

Once a connection has a failure recorded, it keeps this one, and every operation that has to write is
refused with it at its first write (`Turnout.Balks`). So nothing more is written, and no reply is
taken, whatever the peer goes on to send (`Client.failure_final`).
-/
namespace FilterBench
open Utf8 Turnout

/-- Closing writes nothing, and what needs a stream writes nothing unless one is open. -/
def Operation.hasToWrite (caller : Caller) : Operation → Bool
  | .write n _ | .endData n => (caller.encoder n).isOk
  | .close => false
  | _ => true

/-! ## Refused at the first write -/

namespace Turnout

/-- It begins with a write, and if this fails so does the whole, with nothing left to do but to give the
channel up. -/
def Balks (P : Turnout) : Prop := ∀ s : Setback, s.OfChannel →
  ∃ octets rest, (rest = [] ∨ rest = [.closed]) ∧ P (⟨.write octets, .error s⟩ :: rest) (.error s)

variable {P P' : Turnout}

theorem balks_asks (octets : Bytes) (codes : List ℕ) : (asks octets codes).Balks := by
  intro s _
  exact ⟨octets, [], .inl rfl, .fails (.unsaid s)⟩

theorem balks_greets (name : String) : (greets name).Balks := by
  intro s own
  refine ⟨commandLine ("EHLO " ++ name), [], .inl rfl, .extended (.fails (.unsaid s)) ?_⟩
  intro r refused
  cases refused
  exact own.elim

theorem balks_andThen (h : P.Balks) : (P.andThen P').Balks := by
  intro s own
  obtain ⟨octets, rest, closes, failed⟩ := h s own
  exact ⟨octets, rest, closes, .fails failed⟩

/-- Who has given no name yet is refused when giving it. -/
theorem balks_introduces (i : Introduction) (h : P.Balks) : ((introduces i).andThen P).Balks := by
  intro s own
  cases i with
  | none =>
    obtain ⟨octets, rest, closes, failed⟩ := balks_greets Client.defaultName s own
    exact ⟨octets, rest, closes, .fails (.anew failed)⟩
  | some name =>
    obtain ⟨octets, rest, closes, failed⟩ := h s own
    exact ⟨octets, rest, closes, .goesOn (introduces.known name) failed⟩

theorem balks_logsIn (m : Mechanism) : (logsIn m).Balks := by
  intro s _
  exact ⟨loginLine m, [], .inl rfl, .fails (.unsaid s)⟩

theorem balks_quits : quits.Balks := by
  intro s _
  exact ⟨commandLine "QUIT", [.closed], .inr rfl, [_], rfl, .fails (.unsaid s)⟩

end Turnout

namespace Operation

variable {op : Operation} {caller : Caller}

theorem balks (writes : op.hasToWrite caller) : (op.turnout caller).Balks := by
  cases op with
  | hello name => exact balks_greets name
  | startTls => exact balks_introduces _ (balks_andThen (balks_asks _ _))
  | login m => exact balks_introduces _ (balks_logsIn m)
  | mail sender => exact balks_introduces _ (balks_asks _ _)
  | recipient address => exact balks_asks _ _
  | reset => exact balks_introduces _ (balks_asks _ _)
  | data => exact balks_asks _ _
  | write n chunk =>
    rw [hasToWrite] at writes
    rw [turnout]
    cases encoder : caller.encoder n with
    | error e =>
      rw [encoder] at writes
      cases writes
    | ok s =>
      intro t _
      exact ⟨s.written chunk, [], .inl rfl, rfl⟩
  | endData n =>
    rw [hasToWrite] at writes
    rw [turnout]
    cases encoder : caller.encoder n with
    | error e =>
      rw [encoder] at writes
      cases writes
    | ok s => exact balks_asks _ _
  | quit => exact balks_quits
  | close => cases writes

/-- What has nothing to write is denied at once, or gives the channel up. -/
theorem turnout_quiet (quiet : op.hasToWrite caller = false) :
    (∃ s, op.turnout caller [] (.error s)) ∨ op.turnout caller [.closed] (.ok ()) := by
  cases op with
  | write n _ | endData n =>
    rw [hasToWrite] at quiet
    rw [turnout]
    cases encoder : caller.encoder n with
    | error e => exact .inl ⟨e, rfl, rfl⟩
    | ok s =>
      rw [encoder] at quiet
      cases quiet
  | close => exact .inr ⟨rfl, rfl⟩
  | _ => cases quiet

end Operation

/-! ## On a connection that has failed -/

namespace Connection

variable {α : Type} {c : Connection} {s : Setback} {d : Dialogue α} {a : α}

/-- A failed connection is given up without more ado. -/
theorem close_failed (failed : c.inbox.failure = some s) : c.close = { c with dropped := true } := by
  rw [close]
  cases c.listening with
  | false => rfl
  | true => simp only [finish, fail, Inbox.fail, failed, if_true]

theorem run_closing (failed : c.inbox.failure = some s) {deals : List Dealing}
    (closes : deals = [] ∨ deals = [.closed]) (leads : Leads d deals (.done a)) :
    ∃ dropped, c.run d = ({ c with dropped := dropped }, some a) := by
  obtain rfl | rfl := closes
  · cases leads
    exact ⟨c.dropped, rfl⟩
  · have closing : c.perform .close = (c.close, some ()) := rfl
    obtain ⟨next, rest, ran⟩ := run_of_leads leads closing
    cases rest
    rw [close_failed failed] at ran
    exact ⟨true, ran⟩

/-- On a failed connection an operation does nothing but perhaps give the channel up, and it fails as
the connection did if it has to write. -/
theorem run_failed (failed : c.inbox.failure = some s) (own : s.OfChannel) (op : Operation)
    (caller : Caller) : ∃ dropped outcome caller',
      c.run (op.dialogue caller) = ({ c with dropped := dropped }, some (outcome, caller')) ∧
        (op.hasToWrite caller → outcome = .error s) := by
  cases writes : op.hasToWrite caller with
  | true =>
    obtain ⟨octets, rest, closes, turnout⟩ := Operation.balks writes s own
    obtain ⟨caller', leads⟩ := Operation.leads_iff.2 turnout
    have refused : c.perform (.write octets) = (c, some (.error s)) := by
      simp only [perform, write, failed]
    obtain ⟨next, leads, ran⟩ := run_of_leads leads refused
    obtain ⟨dropped, closed⟩ := run_closing failed closes leads
    exact ⟨dropped, .error s, caller', ran.trans closed, fun _ => rfl⟩
  | false =>
    have quiet : ∃ deals outcome, (deals = [] ∨ deals = [.closed]) ∧ op.turnout caller deals outcome := by
      obtain ⟨e, denied⟩ | closed := Operation.turnout_quiet writes
      · exact ⟨[], _, .inl rfl, denied⟩
      · exact ⟨[.closed], _, .inr rfl, closed⟩
    obtain ⟨deals, outcome, closes, turnout⟩ := quiet
    obtain ⟨caller', leads⟩ := Operation.leads_iff.2 turnout
    obtain ⟨dropped, ran⟩ := run_closing failed closes leads
    refine ⟨dropped, outcome, caller', ran, ?_⟩
    intro more
    cases more

/-- On a failed connection no use of a client does or takes anything. -/
theorem serve_failed (failed : c.inbox.failure = some s) (own : s.OfChannel) (caller : Caller)
    (uses : List Use) :
    (c.serve caller uses).history.filter Event.isOwn = c.history.filter Event.isOwn := by
  induction uses generalizing c caller with
  | nil => rfl
  | cons use uses ih =>
    cases use with
    | pauses ms =>
      have still := (reaches_advance c ms).failure failed
      have goes := (goes_advance c ms).own
      rw [List.append_nil] at goes
      exact (ih still caller).trans goes
    | performs op =>
      obtain ⟨dropped, outcome, caller', ran, -⟩ := run_failed failed own op caller
      rw [serve, ran]
      exact ih (c := { c with dropped := dropped }) failed caller'

end Connection

namespace Client

variable {peer : Peer} {host : String} {port : ℕ} {timeout : Timeout} {c c₁ : Connection} {s : Setback}

/-- The first failure is final. In whatever state it is recorded, it is never replaced, and nothing is
written any more; every operation that has to write fails with it, and no reply is taken. The states
include those that any uses of a client come to, and those in the middle of an operation. -/
theorem failure_final (connected : peer.connect host port timeout = .connected c)
    (reached : c.Reaches c₁) (failed : c₁.inbox.failure = some s) :
    (∀ uses, c.Reaches (c.visit uses)) ∧
    (∀ c₂, c₁.Reaches c₂ → c₂.inbox.failure = some s ∧ c₂.sent = c₁.sent) ∧
    (∀ (op : Operation) caller, ∃ c₂ outcome caller', c₁.run (op.dialogue caller) = (c₂, some (outcome, caller')) ∧
      c₂.history = c₁.history ∧ (op.hasToWrite caller → outcome = .error s)) ∧
    ∀ caller uses, (c₁.Idle → c₁.Reaches (c₁.serve caller uses)) ∧
      taken (c₁.serve caller uses).history = taken c₁.history := by
  obtain ⟨accounted, idle⟩ := Connection.accounted_connected connected
  have own : s.OfChannel := (reached.sound (Session.connect_sound connected).1).failure s failed
  refine ⟨Connection.reaches_visit accounted idle, ?_, ?_, ?_⟩
  · intro c₂ later
    exact ⟨later.failure failed, later.sent failed⟩
  · intro op caller
    obtain ⟨dropped, outcome, caller', ran, refused⟩ := Connection.run_failed failed own op caller
    exact ⟨_, outcome, caller', ran, rfl, refused⟩
  · intro caller uses
    constructor
    · intro quiet
      exact Connection.reaches_serve (reached.accounted accounted) quiet caller uses
    · rw [← taken_own, Connection.serve_failed failed own caller uses, taken_own]

/-- A server that lets the client wait too long for a reply. -/
def latePeer : Peer where
  turns := [[.sends (encode "220 hi\r\n")], [.waits 2000, .sends (encode "250 ok\r\n")]]

/-- An introduction that times out, a pause in which its reply would come, and then a sender. -/
theorem failure_final_late : ∃ c c₂ caller, latePeer.connect "mail" 25 { ms := 1000 } = .connected c ∧
    (c.visit [.performs (.hello "me"), .pauses 5000]).inbox.failure = some (.timedOut 1000) ∧
    (c.visit [.performs (.hello "me"), .pauses 5000]).run ((Operation.mail "a").dialogue {}) =
      (c₂, some (.error (.timedOut 1000), caller)) := by
  obtain ⟨c, connected⟩ : ∃ c, latePeer.connect "mail" 25 { ms := 1000 } = .connected c := ⟨_, rfl⟩
  have failed : (c.visit [.performs (.hello "me"), .pauses 5000]).inbox.failure =
      some (.timedOut 1000) := by
    cases connected
    decide +kernel
  obtain ⟨accounted, idle⟩ := Connection.accounted_connected connected
  have reached := Connection.reaches_visit accounted idle [.performs (.hello "me"), .pauses 5000]
  obtain ⟨-, -, refuses, -⟩ := failure_final connected reached failed
  obtain ⟨c₂, outcome, caller, ran, -, refused⟩ := refuses (.mail "a") {}
  rw [refused rfl] at ran
  exact ⟨c, c₂, caller, connected, failed, ran⟩

end Client

end FilterBench
