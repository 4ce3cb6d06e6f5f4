import FilterBench.Client.Operation
import FilterBench.Proofs.Connection.Accounting
import FilterBench.Session.Basic
import Mathlib.Data.List.Infix

/-!
# What crosses a handshake

A new secure channel is read by a new decoder and a new reader, so that no octet and no line that
came before the handshake is read after it (`Connection.secure_forgets`). The queue of replies is
not emptied, however: what a client takes after a handshake are first the replies that it made of
the old channel and had not taken, and only then those of the new one. `secured_takesLeft` says
exactly when a reply crosses: if and only if one was left and any reply is taken afterwards. It
holds for every use of a client and every script, and for every peer.
-/
namespace FilterBench
open Utf8 Reply

/-- At every handshake the replies that were made before it and not taken are taken first, in
order. So the first reply that is taken after it is the first of those if and only if there are
any, and any reply is taken. -/
def TakesLeft (history : List Event) : Prop := ∀ pre post, history = pre ++ .secured :: post →
  ∃ left, made pre = taken pre ++ left ∧ taken post <+: left ++ made post ∧
    ((∃ r, left.head? = some r ∧ (taken post).head? = some r) ↔ left ≠ [] ∧ taken post ≠ [])

/-- What the first two lists share when one is a prefix of the other that both begin. -/
theorem head?_of_prefix {α : Type} {xs left ys : List α} (h : xs <+: left ++ ys) :
    (∃ r, left.head? = some r ∧ xs.head? = some r) ↔ left ≠ [] ∧ xs ≠ [] := by
  constructor
  · rintro ⟨r, hl, hx⟩
    exact ⟨fun e => by simp [e] at hl, fun e => by simp [e] at hx⟩
  · rintro ⟨hl, hx⟩
    obtain ⟨l, left, rfl⟩ := List.exists_cons_of_ne_nil hl
    obtain ⟨x, xs, rfl⟩ := List.exists_cons_of_ne_nil hx
    rw [List.cons_append, List.cons_prefix_cons] at h
    exact ⟨l, rfl, congrArg some h.1⟩

namespace Connection

variable {c : Connection}

theorem Accounted.takesLeft (h : c.Accounted) : TakesLeft c.history := by
  intro pre post split
  obtain ⟨left, before⟩ := h.earlier pre (split ▸ List.prefix_append _ _)
  have all := h.taken_prefix
  have none : taken (.secured :: post) = taken post := rfl
  rw [split, made_secured, taken_append, none, ← before, List.append_assoc,
    List.prefix_append_right_inj] at all
  exact ⟨left, before.symm, all, head?_of_prefix all⟩

/-! ## What the decoder and the reader hold is forgotten -/

theorem act_unheard (c : Connection) (b : Inbox) (a : PeerAct) :
    (c.act false a).inbox = c.inbox ∧
      ({ c with inbox := b } : Connection).act false a = { c.act false a with inbox := b } := by
  have same : ({ c with inbox := b } : Connection).isOver = c.isOver := rfl
  unfold act
  rw [same]
  split
  · exact ⟨rfl, rfl⟩
  · cases a <;> exact ⟨rfl, rfl⟩

theorem foldl_act_unheard (acts : Turn) (c : Connection) (b : Inbox) :
    (acts.foldl (act false) c).inbox = c.inbox ∧
      acts.foldl (act false) { c with inbox := b } =
        { acts.foldl (act false) c with inbox := b } := by
  induction acts generalizing c with
  | nil => exact ⟨rfl, rfl⟩
  | cons a acts ih =>
    obtain ⟨kept, moved⟩ := act_unheard c b a
    obtain ⟨kept', moved'⟩ := ih (c.act false a)
    rw [List.foldl_cons, List.foldl_cons, moved]
    exact ⟨kept'.trans kept, moved'⟩

/-- On a channel that is not heard, the inbox stays as it is and has no influence. -/
theorem playWhile_unheard (wanted : Connection → Part → Bool) (b : Inbox)
    (blind : ∀ c p, wanted { c with inbox := b } p = wanted c p) (s : Schedule) {c : Connection}
    (deaf : c.listening = false) : (playWhile wanted s c).inbox = c.inbox ∧
      playWhile wanted s { c with inbox := b } = { playWhile wanted s c with inbox := b } := by
  fun_induction playWhile wanted s c with
  | case1 c => exact ⟨rfl, by rw [playWhile]⟩
  | case2 p rest c wants ih =>
    have unheard : (c.listening && !p.stale) = false := by rw [deaf, Bool.false_and]
    obtain ⟨kept, moved⟩ := foldl_act_unheard p.turn.prompt { c with now := max c.now p.due } b
    have played : c.play p = p.turn.prompt.foldl (act false) { c with now := max c.now p.due } := by
      rw [play, unheard]
    have played' : ({ c with inbox := b } : Connection).play p = { c.play p with inbox := b } := by
      rw [played, ← moved, play]
      exact congrArg (fun heard => p.turn.prompt.foldl (act heard) _) unheard
    obtain ⟨kept', moved'⟩ := ih ((keeps_play c p).listening.trans deaf)
    refine ⟨kept'.trans (by rw [played, kept]), ?_⟩
    rw [playWhile, blind, if_pos wants, played']
    exact moved'
  | case3 p rest c unwanted =>
    refine ⟨rfl, ?_⟩
    rw [playWhile, blind, if_neg unwanted]

/-- The connection while a handshake goes on. -/
def handshaking (c : Connection) : Connection :=
  { c with listening := false, handshakes := c.handshakes.tail, upcoming := c.forsaken }

/-- The connection after a handshake that succeeded. -/
def secured (c : Connection) (now : ℕ) : Connection :=
  ({ c with
    now := now, listening := true, dropped := false, spoiled := false
    inbox := c.inbox.renewed } : Connection).record .secured

theorem secure_of_succeeds {after : ℕ}
    (attempt : c.handshakes.headD (.settles 0 none) = .settles after none) :
    c.secure = ((playWhile (fun _ p => p.isBefore (c.now + after)) c.forsaken
      c.handshaking).secured (c.now + after), some (.ok ())) := by
  simp only [secure, attempt]
  rfl

theorem secure_of_fails {after : ℕ} {cause : String}
    (attempt : c.handshakes.headD (.settles 0 none) = .settles after (some cause)) :
    c.secure = ({ playWhile (fun _ p => p.isBefore (c.now + after)) c.forsaken c.handshaking with
      now := c.now + after, spoiled := true }, some (.error (.handshakeFailed cause))) := by
  simp only [secure, attempt]
  rfl

theorem secure_of_never (attempt : c.handshakes.headD (.settles 0 none) = .never) :
    c.secure = (playWhile (fun _ _ => true) c.forsaken
      { c.handshaking with dropped := false, spoiled := false }, none) := by
  simp only [secure, attempt]
  rfl

/-- A connection after a handshake is the same whatever the decoder and the reader of the old
channel held. -/
theorem secure_forgets {c' : Connection} (h : c.secure = (c', some (.ok ()))) (decoder : Decoder)
    (reader : Reader) :
    ({ c with inbox := { c.inbox with decoder := decoder, reader := reader } } : Connection).secure =
      (c', some (.ok ())) := by
  rcases attempt : c.handshakes.headD (.settles 0 none) with _ | ⟨after, _ | cause⟩
  · simp only [secure, attempt, Prod.mk.injEq, reduceCtorEq, and_false] at h
  · obtain ⟨kept, moved⟩ := playWhile_unheard (fun _ p => p.isBefore (c.now + after))
      { c.inbox with decoder := decoder, reader := reader } (fun _ _ => rfl) c.forsaken
      (c := c.handshaking) rfl
    have other := secure_of_succeeds (c := { c with
      inbox := { c.inbox with decoder := decoder, reader := reader } }) attempt
    have moved : playWhile (fun _ p => p.isBefore (c.now + after)) c.forsaken (handshaking { c with
        inbox := { c.inbox with decoder := decoder, reader := reader } }) = _ := moved
    have renewed : (playWhile (fun _ p => p.isBefore (c.now + after)) c.forsaken
        c.handshaking).inbox.renewed = c.inbox.renewed := congrArg Inbox.renewed kept
    rw [secure_of_succeeds attempt] at h
    rw [← h, other, show forsaken { c with
      inbox := { c.inbox with decoder := decoder, reader := reader } } = c.forsaken from rfl, moved]
    simp only [secured, renewed]
    rfl
  · simp only [secure, attempt, Prod.mk.injEq, Option.some.injEq, reduceCtorEq, and_false] at h

/-- How a connection begins. -/
theorem connected_eq {peer : Peer} {host : String} {port : ℕ} {timeout : Timeout}
    (h : peer.connect host port timeout = .connected c) : ∃ after,
      peer.arrival = .settles after none ∧ c = {
        timeout := timeout, now := after, turns := peer.turns.tail, handshakes := peer.handshakes
        upcoming := [{ due := after, turn := peer.turns.headD [] }] } := by
  rw [Peer.connect] at h
  split at h
  · cases h
  · cases h
  · rename_i after arrival
    exact ⟨after, arrival, (Arrival.connected.inj h).symm⟩

/-- How connecting fails. -/
theorem failed_eq {peer : Peer} {host : String} {port after : ℕ} {timeout : Timeout} {s : Setback}
    (h : peer.connect host port timeout = .failed after s) : ∃ cause,
      peer.arrival = .settles after (some cause) ∧ s = .connectFailed host port cause := by
  rw [Peer.connect] at h
  split at h
  · cases h
  · rename_i cause arrival
    cases h
    exact ⟨cause, arrival, rfl⟩
  · cases h

theorem accounted_connected {peer : Peer} {host : String} {port : ℕ} {timeout : Timeout}
    (h : peer.connect host port timeout = .connected c) : c.Accounted ∧ c.Idle := by
  obtain ⟨after, -, rfl⟩ := connected_eq h
  refine ⟨⟨⟨rfl, fun _ _ => rfl, rfl⟩, ?_⟩, rfl⟩
  intro pre within
  rw [List.prefix_nil.1 within]
  exact List.nil_prefix

theorem fresh_connected {peer : Peer} {host : String} {port : ℕ} {timeout : Timeout}
    (h : peer.connect host port timeout = .connected c) : c.history = [] := by
  obtain ⟨after, -, rfl⟩ := connected_eq h
  rfl

end Connection

/-! ## Uses of a client -/

/-- What a caller does with a client: operations, and pauses between them. -/
inductive Use where
  | performs (op : Operation)
  | pauses (ms : ℕ)

namespace Connection

/-- Uses of a client one after another; nothing follows an operation that waits for ever. -/
def serve (c : Connection) (caller : Caller) : List Use → Connection
  | [] => c
  | .pauses ms :: uses => (c.advance ms).serve caller uses
  | .performs op :: uses =>
    match c.run (op.dialogue caller) with
    | (c, some (_, caller)) => c.serve caller uses
    | (c, none) => c

/-- The greeting of the server, and then uses of the client if it was accepted. -/
def visit (c : Connection) (uses : List Use) : Connection :=
  match c.run (Client.greeting.run.run none) with
  | (c, some (.ok _, introduction)) => c.serve { introduction := introduction } uses
  | (c, _) => c

variable {c : Connection}

theorem Accounted.serve (h : c.Accounted) (idle : c.Idle) (caller : Caller) (uses : List Use) :
    (c.serve caller uses).Accounted := by
  induction uses generalizing c caller with
  | nil => exact h
  | cons use uses ih =>
    cases use with
    | pauses ms =>
      obtain ⟨accounted, quiet⟩ := h.advance idle ms
      exact ih accounted quiet caller
    | performs op =>
      obtain ⟨accounted, quiet⟩ := h.run (op.dialogue caller) idle
      rw [Connection.serve]
      rcases ran : c.run (op.dialogue caller) with ⟨c', _ | ⟨outcome, caller'⟩⟩
      · rw [ran] at accounted
        exact accounted
      · rw [ran] at accounted quiet
        exact ih accounted (quiet rfl) caller'

theorem Accounted.visit (h : c.Accounted) (idle : c.Idle) (uses : List Use) :
    (c.visit uses).Accounted := by
  obtain ⟨accounted, quiet⟩ := h.run (Client.greeting.run.run none) idle
  rw [Connection.visit]
  rcases ran : c.run (Client.greeting.run.run none) with ⟨c', _ | ⟨_ | _, introduction⟩⟩
  all_goals rw [ran] at accounted quiet
  · exact accounted
  · exact accounted
  · exact accounted.serve (quiet rfl) _ uses

end Connection

namespace Session

/-- What crosses a handshake, in any use of a client and in any session, with any peer: the replies
that were made and not taken, and nothing else. -/
theorem secured_takesLeft (peer : Peer) (route : Route) :
    (∀ c uses, peer.connect route.host route.port route.timeout = .connected c →
      TakesLeft (c.visit uses).history) ∧
    (∀ accounts script, TakesLeft (run route accounts script peer).history) ∧
    (∀ (c c' : Connection) decoder reader, c.secure = (c', some (.ok ())) →
      ({ c with inbox := { c.inbox with decoder := decoder, reader := reader } } :
        Connection).secure = (c', some (.ok ()))) := by
  refine ⟨?_, ?_, fun c c' decoder reader h => Connection.secure_forgets h decoder reader⟩
  · intro c uses connected
    obtain ⟨accounted, idle⟩ := Connection.accounted_connected connected
    exact (accounted.visit idle uses).takesLeft
  · intro accounts script
    rcases connected : peer.connect route.host route.port route.timeout with c | ⟨after, s⟩ | _
    · obtain ⟨accounted, idle⟩ := Connection.accounted_connected connected
      have ran := accounted.run (dialogue accounts script) idle
      have history : (run route accounts script peer).history =
          (c.run (dialogue accounts script)).1.history := by
        simp only [run, connected, report]
      rw [history]
      exact ran.1.takesLeft
    all_goals
      have none : (run route accounts script peer).history = [] := by simp only [run, connected]
      rw [none]
      intro pre post split
      simp at split

/-- A server that packs a second reply into the turn that answers `STARTTLS`. -/
def packingPeer : Peer where
  turns :=
    [[.sends (encode "220 hi\r\n")], [.sends (encode "250 ok\r\n")],
      [.sends (encode "220 go\r\n250 injected\r\n")], [.sends (encode "550 no\r\n")],
      [.sends (encode "250 fine\r\n")]]

/-- The second reply answers the first command on the secure channel, so that the refusal of this
command is taken for that of the next one. -/
theorem packed_reply_crosses :
    (∃ pre post, (run {} {} [.helo "me", .startTls, .sender "a"] packingPeer).history =
        pre ++ .secured :: post ∧ (taken post).head? = some ⟨250, ["injected".toList]⟩ ∧
        made post = [⟨550, ["no".toList]⟩, ⟨250, ["fine".toList]⟩]) ∧
      (run {} {} [.helo "me", .startTls, .sender "a"] packingPeer).ending =
        some (.ok ⟨550, "no", .from⟩) := by
  refine ⟨⟨((run {} {} [.helo "me", .startTls, .sender "a"] packingPeer).history.takeWhile
      (· ≠ .secured)), ((run {} {} [.helo "me", .startTls, .sender "a"] packingPeer).history.dropWhile
      (· ≠ .secured)).tail, ?_, ?_, ?_⟩, ?_⟩
  · decide +kernel
  · decide +kernel
  · decide +kernel
  · have decided : (run {} {} [.helo "me", .startTls, .sender "a"] packingPeer).ending.bind
        Except.toOption = some ⟨550, "no", .from⟩ := by
      decide +kernel
    obtain ⟨ending, ends, ok⟩ := Option.bind_eq_some_iff.1 decided
    cases ending with
    | error t => cases ok
    | ok d =>
      cases ok
      exact ends

end Session

end FilterBench
