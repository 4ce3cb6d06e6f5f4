import FilterBench.Connection.Basic
import Mathlib.Data.Nat.Notation

/-!
# What a peer leaves as it is

Whatever a scripted peer does on a connection, it cannot touch the client's timeout, the turns and
handshakes that are still to come, or what the client has written, and it cannot make the client
listen to another channel. `Keeps` collects this. A property that single acts do not change is not
changed by turns and whole schedules either (`Steady`).
-/
namespace FilterBench
open Utf8

namespace Connection

structure Keeps (c c' : Connection) : Prop where
  timeout : c'.timeout = c.timeout
  listening : c'.listening = c.listening
  turns : c'.turns = c.turns
  handshakes : c'.handshakes = c.handshakes
  sent : c'.sent = c.sent

namespace Keeps

variable {c : Connection}

theorem refl (c : Connection) : c.Keeps c := ⟨rfl, rfl, rfl, rfl, rfl⟩

theorem trans {d e : Connection} (h : c.Keeps d) (h' : d.Keeps e) : c.Keeps e :=
  ⟨h'.timeout.trans h.timeout, h'.listening.trans h.listening, h'.turns.trans h.turns,
    h'.handshakes.trans h.handshakes, h'.sent.trans h.sent⟩

end Keeps

theorem sent_record (c : Connection) (e : Event) :
    (c.record e).sent = c.sent ++ (Event.sent? e).toList := by
  simp only [sent, record, List.filterMap_append, List.filterMap_cons, List.filterMap_nil]
  cases Event.sent? e <;> rfl

theorem keeps_record (c : Connection) {e : Event} (h : e.sent? = none) : c.Keeps (c.record e) := by
  refine ⟨rfl, rfl, rfl, rfl, ?_⟩
  rw [sent_record, h, Option.toList_none, List.append_nil]

theorem keeps_finish (c : Connection) (heard : Bool) (s : Setback) : c.Keeps (c.finish heard s) := by
  cases heard
  · exact .refl c
  · exact ⟨rfl, rfl, rfl, rfl, rfl⟩

theorem hear_of_nil {c : Connection} {chunk : Bytes} {d : Decoder}
    (h : c.inbox.decoder.read chunk = (d, [])) :
    c.hear chunk = { c with inbox := { c.inbox with decoder := d } } := by
  simp only [hear, h, if_true]

theorem hear_of_text {c : Connection} {chunk : Bytes} {d : Decoder} {text : List Char}
    (h : c.inbox.decoder.read chunk = (d, text)) (some : text ≠ []) :
    c.hear chunk = { c with
      inbox := ({ c.inbox with decoder := d }.readText text).1
      dropped := c.dropped || ({ c.inbox with decoder := d }.readText text).2 }.record
        (.heard text) := by
  simp only [hear, h, if_neg some]

theorem keeps_hear (c : Connection) (chunk : Bytes) : c.Keeps (c.hear chunk) := by
  rcases h : c.inbox.decoder.read chunk with ⟨d, text⟩
  by_cases none : text = []
  · rw [none] at h
    rw [hear_of_nil h]
    exact ⟨rfl, rfl, rfl, rfl, rfl⟩
  · rw [hear_of_text h none]
    apply Keeps.trans _ (keeps_record _ rfl)
    exact ⟨rfl, rfl, rfl, rfl, rfl⟩

theorem hear_clock (c : Connection) (chunk : Bytes) :
    (c.hear chunk).now = c.now ∧ (c.hear chunk).upcoming = c.upcoming := by
  rcases h : c.inbox.decoder.read chunk with ⟨d, text⟩
  by_cases none : text = []
  · rw [none] at h
    rw [hear_of_nil h]
    exact ⟨rfl, rfl⟩
  · rw [hear_of_text h none]
    exact ⟨rfl, rfl⟩

theorem keeps_act (heard : Bool) (c : Connection) (a : PeerAct) : c.Keeps (c.act heard a) := by
  have ends (s : Setback) : c.Keeps ({ c with ended := true }.finish heard s) :=
    .trans (d := { c with ended := true }) ⟨rfl, rfl, rfl, rfl, rfl⟩ (keeps_finish _ heard s)
  unfold act
  split
  · exact .refl c
  · cases a with
    | sends chunk =>
      cases heard
      · exact .refl c
      · exact keeps_hear c chunk
    | closes => exact ends _
    | breaksDown message => exact ends _
    | failsWrite message => exact .refl c
    | waits ms => exact .refl c

theorem answer_fst (r : Connection × Option String) (a : PeerAct) :
    (answer r a).1 = r.1 ∨ (answer r a).1 = r.1.act r.1.listening a := by
  cases a with
  | failsWrite message =>
    refine .inl ?_
    rw [answer]
    split <;> rfl
  | _ => exact .inr rfl

/-- A property of connections that no act of a peer changes, and no passing of time. -/
structure Steady (P : Connection → Prop) : Prop where
  act : ∀ {c : Connection} (heard : Bool) (a : PeerAct), P c → P (c.act heard a)
  move : ∀ {c : Connection} (now : ℕ) (s : Schedule), P c → P { c with now := now, upcoming := s }

namespace Steady

variable {P : Connection → Prop} (steady : Steady P)
include steady

theorem foldl_act (heard : Bool) (acts : Turn) {c : Connection} (h : P c) :
    P (acts.foldl (Connection.act heard) c) := by
  induction acts generalizing c with
  | nil => exact h
  | cons a acts ih => exact ih (steady.act heard a h)

theorem play (p : Part) {c : Connection} (h : P c) : P (c.play p) :=
  steady.foldl_act _ _ (steady.move _ c.upcoming h)

theorem playWhile (wanted : Connection → Part → Bool) (s : Schedule) {c : Connection} (h : P c) :
    P (Connection.playWhile wanted s c) := by
  fun_induction Connection.playWhile wanted s c with
  | case1 c => exact steady.move c.now [] h
  | case2 p rest c _ ih => exact ih (steady.play p h)
  | case3 p rest c _ => exact steady.move c.now (p :: rest) h

theorem answer (a : PeerAct) {r : Connection × Option String} (h : P r.1) :
    P (Connection.answer r a).1 := by
  rcases answer_fst r a with same | acts
  · rwa [same]
  · rw [acts]
    exact steady.act _ a h

theorem foldl_answer (acts : Turn) {r : Connection × Option String} (h : P r.1) :
    P (acts.foldl Connection.answer r).1 := by
  induction acts generalizing r with
  | nil => exact h
  | cons a acts ih => exact ih (steady.answer a h)

/-- What also the choice of the next turn leaves as it is. -/
theorem respond (turn : ∀ {c : Connection} (turns : List Turn), P c → P { c with turns := turns })
    {c : Connection} (h : P c) : P c.respond.1 := by
  rw [Connection.respond]
  split
  · exact h
  · rename_i t turns _
    have played := steady.foldl_answer t.prompt (r := ({ c with turns := turns }, none))
      (turn turns h)
    exact steady.move _ _ played

end Steady

/-- What a connection keeps is steady. -/
theorem steady_keeps (c : Connection) : Steady c.Keeps where
  act heard a h := h.trans (keeps_act heard _ a)
  move _ _ h := h.trans ⟨rfl, rfl, rfl, rfl, rfl⟩

theorem keeps_foldl_act (heard : Bool) (acts : Turn) (c : Connection) :
    c.Keeps (acts.foldl (act heard) c) := (steady_keeps c).foldl_act heard acts (.refl c)

theorem keeps_play (c : Connection) (p : Part) : c.Keeps (c.play p) :=
  (steady_keeps c).play p (.refl c)

theorem keeps_playWhile (wanted : Connection → Part → Bool) (s : Schedule) (c : Connection) :
    c.Keeps (playWhile wanted s c) := (steady_keeps c).playWhile wanted s (.refl c)

/-- Neither the time nor the schedule moves while a peer acts. -/
theorem act_clock (heard : Bool) (c : Connection) (a : PeerAct) :
    (c.act heard a).now = c.now ∧ (c.act heard a).upcoming = c.upcoming := by
  unfold act
  split
  · exact ⟨rfl, rfl⟩
  · cases a with
    | sends chunk =>
      cases heard
      · exact ⟨rfl, rfl⟩
      · exact hear_clock c chunk
    | closes => cases heard <;> exact ⟨rfl, rfl⟩
    | breaksDown message => cases heard <;> exact ⟨rfl, rfl⟩
    | failsWrite message => exact ⟨rfl, rfl⟩
    | waits ms => exact ⟨rfl, rfl⟩

theorem foldl_act_clock (heard : Bool) (acts : Turn) (c : Connection) :
    (acts.foldl (act heard) c).now = c.now ∧ (acts.foldl (act heard) c).upcoming = c.upcoming := by
  induction acts generalizing c with
  | nil => exact ⟨rfl, rfl⟩
  | cons a acts ih =>
    have first := act_clock heard c a
    exact ⟨(ih _).1.trans first.1, (ih _).2.trans first.2⟩

end Connection

end FilterBench
