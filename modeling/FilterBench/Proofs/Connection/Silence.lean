import FilterBench.Connection.Basic
import FilterBench.Proofs.Text.Decoding

/-!
# Peers that say nothing

A peer is silent that only waits or sends no octets. Playing what such a peer does changes the
time and what is left to be played, and nothing else (`playWhile_silent`), whatever the client
waits for meanwhile. The decoder has to be one that some octets lead to: others may give text for
no octets at all.
-/
namespace FilterBench
open Utf8

/-- The peer says nothing by it, and does nothing else. -/
def PeerAct.Silent : PeerAct → Prop
  | .sends chunk => chunk = []
  | .waits _ => True
  | _ => False

namespace Turn

def Silent (turn : Turn) : Prop := ∀ a ∈ turn, a.Silent

/-- A turn without a wait is all prompt; any other is its prompt, its first wait and the rest. -/
theorem prompt_cases (turn : Turn) : turn.later? = none ∧ turn.prompt = turn ∨
    ∃ ms rest, turn.later? = some (ms, rest) ∧ turn = turn.prompt ++ .waits ms :: rest := by
  induction turn with
  | nil => exact .inl ⟨rfl, rfl⟩
  | cons a turn ih =>
    by_cases wait : ∃ ms, a = .waits ms
    · obtain ⟨ms, rfl⟩ := wait
      exact .inr ⟨ms, turn, rfl, rfl⟩
    · have later : later? (a :: turn) = later? turn := by
        cases a <;> first | rfl | exact absurd ⟨_, rfl⟩ wait
      have prompt : prompt (a :: turn) = a :: prompt turn := by
        cases a <;> first | rfl | exact absurd ⟨_, rfl⟩ wait
      rcases ih with ⟨none, all⟩ | ⟨ms, rest, some, eq⟩
      · exact .inl ⟨later.trans none, by rw [prompt, all]⟩
      · refine .inr ⟨ms, rest, later.trans some, ?_⟩
        rw [prompt, List.cons_append, ← eq]

theorem Silent.prompt {turn : Turn} (h : turn.Silent) : turn.prompt.Silent := by
  intro a ha
  exact h a ((List.takeWhile_sublist _).mem ha)

theorem Silent.later {turn rest : Turn} {ms : ℕ} (h : turn.Silent)
    (later : turn.later? = some (ms, rest)) : rest.Silent := by
  rcases turn.prompt_cases with ⟨none, _⟩ | ⟨ms', rest', some, eq⟩
  · simp [none] at later
  · simp only [some, Option.some.injEq, Prod.mk.injEq] at later
    obtain ⟨rfl, rfl⟩ := later
    intro a ha
    apply h
    rw [eq]
    simp [ha]

end Turn

namespace Schedule

def Silent (s : Schedule) : Prop := ∀ p ∈ s, p.turn.Silent

theorem mem_add {p q : Part} {s : Schedule} : q ∈ add p s ↔ q = p ∨ q ∈ s := by
  induction s with
  | nil => simp [add]
  | cons r s ih =>
    rw [add]
    split
    · rw [List.mem_cons, ih, List.mem_cons]
      exact or_left_comm
    · exact List.mem_cons

theorem Silent.add {p : Part} {s : Schedule} (h : s.Silent) (hp : p.turn.Silent) :
    (add p s).Silent := by
  intro q hq
  rcases mem_add.1 hq with rfl | hq
  · exact hp
  · exact h q hq

theorem Silent.add? {p : Option Part} {s : Schedule} (h : s.Silent)
    (hp : ∀ q, p = some q → q.turn.Silent) : (add? p s).Silent := by
  cases p with
  | none => exact h
  | some q => exact h.add (hp q rfl)

theorem Silent.settled {s : Schedule} (h : s.Silent) : s.settled.Silent := by
  intro q hq
  obtain ⟨p, hp, rfl⟩ := List.mem_map.1 hq
  exact h p hp

end Schedule

theorem Part.silent_next? {p q : Part} (h : p.turn.Silent) (hq : p.next? = some q) :
    q.turn.Silent := by
  obtain ⟨⟨ms, rest⟩, later, rfl⟩ := Option.map_eq_some_iff.1 hq
  exact h.later later

namespace Connection

/-- The decoder is where some octets have led it. -/
def Decodes (c : Connection) : Prop := ∃ w, c.inbox.decoder = .afterReading w

theorem silent_left? {c : Connection} {p q : Part} (h : p.turn.Silent) (hq : c.left? p = some q) :
    q.turn.Silent := by
  rw [left?] at hq
  split at hq
  · simp at hq
  · exact Part.silent_next? h hq

variable {c : Connection} (sound : c.Decodes)
include sound

/-- No octets give no text. -/
theorem hear_nil : c.hear [] = c := by
  obtain ⟨w, hw⟩ := sound
  obtain ⟨t, read, text⟩ := read_afterReading w []
  rw [List.append_nil] at read text
  have none : t = [] := List.append_right_eq_self.1 text.symm
  simp only [hear, hw, read, none, if_true]
  rw [← hw]

theorem act_silent {a : PeerAct} (h : a.Silent) (heard : Bool) : c.act heard a = c := by
  unfold act
  split
  · rfl
  · cases a with
    | sends chunk =>
      obtain rfl : chunk = [] := h
      simp only [hear_nil sound, ite_self]
    | waits ms => rfl
    | _ => exact h.elim

theorem foldl_act_silent {acts : Turn} (h : acts.Silent) (heard : Bool) :
    acts.foldl (act heard) c = c := by
  induction acts with
  | nil => rfl
  | cons a acts ih =>
    rw [List.foldl_cons, act_silent sound (h a (by simp))]
    exact ih fun b hb => h b (List.mem_cons_of_mem _ hb)

theorem answer_silent {a : PeerAct} (h : a.Silent) (error : Option String) :
    answer (c, error) a = (c, error) := by
  cases a with
  | failsWrite message => exact h.elim
  | _ => simp only [answer, act_silent sound h]

theorem foldl_answer_silent {acts : Turn} (h : acts.Silent) (error : Option String) :
    acts.foldl answer (c, error) = (c, error) := by
  induction acts with
  | nil => rfl
  | cons a acts ih =>
    rw [List.foldl_cons, answer_silent sound (h a (by simp))]
    exact ih fun b hb => h b (List.mem_cons_of_mem _ hb)

theorem play_silent {p : Part} (h : p.turn.Silent) : c.play p = { c with now := max c.now p.due } := by
  exact foldl_act_silent (c := { c with now := max c.now p.due }) sound h.prompt _

omit sound in
theorem playWhile_silent (wanted : Connection → Part → Bool) {s : Schedule} (h : s.Silent)
    {c : Connection} (sound : c.Decodes) : ∃ now s',
      playWhile wanted s c = { c with now := now, upcoming := s' } ∧ Schedule.Silent s' := by
  fun_induction playWhile wanted s c with
  | case1 c => exact ⟨c.now, [], rfl, by simp [Schedule.Silent]⟩
  | case2 p rest c _ ih =>
    have quiet : p.turn.Silent := h p (by simp)
    have others : Schedule.Silent rest := fun q hq => h q (List.mem_cons_of_mem _ hq)
    rw [play_silent sound quiet] at ih ⊢
    obtain ⟨now, s', eq, silent⟩ := ih (others.add? fun q hq => silent_left? quiet hq) sound
    exact ⟨now, s', eq, silent⟩
  | case3 p rest c _ => exact ⟨c.now, p :: rest, rfl, h⟩

/-- After a write that the peer says nothing to, only the time of its later silence is known. -/
theorem respond_silent (h : (c.turns.headD []).Silent) (quiet : c.upcoming.Silent) : ∃ s',
    c.respond = ({ c with turns := c.turns.tail, upcoming := s' }, none) ∧
      Schedule.Silent s' := by
  cases eq : c.turns with
  | nil =>
    refine ⟨c.upcoming, ?_, quiet⟩
    simp only [respond, eq, List.tail_nil]
    rw [← eq]
  | cons turn turns =>
    rw [eq, List.headD_cons] at h
    have prompt := foldl_answer_silent (c := { c with turns := turns }) sound h.prompt none
    simp only [respond, eq, prompt, List.tail_cons]
    exact ⟨_, rfl, quiet.add? fun q hq => silent_left? (p := ⟨c.now, turn, false, false⟩) h hq⟩

end Connection

end FilterBench
