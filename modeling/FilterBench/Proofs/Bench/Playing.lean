import FilterBench.Proofs.Bench.Ledger
import FilterBench.Proofs.Bench.Marking

/-!
# Playing cases one after another

After some cases were played, each of them has heard its own session, with the peer of its turn,
and has the mark that the ending of this session makes of it; the others are as they were
(`Ledger.Played`). One more session, and the judgement of its case, makes it one case more
(`Ledger.Played.next`).
-/
namespace FilterBench

/-- A case as it was added. -/
def Case.anew (c : Case) : Case := { c with transcript := [], state := none }

/-- What comes of a case that was played: it has heard the session and has the mark of its ending. -/
def Case.PlayedAs (c : Case) (r : SessionReport) (c' : Case) : Prop :=
  ∃ ending m, r.ending = some ending ∧ c.judge ending = .ok m ∧
    c' = { c with transcript := c.transcript ++ r.transcript, state := some m }

namespace Standing

def states (s : Standing) : List CaseState := s.cases.map (·.state)

/-- The flag of the directory tells whether a case has failed. -/
def Honest (s : Standing) : Prop := s.failed = true ↔ some .failed ∈ s.states

variable {s : Standing} {i : ℕ} {c : Case}

theorem honest_of_ready (unfailed : s.failed = false) (ready : ∀ c ∈ s.cases, c.state = none) :
    s.Honest := by
  constructor
  · intro failed
    rw [unfailed] at failed
    cases failed
  · intro mem
    obtain ⟨c, mem, failed⟩ := List.mem_map.1 mem
    rw [ready c mem] at failed
    cases failed

/-- What a session says does not change the state of a case. -/
theorem states_hear (s : Standing) (i : ℕ) (chunks : List String) :
    (s.hear i chunks).states = s.states := by
  apply List.ext_getElem?
  intro j
  rw [states, states, hear, List.getElem?_map, List.getElem?_map, List.getElem?_modify]
  cases s.cases[j]? with
  | none => split <;> rfl
  | some c => split <;> rfl

theorem honest_marked (honest : s.Honest) (present : s.cases[i]? = some c) (ready : c.state = none)
    (m : Mark) : (s.marked i c m).Honest := by
  have states : (s.marked i c m).states = s.states.set i (some m) := List.map_set
  have unmarked : s.states[i]? = some none := by
    rw [Standing.states, List.getElem?_map, present, Option.map_some, ready]
  have below : i < s.states.length := (List.getElem?_eq_some_iff.1 unmarked).choose
  have failed : (s.marked i c m).failed = true ↔ s.failed = true ∨ m = .failed := by
    simp [marked]
  have before : s.failed = true ↔ some .failed ∈ s.states := honest
  rw [Honest, failed, states, before]
  constructor
  · intro reason
    apply List.mem_iff_getElem?.2
    rcases reason with mem | rfl
    · obtain ⟨j, at_j⟩ := List.mem_iff_getElem?.1 mem
      have apart : i ≠ j := by
        intro same
        rw [← same, unmarked] at at_j
        cases at_j
      exact ⟨j, (List.getElem?_set_ne apart).trans at_j⟩
    · exact ⟨i, List.getElem?_set_self below⟩
  · intro mem
    rcases List.mem_or_eq_of_mem_set mem with old | now
    · exact .inl old
    · exact .inr (Option.some.inj now).symm

end Standing

namespace Ledger

def route (l : Ledger) : Route :=
  { host := l.settings.smtp.host, port := l.server.smtpPort
    timeout := { ms := l.settings.smtp.commandTimeout, timers := l.timers } }

/-- The session of a case, if its peer has the same number. -/
def report (l : Ledger) (i : ℕ) (c : Case) : SessionReport :=
  Session.run l.route l.settings.accounts c.script (l.peers.getD i .absent)

/-- The ledger after a session of a case with the next peer. -/
def play (l : Ledger) (i : ℕ) (script : Script) : Ledger :=
  let report := Session.run l.route l.settings.accounts script (l.peers.headD .absent)
  { l with
    peers := l.peers.tail
    standing := l.standing.hear i report.transcript
    reports := l.reports ++ [report]
    connections := l.connections ++ [(l.route.host, l.route.port)] }

/-- The ledger after one of the cases was marked. -/
def marked (l : Ledger) (i : ℕ) (c : Case) (m : Mark) : Ledger :=
  { l with standing := l.standing.marked i c m, serverFailed := l.serverFailed || m == .failed }

/-- The first cases were played, each with its own peer, and the others are as they were. -/
structure Played (l₀ l : Ledger) (n : ℕ) : Prop where
  path : l.path = l₀.path
  settings : l.settings = l₀.settings
  timers : l.timers = l₀.timers
  server : l.server = l₀.server
  within : n ≤ l₀.standing.cases.length
  count : l.standing.cases.length = l₀.standing.cases.length
  peers : l.peers = l₀.peers.drop n
  reports : l.reports = (l₀.standing.cases.take n).mapIdx l₀.report
  connections : l.connections = List.replicate n (l₀.route.host, l₀.route.port)
  judged : ∀ i c, i < n → l₀.standing.cases[i]? = some c →
    ∃ c', l.standing.cases[i]? = some c' ∧ c.PlayedAs (l₀.report i c) c'
  ready : ∀ i, n ≤ i → l.standing.cases[i]? = l₀.standing.cases[i]?
  honest : l.standing.Honest
  flagged : l.serverFailed = l.standing.failed

variable {l₀ l : Ledger} {n : ℕ} {c : Case}

theorem Played.route_eq (h : l₀.Played l n) : l.route = l₀.route := by
  rw [route, route, h.settings, h.timers, h.server]

theorem Played.report_eq (h : l₀.Played l n) (c : Case) :
    Session.run l.route l.settings.accounts c.script (l.peers.headD .absent) = l₀.report n c := by
  have peer : l.peers.headD .absent = l₀.peers.getD n .absent := by
    rw [h.peers, List.headD_eq_head?_getD, List.head?_drop, List.getD_eq_getElem?_getD]
  rw [report, peer, h.route_eq, h.settings]

/-- What the session of the next case has left of it. -/
theorem Played.heard (h : l₀.Played l n) (next : l₀.standing.cases[n]? = some c) :
    (l.play n c.script).standing.cases[n]? =
      some { c with transcript := c.transcript ++ (l₀.report n c).transcript } := by
  have present : l.standing.cases[n]? = some c := (h.ready n (Nat.le_refl n)).trans next
  rw [play, h.report_eq c]
  show (l.standing.cases.modify n _)[n]? = _
  rw [List.getElem?_modify_eq, present]
  rfl

/-- The cases after one more was played. -/
theorem Played.next_case (h : l₀.Played l n) (next : l₀.standing.cases[n]? = some c) (c' : Case)
    (m : Mark) (i : ℕ) : ((l.play n c.script).marked n c' m).standing.cases[i]? =
      if n = i then some { c' with state := some m } else l.standing.cases[i]? := by
  have below : n < (l.play n c.script).standing.cases.length :=
    (List.getElem?_eq_some_iff.1 (h.heard next)).choose
  show ((l.play n c.script).standing.cases.set n { c' with state := some m })[i]? = _
  by_cases same : n = i
  · rw [if_pos same, ← same, List.getElem?_set_self below]
  · rw [if_neg same, List.getElem?_set_ne same]
    exact List.getElem?_modify_ne _ _ same

/-- One more session, and the judgement of its case. -/
theorem Played.next (h : l₀.Played l n) (next : l₀.standing.cases[n]? = some c)
    (ready : c.state = none) {ending : Ending} {m : Mark}
    (ends : (l₀.report n c).ending = some ending) (judged : c.judge ending = .ok m) :
    l₀.Played ((l.play n c.script).marked n
      { c with transcript := c.transcript ++ (l₀.report n c).transcript } m) (n + 1) := by
  have below : n < l₀.standing.cases.length := (List.getElem?_eq_some_iff.1 next).choose
  have cases := h.next_case next
    { c with transcript := c.transcript ++ (l₀.report n c).transcript } m
  constructor
  · exact h.path
  · exact h.settings
  · exact h.timers
  · exact h.server
  · omega
  · show ((l.standing.cases.modify n _).set n _).length = _
    rw [List.length_set, List.length_modify, h.count]
  · show l.peers.tail = _
    rw [h.peers, List.tail_drop]
  · show l.reports ++ [_] = _
    rw [h.report_eq c, h.reports, List.take_add_one, next, Option.toList_some, List.mapIdx_append,
      List.length_take, Nat.min_eq_left (Nat.le_of_lt below), List.mapIdx_singleton, Nat.zero_add]
  · show l.connections ++ [(l.route.host, l.route.port)] = _
    rw [h.connections, h.route_eq, List.replicate_succ']
  · intro i d within present
    rw [cases i]
    by_cases same : n = i
    · subst same
      obtain rfl : c = d := Option.some.inj (next.symm.trans present)
      exact ⟨_, if_pos rfl, ending, m, ends, judged, rfl⟩
    · rw [if_neg same]
      exact h.judged i d (by omega) present
  · intro i beyond
    rw [cases i, if_neg (by omega)]
    exact h.ready i (by omega)
  · apply Standing.honest_marked _ (h.heard next) ready
    exact h.honest.trans (by rw [Ledger.play, Standing.states_hear])
  · show (l.serverFailed || _) = (l.standing.failed || _)
    rw [h.flagged]

/-- Before a case is played. -/
theorem played_zero (ready : ∀ c ∈ l.standing.cases, c.state = none)
    (unfailed : l.standing.failed = false) (unflagged : l.serverFailed = false)
    (unreported : l.reports = []) (unconnected : l.connections = []) : l.Played l 0 := by
  constructor
  · rfl
  · rfl
  · rfl
  · rfl
  · exact Nat.zero_le _
  · rfl
  · rfl
  · exact unreported
  · exact unconnected
  · intro i c none
    cases none
  · intro i _
    rfl
  · exact Standing.honest_of_ready unfailed ready
  · rw [unflagged, unfailed]

theorem Played.server_iff (h : l₀.Played l n) :
    l.serverFailed = true ↔ some .failed ∈ l.standing.states := by
  rw [h.flagged]
  exact h.honest

/-- The cases are still the same, in the same order. -/
theorem Played.anew (h : l₀.Played l n) (all : n = l₀.standing.cases.length) :
    l.standing.cases.map Case.anew = l₀.standing.cases.map Case.anew := by
  apply List.ext_getElem?
  intro i
  rw [List.getElem?_map, List.getElem?_map]
  cases present : l₀.standing.cases[i]? with
  | none =>
    have beyond := List.getElem?_eq_none_iff.1 present
    rw [h.ready i (by omega), present]
  | some c =>
    have below := (List.getElem?_eq_some_iff.1 present).choose
    obtain ⟨c', now, _, _, _, _, rfl⟩ := h.judged i c (by omega) present
    rw [now]
    rfl

/-- The expectation of a case breaks at the decision that its session has come to. -/
def Breaks (l : Ledger) (t : Thrown) : Prop :=
  ∃ i c d, l.standing.cases[i]? = some c ∧ (l.report i c).ending = some (.ok d) ∧
    c.expectation.evaluate d = .error t

end Ledger

end FilterBench
