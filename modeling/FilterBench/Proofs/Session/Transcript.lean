import FilterBench.Proofs.Connection.Traffic
import FilterBench.Proofs.Session.Writing

/-!
# The transcript of a session

The transcript of a session tells its traffic (`Session.transcript_told`): each write in its place,
each chunk that gave text while the client listened, and at the very end a remark if the message was
accepted and taking leave failed. Whatever the script and the peer, what was said is seen once, in
the order in which the session asked for it.
-/
namespace FilterBench
open Utf8 Turnout Session

/-- What is left after the first of some dealings goes through the others. -/
theorem Leads.rest {α : Type} {d d' d'' : Dialogue α} {first second : List Dealing}
    (h : Leads d (first ++ second) d'') (h' : Leads d first d') : Leads d' second d'' := by
  induction h' with
  | here d => exact h
  | step answer _ ih =>
    cases h with
    | step _ h => exact ih h

theorem Leads.of_nil {α : Type} {d d' : Dialogue α} (h : Leads d [] d') : d = d' := by
  cases h
  rfl

theorem Leads.of_cons {α : Type} {d d' : Dialogue α} {x : Dealing} {deals : List Dealing}
    (h : Leads d (x :: deals) d') :
    ∃ next, d = .ask x.request next ∧ Leads (next x.answer) deals d' := by
  cases h with
  | step _ h => exact ⟨_, rfl, h⟩

/-! ## Only taking leave makes remarks -/

/-- There is no remark among some dealings. -/
def Unremarked (deals : List Dealing) : Prop := ∀ text, .noted text ∉ deals

variable {first second deals : List Dealing}

theorem unremarked_append :
    Unremarked (first ++ second) ↔ Unremarked first ∧ Unremarked second := by
  simp only [Unremarked, List.mem_append, not_or, forall_and]

namespace Turnout

/-- No remark is made, however it turns out. -/
def Mute (P : Turnout) : Prop := ∀ deals result, P deals result → Unremarked deals

variable {P Q : Turnout}

theorem mute_hears {octets : Bytes} {result : Except Setback Reply}
    (heard : Hears octets deals result) : Unremarked deals := by
  cases heard <;> simp [Unremarked]

theorem mute_asks (octets : Bytes) (codes : List ℕ) : (asks octets codes).Mute := by
  intro deals result asked
  cases asked with
  | fails heard => exact mute_hears heard
  | refused heard _ => exact mute_hears heard
  | accepted heard _ => exact mute_hears heard

theorem mute_andThen (first : P.Mute) (second : Q.Mute) : (P.andThen Q).Mute := by
  intro deals result turnout
  cases turnout with
  | fails failed => exact first _ _ failed
  | goesOn succeeded turnout =>
    exact unremarked_append.2 ⟨first _ _ succeeded, second _ _ turnout⟩

theorem mute_secures : secures.Mute := by
  rintro deals result rfl
  simp [Unremarked]

theorem mute_greets (name : String) : (greets name).Mute := by
  intro deals result turnout
  cases turnout with
  | extended turnout _ => exact mute_asks _ _ _ _ turnout
  | old turnout _ turnout' =>
    exact unremarked_append.2 ⟨mute_asks _ _ _ _ turnout, mute_asks _ _ _ _ turnout'⟩

theorem mute_introduces (i : Introduction) : (introduces i).Mute := by
  intro deals result turnout
  cases turnout with
  | known => simp [Unremarked]
  | anew turnout => exact mute_greets _ _ _ turnout

theorem mute_logsIn (m : Mechanism) : (logsIn m).Mute := by
  intro deals result turnout
  cases turnout with
  | fails heard => exact mute_hears heard
  | uncancelled heard _ heard' => exact unremarked_append.2 ⟨mute_hears heard, mute_hears heard'⟩
  | challenged heard _ heard' => exact unremarked_append.2 ⟨mute_hears heard, mute_hears heard'⟩
  | refused heard _ => exact mute_hears heard
  | accepted heard _ => exact mute_hears heard

theorem mute_command {accounts : Accounts} {i : Introduction} {step : Step} {c : Command}
    (single : step.command? accounts i = some c) : c.turnout.Mute := by
  have greeted := mute_introduces i
  cases step with
  | helo name =>
    cases single
    exact mute_greets name
  | startTls =>
    cases single
    exact mute_andThen greeted
      (mute_andThen (mute_asks _ _) (mute_andThen mute_secures (mute_asks _ _)))
  | login user =>
    cases single
    exact mute_andThen greeted (mute_logsIn _)
  | recipient address =>
    cases single
    exact mute_asks _ _
  | sender | reset =>
    cases single
    exact mute_andThen greeted (mute_asks _ _)
  | header | body | unknown => cases single

end Turnout

/-- The remark that taking leave failed. -/
def leaveRemark (s : Setback) : String :=
  "# QUIT after queued message failed: " ++ s.message ++ "\n"

theorem leaves_cases (h : Leaves deals) :
    (∃ quit, deals = quit ++ [.closed] ∧ Turnout.command "QUIT" [221] quit (.ok ())) ∨
      ∃ quit s, deals = quit ++ [.closed, .noted (leaveRemark s)] ∧
        Turnout.command "QUIT" [221] quit (.error s) := by
  cases h with
  | answered asked => exact .inl ⟨_, rfl, asked⟩
  | remarked asked => exact .inr ⟨_, _, rfl, asked⟩

theorem Dealing.noted_inj {text other : String} (same : Dealing.noted text = .noted other) :
    text = other :=
  Request.note.inj (congrArg Dealing.request same)

/-- A remark is made only when the message was accepted and taking leave has failed, and it is the
last that is done. -/
theorem Script.Plays.noted {accounts : Accounts} {script : Script} {i : Introduction}
    {stream : Option Stuffing} {e : Ending} {text : String}
    (h : script.Plays accounts i stream deals e) (met : .noted text ∈ deals) :
    ∃ up quit s, deals = up ++ quit ++ [.closed, .noted text] ∧
      script.Accepted accounts i stream up ∧ Turnout.command "QUIT" [221] quit (.error s) ∧
      text = leaveRemark s ∧ e = .ok .queued := by
  have data : (Turnout.command "DATA" [354]).Mute := mute_asks _ _
  induction h with
  | exhausted | unknown | streamless => cases met
  | goesOn single succeeded _ ih =>
    obtain within | within := List.mem_append.1 met
    · exact absurd within (mute_command single _ _ succeeded text)
    · obtain ⟨up, quit, s, rfl, accepted, rest⟩ := ih within
      refine ⟨_, quit, s, ?_, .command single succeeded accepted, rest⟩
      simp only [List.append_assoc]
  | fails single failed => exact absurd met (mute_command single _ _ failed text)
  | unopened asked => exact absurd met (data _ _ asked text)
  | untold asked =>
    obtain within | within := List.mem_append.1 met
    · exact absurd within (data _ _ asked text)
    · simp at within
  | opened asked _ ih =>
    obtain within | within := List.mem_append.1 met
    · exact absurd within (data _ _ asked text)
    · obtain ⟨up, quit, s, rfl, accepted, rest⟩ := ih (by simpa using within)
      refine ⟨_, quit, s, ?_, .header asked accepted, rest⟩
      simp only [List.append_assoc, List.cons_append]
  | unfilled => simp at met
  | unaccepted asked =>
    obtain same | within := List.mem_cons.1 met
    · cases same
    · exact absurd within (mute_asks _ _ _ _ asked text)
  | @accepted i stream content rest first second asked leaves =>
    cases asked with
    | @accepted _ r heard code =>
      cases heard
      have code : r.code = 250 := by simpa using code
      have later : .noted text ∈ second := by
        simpa only [List.cons_append, List.nil_append, List.mem_cons, reduceCtorEq, false_or,
          Dealing.mk.injEq, false_and] using met
      obtain ⟨quit, rfl, left⟩ | ⟨quit, s, rfl, left⟩ := leaves_cases leaves
      all_goals
        obtain within | last := List.mem_append.1 later
        · exact absurd within (mute_asks _ _ _ _ left text)
      · cases List.mem_singleton.1 last
      · obtain same | last := List.mem_cons.1 last
        · cases same
        obtain rfl := Dealing.noted_inj (List.mem_singleton.1 last)
        refine ⟨_, quit, s, ?_, .body code, left, rfl, rfl⟩
        simp only [List.cons_append, List.nil_append]

/-- Up to the reply that accepts the message there is no remark. -/
theorem Script.Accepted.unremarked {accounts : Accounts} {script : Script} {i : Introduction}
    {stream : Option Stuffing} (h : script.Accepted accounts i stream deals) : Unremarked deals := by
  induction h with
  | command single succeeded _ ih =>
    exact unremarked_append.2 ⟨mute_command single _ _ succeeded, ih⟩
  | header asked _ ih =>
    refine unremarked_append.2 ⟨mute_asks _ _ _ _ asked, fun text met => ?_⟩
    exact (List.mem_cons.1 met).elim (fun same => by cases same) (ih text)
  | body => simp [Unremarked]

/-- What taking leave turned out to be is told by how its dealings begin. -/
theorem not_both_ways {quit quit' post post' : List Dealing} {s : Setback}
    (succeeded : Turnout.command "QUIT" [221] quit (.ok ()))
    (failed : Turnout.command "QUIT" [221] quit' (.error s)) : quit ++ post ≠ quit' ++ post' := by
  intro same
  cases succeeded with
  | accepted heard code =>
    cases heard
    cases failed with
    | fails heard' => cases heard' <;> cases same
    | refused heard' other =>
      cases heard'
      cases same
      exact other code

namespace Session

variable {route : Route} {accounts : Accounts} {script : Script} {peer : Peer}

/-- All that passes in a session; nothing if the client does not reach its peer. -/
def traffic (route : Route) (accounts : Accounts) (script : Script) (peer : Peer) : List Passage :=
  match peer.connect route.host route.port route.timeout with
  | .connected c => c.traffic (dialogue accounts script)
  | _ => []

/-- The message was accepted, and taking leave then turned out so. -/
def Leaving (route : Route) (accounts : Accounts) (script : Script) (peer : Peer)
    (result : Except Setback Unit) : Prop :=
  ∃ greeting up quit post,
    dealings route accounts script peer = .got greeting :: (up ++ quit ++ post) ∧
    greeting.code = 220 ∧ script.Accepted accounts none none up ∧
    Turnout.command "QUIT" [221] quit result

theorem traffic_spoken :
    (traffic route accounts script peer).filterMap Passage.request? =
      spoken (dealings route accounts script peer) := by
  rw [traffic, dealings]
  rcases peer.connect route.host route.port route.timeout with c | ⟨after, s⟩ | _
  · exact Connection.traffic_asked _ _
  · rfl
  · rfl

theorem seen_session (route : Route) (accounts : Accounts) (script : Script) (peer : Peer) :
    (run route accounts script peer).transcript = told {} (traffic route accounts script peer) ∧
      (run route accounts script peer).sent =
        (traffic route accounts script peer).filterMap Passage.sent? := by
  rw [traffic]
  rcases connects : peer.connect route.host route.port route.timeout with c | ⟨after, s⟩ | _
  · have seen := Connection.seen_run (dialogue accounts script) c
    obtain ⟨after, -, rfl⟩ := Connection.connected_eq connects
    rw [run_connected connects]
    exact ⟨seen.transcript, seen.sent⟩
  · rw [run, connects]
    exact ⟨rfl, rfl⟩
  · rw [run, connects]
    exact ⟨rfl, rfl⟩

/-- After some of its dealings a session is what they lead to. -/
theorem session_of_dealings {x : Dealing} {pre : List Dealing}
    (met : x ∈ dealings route accounts script peer)
    (within : pre <+: dealings route accounts script peer) :
    ∃ (d : Dialogue Ending) (c : Connection) (before : List Passage),
      Leads (dialogue accounts script) pre d ∧
      dealings route accounts script peer = pre ++ c.dealings d ∧
      run route accounts script peer = report (c.run d) ∧
      traffic route accounts script peer = before ++ c.traffic d ∧
      before.filterMap Passage.request? = spoken pre := by
  rcases connects : peer.connect route.host route.port route.timeout with c | ⟨after, s⟩ | _
  · rw [dealings_connected connects] at within ⊢
    obtain ⟨d, c', before, leads, deals, ran, passes, asked⟩ := Connection.traffic_of_dealings within
    refine ⟨d, c', before, leads, deals, ?_, ?_, asked⟩
    · rw [run_connected connects, ran]
    · rw [traffic, connects]
      exact passes
  all_goals
    rw [dealings, connects] at met
    cases met

/-- Once a remark is made a session only closes its connection. -/
theorem session_remarks {pre : List Dealing} {text : String} {e : Ending}
    (leads : Leads (dialogue accounts script) (pre ++ [.noted text, .closed]) (.done e))
    (met : .noted text ∈ dealings route accounts script peer)
    (within : pre <+: dealings route accounts script peer) :
    dealings route accounts script peer = pre ++ [.noted text, .closed] ∧
      (run route accounts script peer).ending = some e ∧
      ∃ before, traffic route accounts script peer = before ++ [.noted text] ∧
        before.filterMap Passage.request? = spoken pre := by
  obtain ⟨d, c, before, leads', deals, ran, passes, asked⟩ := session_of_dealings met within
  obtain ⟨next, rfl, leads⟩ := (leads.rest leads').of_cons
  obtain ⟨next', closes, leads⟩ := leads.of_cons
  have ended := leads.of_nil
  have closing : next () = .ask .close fun _ => .done e := by
    rw [closes, ← ended]
  rw [deals, ran, passes]
  refine ⟨?_, ?_, before, ?_, asked⟩
  · simp only [Connection.dealings, Connection.perform, closing]
  · simp only [Connection.run, Connection.perform, closing, report]
  · simp only [Connection.traffic, Connection.perform, Connection.performTraffic, closing,
      List.append_nil]

/-- A remark is made only when the message was accepted and taking leave has failed. It is the last
that passes, and the session tells that its message was queued. -/
theorem noted_dealings {text : String} (met : .noted text ∈ dealings route accounts script peer) :
    ∃ greeting up quit s, dealings route accounts script peer =
        .got greeting :: (up ++ (quit ++ [.closed, .noted text, .closed])) ∧
      greeting.code = 220 ∧ script.Accepted accounts none none up ∧
      Turnout.command "QUIT" [221] quit (.error s) ∧ text = leaveRemark s ∧
      (run route accounts script peer).ending = some (.ok .queued) ∧
      ∃ before, traffic route accounts script peer = before ++ [.noted text] ∧
        ∀ other, .note other ∉ before.filterMap Passage.request? := by
  obtain ⟨more, e, passes⟩ := passes_dealings met
  have leads := leads_of_passes passes
  generalize all : dealings route accounts script peer ++ more = deals at passes leads
  have among : .noted text ∈ deals := all ▸ List.mem_append_left _ met
  cases passes with
  | unanswered | unwelcome => simp at among
  | @greeted greeting played _ fine plays =>
    have within : .noted text ∈ played := by simpa using among
    obtain ⟨up, quit, s, rfl, accepted, left, rfl, rfl⟩ := plays.noted within
    have mute : Unremarked (.got greeting :: (up ++ quit ++ [.closed])) := by
      intro other
      simp [accepted.unremarked other, mute_asks _ _ _ _ left other]
    have split : .got greeting :: (up ++ quit ++ [.closed, .noted (leaveRemark s)] ++ [.closed]) =
        .got greeting :: (up ++ quit ++ [.closed]) ++ [.noted (leaveRemark s), .closed] := by
      simp only [List.append_assoc, List.cons_append, List.nil_append]
    rw [split] at all leads
    have before : .got greeting :: (up ++ quit ++ [.closed]) <+:
        dealings route accounts script peer := by
      obtain ahead | behind := List.prefix_or_prefix_of_prefix (all ▸ List.prefix_append _ more)
        (List.prefix_append _ [Dealing.noted (leaveRemark s), Dealing.closed])
      · exact absurd (ahead.subset met) (mute _)
      · exact behind
    obtain ⟨deals, ended, before, passes, asked⟩ := session_remarks leads met before
    refine ⟨greeting, up, quit, s, ?_, fine, accepted, left, rfl, ended, before, passes, ?_⟩
    · rw [deals]
      simp only [List.append_assoc, List.cons_append, List.nil_append]
    · rw [asked]
      intro other told
      obtain ⟨x, mem, same⟩ := List.mem_map.1 (List.mem_filter.1 told).1
      obtain rfl : x = .noted other := by
        obtain ⟨_, answer⟩ := x
        cases same
        rfl
      exact mute other mem

/-- What follows the acceptance of a message: leave is taken, and the connection closed. -/
theorem after_accepted {greeting : Reply} {up post : List Dealing} {e : Ending}
    (fine : greeting.code = 220) (accepted : script.Accepted accounts none none up)
    (leads : Leads (dialogue accounts script) (.got greeting :: (up ++ post)) (.done e)) :
    ∃ leaves, post = leaves ++ [.closed] ∧ Leaves leaves := by
  obtain ⟨j, within⟩ := leads_dialogue fine accepted
  obtain ⟨first, ⟨result, i⟩, second, rfl, leaves, closes⟩ := Leads.bind_iff.1 (leads.rest within)
  obtain ⟨leaves, -, -⟩ := comes_leaving.1 leaves
  obtain ⟨_, rfl, -⟩ := Leads.request_iff.1 closes
  exact ⟨first, rfl, leaves⟩

theorem noted_of_traffic {text : String}
    (met : .noted text ∈ traffic route accounts script peer) :
    .noted text ∈ dealings route accounts script peer := by
  have asked : .note text ∈ spoken (dealings route accounts script peer) := by
    rw [← traffic_spoken]
    exact List.mem_filterMap.2 ⟨_, met, rfl⟩
  obtain ⟨⟨_, answer⟩, mem, same⟩ := List.mem_map.1 (List.mem_filter.1 asked).1
  cases same
  exact mem

theorem traffic_of_noted {text : String}
    (met : .noted text ∈ dealings route accounts script peer) :
    .noted text ∈ traffic route accounts script peer := by
  obtain ⟨_, _, _, _, _, _, _, _, _, _, before, passes, _⟩ := noted_dealings met
  rw [passes]
  exact List.mem_append_right _ (List.mem_singleton_self _)

/-- A session makes its remark if and only if its message was accepted and leave was not taken as it
should be. -/
theorem noted_iff : (∃ text, .noted text ∈ traffic route accounts script peer) ↔
    (run route accounts script peer).ending = some (.ok .queued) ∧
      ¬ Leaving route accounts script peer (.ok ()) := by
  constructor
  · rintro ⟨text, met⟩
    obtain ⟨greeting, up, quit, s, deals, -, -, failed, -, ended, -⟩ :=
      noted_dealings (noted_of_traffic met)
    refine ⟨ended, ?_⟩
    rintro ⟨greeting', up', quit', post, deals', fine, accepted, succeeded⟩
    have leads := leads_of_passes (passes_of_decided ended)
    rw [deals', List.append_assoc] at leads
    obtain ⟨leaves, rest, left⟩ := after_accepted fine accepted leads
    obtain ⟨quit'', rfl, -⟩ | ⟨quit'', s', rfl, failed'⟩ := leaves_cases left
    · -- The remark would have to be the last but one.
      rw [deals', List.append_assoc, rest] at deals
      have last := congrArg List.reverse deals
      simp at last
    · rw [List.append_assoc] at rest
      exact not_both_ways succeeded failed' rest
  · rintro ⟨queued, other⟩
    obtain ⟨greeting, deals, same, fine, ⟨-, up, post, rfl, accepted⟩ | refused⟩ := decided queued
    · have leads := leads_of_passes (passes_of_decided queued)
      rw [same, List.append_assoc] at leads
      obtain ⟨leaves, rest, left⟩ := after_accepted fine accepted leads
      obtain rfl := List.append_cancel_right rest
      obtain ⟨quit, rfl, succeeded⟩ | ⟨quit, s, rfl, failed⟩ := leaves_cases left
      · refine absurd ⟨greeting, up, quit, [.closed, .closed], ?_, fine, accepted, succeeded⟩ other
        rw [same]
        simp only [List.append_assoc, List.cons_append, List.nil_append]
      · refine ⟨leaveRemark s, traffic_of_noted ?_⟩
        rw [same]
        simp
    · exact absurd rfl refused.ne_queued

/-- The transcript of a session tells its traffic. In its order there is one chunk for each write,
which is the line of a command, or the text of the octets alone, and one for each chunk that gave
text while the client listened. What was asked is seen once each; a write that was refused is
neither told nor sent, and what was sent is told in its place. The last may be the remark that
taking leave failed: there is one if and only if the message was accepted and leave was not taken as
it should be, and none elsewhere. -/
theorem transcript_told (route : Route) (accounts : Accounts) (script : Script) (peer : Peer) :
    (run route accounts script peer).transcript = told {} (traffic route accounts script peer) ∧
    (run route accounts script peer).sent =
      (traffic route accounts script peer).filterMap Passage.sent? ∧
    (traffic route accounts script peer).filterMap Passage.request? =
      spoken (dealings route accounts script peer) ∧
    (∀ text d, (Passage.wrote (encode text)).chunks d = [text] ∧
      (Passage.lost (encode text)).chunks d = [text]) ∧
    ((∃ text, .noted text ∈ traffic route accounts script peer) ↔
      (run route accounts script peer).ending = some (.ok .queued) ∧
        ¬ Leaving route accounts script peer (.ok ())) ∧
    ∀ text, .noted text ∈ traffic route accounts script peer → ∃ before s,
      traffic route accounts script peer = before ++ [.noted text] ∧
        (∀ other, .noted other ∉ before) ∧ text = leaveRemark s ∧
        Leaving route accounts script peer (.error s) := by
  obtain ⟨transcript, sent⟩ := seen_session route accounts script peer
  refine ⟨transcript, sent, traffic_spoken, fun text d => ?_, noted_iff, fun text met => ?_⟩
  · have line : String.ofList (decode (encode text)) = text := by
      rw [decode_encode, String.ofList_toList]
    exact ⟨congrArg (fun t => [t]) line, congrArg (fun t => [t]) line⟩
  · obtain ⟨greeting, up, quit, s, deals, fine, accepted, failed, same, -, before, passes, none⟩ :=
      noted_dealings (noted_of_traffic met)
    refine ⟨before, s, passes, fun other within => ?_, same, greeting, up, quit,
      [.closed, .noted text, .closed], ?_, fine, accepted, failed⟩
    · exact none other (List.mem_filterMap.2 ⟨_, within, rfl⟩)
    · rw [deals]
      simp only [List.append_assoc]

end Session
end FilterBench
