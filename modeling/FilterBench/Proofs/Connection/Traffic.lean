import FilterBench.Proofs.Connection.Losing
import FilterBench.Proofs.Session.Dealings
import FilterBench.Proofs.Session.SecureChannel

/-!
# The traffic of a connection

What passes between a client and its channel can be seen from outside, without the client's own
records: what the client asks to write and what comes of it, each chunk that arrives while it
listens, the change to a secure channel, and remarks (`Connection.traffic`). The records are the
traffic retold (`Connection.seen_run`): the transcript shows each write with the text of its octets
alone, and each chunk with the text that a decoder gives for it which has read the chunks before it
on the same channel; what was sent are the writes that found the channel open.
-/
namespace FilterBench
open Utf8

inductive Passage where
  | wrote (data : Bytes)
  /-- The client wrote this to a channel that was over. -/
  | lost (data : Bytes)
  /-- The client was to write this, but a failure was recorded. -/
  | refused (data : Bytes)
  /-- A chunk came while the client listened. -/
  | arrived (chunk : Bytes)
  | secured
  | noted (text : String)
  deriving DecidableEq, Repr

namespace Passage

def sent? : Passage → Option Bytes
  | .wrote data => some data
  | _ => none

/-- What the client was asked to say, whatever came of it. -/
def request? : Passage → Option Request
  | .wrote data => some (.write data)
  | .lost data => some (.write data)
  | .refused data => some (.write data)
  | .noted text => some (.note text)
  | _ => none

/-- What becomes of the decoder of a channel. -/
def decoder (d : Decoder) : Passage → Decoder
  | .arrived chunk => (d.read chunk).1
  | .secured => {}
  | _ => d

/-- The chunks of a transcript that tell it. -/
def chunks (d : Decoder) : Passage → List String
  | .wrote data => [String.ofList (decode data)]
  | .lost data => [String.ofList (decode data)]
  | .refused _ => []
  | .arrived chunk => if (d.read chunk).2 = [] then [] else [String.ofList (d.read chunk).2]
  | .secured => []
  | .noted text => [text]

end Passage

/-- A client is asked to say something. -/
def Request.speaks : Request → Bool
  | .write _ => true
  | .note _ => true
  | _ => false

/-- The requests that some dealings answer, as far as they are to say something. -/
def spoken (deals : List Dealing) : List Request :=
  (deals.map (·.request)).filter Request.speaks

theorem spoken_append (first second : List Dealing) :
    spoken (first ++ second) = spoken first ++ spoken second := by
  rw [spoken, List.map_append, List.filter_append]
  rfl

/-- The decoder after some traffic. -/
def decoderAfter (d : Decoder) (traffic : List Passage) : Decoder := traffic.foldl Passage.decoder d

/-- The transcript that tells some traffic. -/
def told (d : Decoder) : List Passage → List String
  | [] => []
  | p :: rest => p.chunks d ++ told (p.decoder d) rest

theorem told_append (d : Decoder) (first second : List Passage) :
    told d (first ++ second) = told d first ++ told (decoderAfter d first) second := by
  induction first generalizing d with
  | nil => rfl
  | cons p rest ih =>
    rw [List.cons_append, told, ih, told, List.append_assoc]
    rfl

namespace Connection

/-! ## What can be seen from outside -/

/-- What arrives when the peer does one thing. -/
def arrival (heard : Bool) (c : Connection) : PeerAct → List Passage
  | .sends chunk => if heard ∧ c.isOver = false then [.arrived chunk] else []
  | _ => []

/-- What arrives while the peer does some things one after the other. -/
def arrivals (heard : Bool) : Turn → Connection → List Passage
  | [], _ => []
  | a :: rest, c => c.arrival heard a ++ arrivals heard rest (c.act heard a)

/-- What arrives while parts are played. -/
def playTraffic (wanted : Connection → Part → Bool) : Schedule → Connection → List Passage
  | [], _ => []
  | p :: rest, c =>
    if wanted c p then
      arrivals (c.listening && !p.stale) p.turn.prompt { c with now := max c.now p.due } ++
        playTraffic wanted (Schedule.add? ((c.play p).left? p) rest) (c.play p)
    else []
termination_by s => Schedule.weight s
decreasing_by
  apply Schedule.weight_add?_lt
  intro q h
  simp only [left?] at h
  split at h
  · simp at h
  · exact Part.weight_next? h

/-- What arrives while the peer begins its next turn. -/
def respondTraffic (c : Connection) : List Passage :=
  match c.turns with
  | [] => []
  | turn :: turns => arrivals c.listening turn.prompt { c with turns := turns }

def writeTraffic (c : Connection) (data : Bytes) : List Passage :=
  match c.inbox.failure with
  | some _ => [.refused data]
  | none =>
    if c.isOver then [.lost data] else .wrote data :: (c.record (.wrote data)).respondTraffic

def awaitTraffic (c : Connection) : List Passage :=
  match c.inbox.take? with
  | some _ => []
  | none => playTraffic awaits c.awaiting.upcoming c.awaiting

def secureTraffic (c : Connection) : List Passage :=
  match c.handshakes.headD (.settles 0 none) with
  | .never =>
    playTraffic (fun _ _ => true) c.forsaken { c.handshaking with dropped := false, spoiled := false }
  | .settles after none =>
    playTraffic (fun _ p => p.isBefore (c.now + after)) c.forsaken c.handshaking ++ [.secured]
  | .settles after (some _) =>
    playTraffic (fun _ p => p.isBefore (c.now + after)) c.forsaken c.handshaking

def performTraffic (c : Connection) : Request → List Passage
  | .write data => c.writeTraffic data
  | .await => c.awaitTraffic
  | .secure => c.secureTraffic
  | .close => []
  | .note text => [.noted text]

/-- All that passes while a dialogue is carried out. -/
def traffic {α : Type} : Dialogue α → Connection → List Passage
  | .done _, _ => []
  | .ask q next, c =>
    c.performTraffic q ++
      match c.perform q with
      | (c, some answer) => traffic (next answer) c
      | (_, none) => []

/-! ## The records retell it -/

/-- The records have grown by what is told of some traffic. -/
structure Seen (c : Connection) (traffic : List Passage) (c' : Connection) : Prop where
  transcript : c'.transcript = c.transcript ++ told c.inbox.decoder traffic
  sent : c'.sent = c.sent ++ traffic.filterMap Passage.sent?
  decoder : c'.inbox.decoder = decoderAfter c.inbox.decoder traffic

variable {c c' d : Connection} {first second : List Passage}

namespace Seen

theorem refl (c : Connection) : c.Seen [] c :=
  ⟨(List.append_nil _).symm, (List.append_nil _).symm, rfl⟩

theorem trans (h : c.Seen first d) (h' : d.Seen second c') : c.Seen (first ++ second) c' where
  transcript := by
    rw [h'.transcript, h.transcript, h.decoder, List.append_assoc, told_append]
  sent := by
    rw [h'.sent, h.sent, List.append_assoc, List.filterMap_append]
  decoder := by
    rw [h'.decoder, h.decoder, decoderAfter, decoderAfter, decoderAfter, List.foldl_append]

/-- Changes that concern neither the records nor the decoder. -/
theorem elsewhere (h : c.Seen first d) (history : c'.history = d.history)
    (decoder : c'.inbox.decoder = d.inbox.decoder) : c.Seen first c' where
  transcript := by
    rw [Connection.transcript, history]
    exact h.transcript
  sent := by
    rw [Connection.sent, history]
    exact h.sent
  decoder := decoder.trans h.decoder

/-- The same for changes that come first. -/
theorem after (h : d.Seen first c') (history : c.history = d.history)
    (decoder : c.inbox.decoder = d.inbox.decoder) : c.Seen first c' :=
  ((refl c).elsewhere history.symm decoder.symm).trans h

theorem fail (h : c.Seen first d) (s : Setback) : c.Seen first (d.fail s) :=
  h.elsewhere rfl (d.inbox.fail_reads s).1

theorem finish (h : c.Seen first d) (heard : Bool) (s : Setback) :
    c.Seen first (d.finish heard s) := by
  cases heard
  · exact h
  · exact h.fail s

end Seen

theorem transcript_record (c : Connection) (e : Event) :
    (c.record e).transcript = c.transcript ++ (Event.shown? e).toList := by
  rw [transcript, record, List.filterMap_append]
  cases e <;> rfl

/-- What a passage leaves in the records. -/
theorem seen_record {e : Event} {p : Passage}
    (shows : (Event.shown? e).toList = p.chunks c.inbox.decoder) (sends : e.sent? = p.sent?)
    (reads : p.decoder c.inbox.decoder = c.inbox.decoder) : c.Seen [p] (c.record e) where
  transcript := by rw [transcript_record, told, told, List.append_nil, shows]
  sent := by
    rw [sent_record, sends, List.filterMap_cons, List.filterMap_nil]
    cases p.sent? <;> rfl
  decoder := reads.symm

/-- Records that nobody outside sees. -/
theorem seen_nothing {e : Event} (shows : e.shown? = none) (sends : e.sent? = none) :
    c.Seen [] (c.record e) where
  transcript := by
    rw [transcript_record, shows]
    rfl
  sent := by
    rw [sent_record, sends]
    rfl
  decoder := rfl

theorem seen_hear (c : Connection) (chunk : Bytes) : c.Seen [.arrived chunk] (c.hear chunk) := by
  rcases read : c.inbox.decoder.read chunk with ⟨decoder, text⟩
  by_cases none : text = []
  · subst none
    have silent : told c.inbox.decoder [.arrived chunk] = [] := by
      simp [told, Passage.chunks, read]
    rw [hear_of_nil read]
    refine ⟨?_, (List.append_nil _).symm, ?_⟩
    · rw [silent]
      exact (List.append_nil _).symm
    · exact (congrArg Prod.fst read).symm
  · have shown : told c.inbox.decoder [.arrived chunk] = [String.ofList text] := by
      simp [told, Passage.chunks, read, none]
    have grown : (c.hear chunk).history = c.history ++ [.heard text] := by
      rw [hear_of_text read none]
      rfl
    have reads : (c.hear chunk).inbox.decoder = decoder := by
      rcases pushed : c.inbox.reader.push text with ⟨reader, line | replies⟩
      · rw [hear_of_error read none pushed]
        rfl
      · rw [hear_of_ok read none pushed]
        rfl
    refine ⟨?_, ?_, ?_⟩
    · rw [transcript, grown, List.filterMap_append, shown]
      rfl
    · rw [sent, grown, List.filterMap_append]
      rfl
    · rw [reads]
      exact (congrArg Prod.fst read).symm

theorem seen_act (heard : Bool) (c : Connection) (a : PeerAct) :
    c.Seen (c.arrival heard a) (c.act heard a) := by
  have ended : c.Seen [] { c with ended := true } := (Seen.refl c).elsewhere rfl rfl
  unfold act
  split
  · rename_i gone
    have nothing : c.arrival heard a = [] := by
      cases a <;> simp [arrival, gone]
    rw [nothing]
    exact .refl c
  · rename_i going
    cases a with
    | sends chunk =>
      cases heard
      · exact .refl c
      · rw [arrival, if_pos ⟨rfl, Bool.not_eq_true _ ▸ going⟩]
        exact seen_hear c chunk
    | closes => exact ended.finish heard .closed
    | breaksDown message => exact ended.finish heard (.brokenDown message)
    | failsWrite message => exact .refl c
    | waits ms => exact .refl c

theorem seen_acts (heard : Bool) (acts : Turn) (c : Connection) :
    c.Seen (arrivals heard acts c) (acts.foldl (act heard) c) := by
  induction acts generalizing c with
  | nil => exact .refl c
  | cons a acts ih => exact (seen_act heard c a).trans (ih (c.act heard a))

theorem seen_play (c : Connection) (p : Part) :
    c.Seen (arrivals (c.listening && !p.stale) p.turn.prompt { c with now := max c.now p.due })
      (c.play p) :=
  (seen_acts _ _ _).after rfl rfl

theorem seen_playWhile (wanted : Connection → Part → Bool) (s : Schedule) (c : Connection) :
    c.Seen (playTraffic wanted s c) (playWhile wanted s c) := by
  fun_induction playWhile wanted s c with
  | case1 c =>
    rw [playTraffic]
    exact (Seen.refl c).elsewhere rfl rfl
  | case2 p rest c wants ih =>
    rw [playTraffic, if_pos wants]
    exact (seen_play c p).trans ih
  | case3 p rest c unwanted =>
    rw [playTraffic, if_neg unwanted]
    exact (Seen.refl c).elsewhere rfl rfl

/-- In answer to a write the peer does the same as at any other time. -/
theorem foldl_answer_fst (acts : Turn) (r : Connection × Option String) :
    (acts.foldl answer r).1 = acts.foldl (act r.1.listening) r.1 := by
  induction acts generalizing r with
  | nil => rfl
  | cons a acts ih =>
    have first : (answer r a).1 = r.1.act r.1.listening a := by
      cases a with
      | failsWrite message =>
        rw [answer, act]
        split <;> rfl
      | _ => rfl
    rw [List.foldl_cons, ih, first, (keeps_act r.1.listening r.1 a).listening]
    rfl

theorem seen_respond (c : Connection) : c.Seen c.respondTraffic c.respond.1 := by
  rcases upcoming : c.turns with _ | ⟨turn, turns⟩
  · simp only [respondTraffic, respond, upcoming]
    exact .refl c
  · have played := seen_acts c.listening turn.prompt { c with turns := turns }
    have answered := foldl_answer_fst turn.prompt ({ c with turns := turns }, none)
    rw [← answered] at played
    simp only [respondTraffic, respond, upcoming]
    refine Seen.after (d := { c with turns := turns }) ?_ rfl rfl
    exact played.elsewhere rfl rfl

theorem seen_write (c : Connection) (data : Bytes) :
    c.Seen (c.writeTraffic data) (c.write data).1 := by
  rw [writeTraffic]
  obtain ⟨s, failure, same⟩ | ⟨failure, gone, same⟩ | ⟨failure, going, same⟩ := c.write_cases data
  · rw [same, failure]
    exact ⟨(List.append_nil _).symm, (List.append_nil _).symm, rfl⟩
  · rw [same, failure, gone]
    exact seen_record rfl rfl rfl
  · rw [same, failure, going]
    have wrote : c.Seen [.wrote data] (c.record (.wrote data)) := seen_record rfl rfl rfl
    exact wrote.trans (seen_respond _)

theorem seen_settle (c : Connection) : c.Seen (playTraffic awaits c.upcoming c) c.settle.1 := by
  have played := seen_playWhile awaits c.upcoming c
  rw [settle]
  split
  · exact played.elsewhere rfl rfl
  · have stopped : c.Seen (playTraffic awaits c.upcoming c)
        (playWhile awaits c.upcoming c).stopWaiting := played.elsewhere rfl rfl
    exact (stopped.fail (.timedOut _)).elsewhere rfl rfl
  · exact played

theorem seen_await (c : Connection) : c.Seen c.awaitTraffic c.await.1 := by
  have answered : c.Seen c.awaitTraffic c.answered.1 := by
    rw [awaitTraffic, Connection.answered]
    cases taken : c.inbox.take? with
    | some found =>
      exact (Seen.refl c).elsewhere rfl (Inbox.take?_reads taken).1
    | none => exact (seen_settle c.awaiting).after rfl rfl
  rw [await]
  split
  · rename_i c' r same
    rw [same] at answered
    have took : c'.Seen [] (c'.record (.took r)) := seen_nothing rfl rfl
    simpa using answered.trans took
  · exact answered

/-- The decoder of a new channel has read nothing. -/
theorem seen_secured (c : Connection) (now : ℕ) : c.Seen [.secured] (c.secured now) where
  transcript := by
    rw [secured, transcript_record]
    rfl
  sent := by
    rw [secured, sent_record]
    rfl
  decoder := rfl

theorem seen_secure (c : Connection) : c.Seen c.secureTraffic c.secure.1 := by
  rw [secureTraffic]
  rcases attempt : c.handshakes.headD (.settles 0 none) with _ | ⟨after, _ | cause⟩
  · rw [secure_of_never attempt]
    exact (seen_playWhile _ _ _).after rfl rfl
  · rw [secure_of_succeeds attempt]
    have played := (seen_playWhile (fun _ p => p.isBefore (c.now + after)) c.forsaken
      c.handshaking).after (c := c) rfl rfl
    exact played.trans (seen_secured _ _)
  · rw [secure_of_fails attempt]
    have played := (seen_playWhile (fun _ p => p.isBefore (c.now + after)) c.forsaken
      c.handshaking).after (c := c) rfl rfl
    exact played.elsewhere rfl rfl

theorem seen_perform (c : Connection) (q : Request) :
    c.Seen (c.performTraffic q) (c.perform q).1 := by
  cases q with
  | write data => exact seen_write c data
  | await => exact seen_await c
  | secure => exact seen_secure c
  | close =>
    have dropped : c.Seen [] { c with dropped := true } := (Seen.refl c).elsewhere rfl rfl
    exact dropped.finish c.listening .closed
  | note text => exact seen_record rfl rfl rfl

/-- The records retell what has passed, whatever is carried out and whatever the peer does. -/
theorem seen_run {α : Type} (d : Dialogue α) (c : Connection) :
    c.Seen (c.traffic d) (c.run d).1 := by
  induction d generalizing c with
  | done a => exact .refl c
  | ask q next ih =>
    have seen := seen_perform c q
    rw [traffic, run]
    rcases performed : c.perform q with ⟨c', _ | answer⟩
    · rw [performed] at seen
      rw [List.append_nil]
      exact seen
    · rw [performed] at seen
      exact seen.trans (ih answer c')

/-! ## What the client was asked to say -/

theorem arrivals_unasked (heard : Bool) (acts : Turn) (c : Connection) :
    (arrivals heard acts c).filterMap Passage.request? = [] := by
  induction acts generalizing c with
  | nil => rfl
  | cons a acts ih =>
    rw [arrivals, List.filterMap_append, ih, List.append_nil]
    cases a with
    | sends chunk =>
      rw [arrival]
      split <;> rfl
    | _ => rfl

theorem playTraffic_unasked (wanted : Connection → Part → Bool) (s : Schedule) (c : Connection) :
    (playTraffic wanted s c).filterMap Passage.request? = [] := by
  fun_induction playTraffic wanted s c with
  | case1 => rfl
  | case2 p rest c wants ih => rw [List.filterMap_append, ih, List.append_nil, arrivals_unasked]
  | case3 => rfl

theorem respondTraffic_unasked (c : Connection) :
    c.respondTraffic.filterMap Passage.request? = [] := by
  rw [respondTraffic]
  split
  · rfl
  · exact arrivals_unasked _ _ _

/-- Each request to say something is seen once. -/
theorem performTraffic_asked (c : Connection) (q : Request) :
    (c.performTraffic q).filterMap Passage.request? = [q].filter Request.speaks := by
  cases q with
  | write data =>
    rw [performTraffic, writeTraffic]
    split
    · rfl
    · split
      · rfl
      · have unasked := respondTraffic_unasked (c.record (.wrote data))
        rw [List.filterMap_cons, unasked]
        rfl
  | await =>
    rw [performTraffic, awaitTraffic]
    split
    · rfl
    · exact playTraffic_unasked _ _ _
  | secure =>
    rw [performTraffic, secureTraffic]
    split
    · exact playTraffic_unasked _ _ _
    · rw [List.filterMap_append, playTraffic_unasked]
      rfl
    · exact playTraffic_unasked _ _ _
  | close => rfl
  | note text => rfl

/-- What is never answered is no request to say something. -/
theorem speaks_of_stuck {q : Request} (stuck : c.perform q = (c', none)) : q.speaks = false := by
  cases q with
  | write data => cases (Prod.mk.inj stuck).2
  | note text => cases (Prod.mk.inj stuck).2
  | _ => rfl

/-- After some of its dealings a dialogue is what they lead to, and so is its traffic. -/
theorem traffic_of_dealings {α : Type} {d : Dialogue α} {c : Connection} {pre : List Dealing}
    (within : pre <+: c.dealings d) :
    ∃ (d' : Dialogue α) (c' : Connection) (before : List Passage), Leads d pre d' ∧
      c.dealings d = pre ++ c'.dealings d' ∧ c.run d = c'.run d' ∧
      c.traffic d = before ++ c'.traffic d' ∧ before.filterMap Passage.request? = spoken pre := by
  induction d generalizing c pre with
  | done a =>
    obtain rfl := List.prefix_nil.1 within
    exact ⟨.done a, c, [], .here _, rfl, rfl, rfl, rfl⟩
  | ask q next ih =>
    cases pre with
    | nil => exact ⟨.ask q next, c, [], .here _, rfl, rfl, rfl, rfl⟩
    | cons deal pre =>
      rcases performed : c.perform q with ⟨c₁, _ | answer⟩
      · rw [(dealings_stuck performed).1] at within
        cases List.prefix_nil.1 within
      · obtain ⟨deals, ran⟩ := dealings_ask (k := next) performed
        rw [deals, List.cons_prefix_cons] at within
        obtain ⟨rfl, within⟩ := within
        obtain ⟨d', c', before, leads, rest, goes, passes, asked⟩ := ih answer within
        refine ⟨d', c', c.performTraffic q ++ before, .step answer leads, ?_, ran.trans goes,
          ?_, ?_⟩
        · rw [deals, rest, List.cons_append]
        · rw [traffic, performed, List.append_assoc]
          exact congrArg _ passes
        · rw [List.filterMap_append, performTraffic_asked, asked]
          exact (spoken_append [⟨q, answer⟩] pre).symm

/-- What the client was asked to say is seen once each, in its order. -/
theorem traffic_asked {α : Type} (d : Dialogue α) (c : Connection) :
    (c.traffic d).filterMap Passage.request? = spoken (c.dealings d) := by
  induction d generalizing c with
  | done a => rfl
  | ask q next ih =>
    rw [traffic, List.filterMap_append, performTraffic_asked]
    rcases performed : c.perform q with ⟨c', _ | answer⟩
    · rw [(dealings_stuck performed).1,
        List.filter_cons_of_neg (by simp [speaks_of_stuck performed])]
      rfl
    · rw [(dealings_ask performed).1]
      exact (congrArg _ (ih answer c')).trans (spoken_append [⟨q, answer⟩] _).symm

end Connection
end FilterBench
