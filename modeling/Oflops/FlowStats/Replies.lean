import Mathlib.Data.List.Induction
import Oflops.Lib.Bytes
import Oflops.Lib.Machine
import Oflops.Openflow.StatsRequest
import Oflops.Time

/-! `openflow_flow_stats` between its two event sources: the GETSTAT timer and the replies of the
switch, which share `stats_counter`. -/

namespace Oflops.FlowStats.Replies
open Lib.Bytes Lib.Machine Openflow.StatsRequest Time

structure StatsEntry where
  rcv : Timeval
  snd : Timeval
  pktCount : Int

/-- The length of `stats_counter`: `TEST_DURATION * SEC_TO_USEC / MIN_QUERY_DELAY`. -/
def statsCounterSize : Nat := 30 * 1000000 / 1000

/-- The static variables. Of `statsCounter` only the entries below the size exist. -/
structure State where
  statsCounter : Nat → StatsEntry
  transId : Nat
  statsCount : Nat

def initial : State := ⟨fun _ => ⟨⟨0, 0⟩, ⟨0, 0⟩, 0⟩, 0, 0⟩

def State.modifyEntry (size : Nat) (state : State) (i : Nat) (change : StatsEntry → StatsEntry) :
    Option State :=
  if i < size then
    some { state with
      statsCounter := Function.update state.statsCounter i (change (state.statsCounter i)) }
  else none

/-- A request is sent: its entry gets the time, and no reception time yet. -/
def State.sendRequest (size : Nat) (state : State) (time : Timeval) : Option State := do
  let next ← state.modifyEntry size state.transId fun entry =>
    { entry with snd := time, rcv := ⟨0, 0⟩ }
  some { next with transId := state.transId + 1 }

/-- The fields of `struct ofp_stats_reply` that are read, as they lie in the message. -/
structure StatsReply where
  xid : Nat
  type : Nat
  flags : Nat
  deriving DecidableEq, Repr

def ofpsfReplyMore : Nat := 1

def StatsReply.final (reply : StatsReply) : Bool :=
  ntohs reply.type = ofpstFlow ∧ ntohs reply.flags &&& ofpsfReplyMore = 0

inductive OfpMessage where
  | statsReply (reply : StatsReply)
  | error (type code : Nat)
  | other

/-- What the events do to the requests: one is sent, or its reception time is set. -/
inductive Mark where
  | sent (xid : Nat)
  | received (xid : Nat)
  deriving DecidableEq, Repr

/-- The GETSTAT branch of `handle_timer_event`, with the time the event was scheduled for. -/
def handleGetstat (state : State) (schedTime : Timeval) : Option (State × Option Mark) := do
  let next ← state.sendRequest statsCounterSize schedTime
  some (next, some (.sent state.transId))

/-- A statistics reply: every part is counted, and the last one of flow statistics sets the time. -/
def State.takeReply (size : Nat) (state : State) (now : Timeval) (reply : StatsReply) :
    Option (State × Option Mark) := do
  let xid := ntohl reply.xid
  let state ← state.modifyEntry size xid fun entry => { entry with pktCount := entry.pktCount + 1 }
  if reply.final then
    let state ← state.modifyEntry size xid fun entry => { entry with rcv := now }
    some ({ state with statsCount := state.statsCount + 1 }, some (.received xid))
  else some (state, none)

/-- `of_event_other`; an error message ends the process with a text. -/
def ofEventOther (state : State) (now : Timeval) :
    OfpMessage → Option (Except String (State × Option Mark))
  | .statsReply reply => (state.takeReply statsCounterSize now reply).map .ok
  | .error type code => some (.error s!"OFPT_ERROR(type: {type}, code: {code})")
  | .other => some (.ok (state, none))

inductive Event where
  | getstat (schedTime : Timeval)
  | statsReply (reply : StatsReply) (now : Timeval)

def step (state : State) : Event → Option (State × Option Mark)
  | .getstat schedTime => handleGetstat state schedTime
  | .statsReply reply now =>
    match ofEventOther state now (.statsReply reply) with
    | some (.ok next) => some next
    | _ => none

/-- No more answers than requests, and none for a request that was not sent before. -/
structure Sound (state : State) (log : List Mark) : Prop where
  counted : state.statsCount ≤ state.transId
  asked : ∀ before xid after, log = before ++ .received xid :: after → .sent xid ∈ before

/-- At every point of the run the accesses were inside the array and the bookkeeping is sound. -/
def Safe (events : List Event) : Prop :=
  ∀ before after, events = before ++ after →
    ∃ state log, run step initial before = some (state, log) ∧ Sound state log

/-! ### What a step does -/

section Step
variable (state : State)

def Event.index : Event → Nat
  | .getstat _ => state.transId
  | .statsReply reply _ => ntohl reply.xid

def Event.isRequest : Event → Bool
  | .getstat _ => true
  | .statsReply _ _ => false

def Event.isAnswer : Event → Bool
  | .getstat _ => false
  | .statsReply reply _ => reply.final

def Event.mark (event : Event) : Option Mark :=
  if event.isRequest then some (.sent (event.index state))
  else if event.isAnswer then some (.received (event.index state))
  else none

end Step

section Entries
variable {size : Nat}

theorem rcv_update (entries : Nat → StatsEntry) (i : Nat) (entry : StatsEntry) (j : Nat) :
    (Function.update entries i entry j).rcv = if j = i then entry.rcv else (entries j).rcv := by
  rw [Function.update_apply, apply_ite StatsEntry.rcv]

theorem rcv_update_same (entries : Nat → StatsEntry) (i j : Nat) :
    (if j = i then (entries i).rcv else (entries j).rcv) = (entries j).rcv := by
  split_ifs with here
  · rw [here]
  · rfl

theorem sendRequest_outside {state : State} (outside : ¬ state.transId < size) (time : Timeval) :
    state.sendRequest size time = none := by
  have fault : ∀ change, state.modifyEntry size state.transId change = none :=
    fun _ => if_neg outside
  rw [State.sendRequest, fault]
  rfl

theorem sendRequest_spec {state : State} (inside : state.transId < size) (time : Timeval) :
    ∃ next, state.sendRequest size time = some next ∧ next.transId = state.transId + 1 ∧
      next.statsCount = state.statsCount ∧
      ∀ i, (next.statsCounter i).rcv =
        if i = state.transId then ⟨0, 0⟩ else (state.statsCounter i).rcv := by
  have access : ∀ change, state.modifyEntry size state.transId change = some { state with
      statsCounter := Function.update state.statsCounter state.transId
        (change (state.statsCounter state.transId)) } := fun _ => if_pos inside
  have sent : state.sendRequest size time = some ⟨Function.update state.statsCounter state.transId
      { state.statsCounter state.transId with snd := time, rcv := ⟨0, 0⟩ },
      state.transId + 1, state.statsCount⟩ := by
    rw [State.sendRequest, access]
    rfl
  exact ⟨_, sent, rfl, rfl, fun i => rcv_update ..⟩

theorem takeReply_spec (state : State) (now : Timeval) {reply : StatsReply}
    (inside : ntohl reply.xid < size) :
    ∃ next, state.takeReply size now reply =
        some (next, if reply.final then some (.received (ntohl reply.xid)) else none) ∧
      next.transId = state.transId ∧ next.statsCount = state.statsCount + reply.final.toNat ∧
      ∀ i, (next.statsCounter i).rcv =
        if reply.final = true ∧ i = ntohl reply.xid then now else (state.statsCounter i).rcv := by
  have access : ∀ (state : State) change, state.modifyEntry size (ntohl reply.xid) change =
      some { state with
        statsCounter := Function.update state.statsCounter (ntohl reply.xid)
          (change (state.statsCounter (ntohl reply.xid))) } := fun _ _ => if_pos inside
  cases last : reply.final <;> simp [State.takeReply, access, last, rcv_update, rcv_update_same]

end Entries

section Step
variable (state : State)

theorem step_outside {event : Event} (outside : ¬ event.index state < statsCounterSize) :
    step state event = none := by
  cases event with
  | getstat schedTime =>
    rw [step, handleGetstat, sendRequest_outside outside]
    rfl
  | statsReply reply now =>
    have fault : ∀ change, state.modifyEntry statsCounterSize (ntohl reply.xid) change = none :=
      fun _ => if_neg outside
    simp [step, ofEventOther, State.takeReply, fault]

theorem step_inside {event : Event} (inside : event.index state < statsCounterSize) :
    ∃ next, step state event = some (next, event.mark state) ∧
      next.transId = state.transId + event.isRequest.toNat ∧
      next.statsCount = state.statsCount + event.isAnswer.toNat := by
  cases event with
  | getstat schedTime =>
    obtain ⟨next, sent, transId, statsCount, -⟩ := sendRequest_spec inside schedTime
    refine ⟨next, ?_, transId, statsCount⟩
    rw [step, handleGetstat, sent]
    rfl
  | statsReply reply now =>
    obtain ⟨next, taken, transId, statsCount, -⟩ := takeReply_spec state now inside
    refine ⟨next, ?_, transId, statsCount⟩
    simp only [step, ofEventOther, taken, Option.map_some]
    cases last : reply.final <;>
      simp [Event.mark, Event.isRequest, Event.isAnswer, Event.index, last]

end Step

def requests (events : List Event) : Nat := events.countP Event.isRequest

def answers (events : List Event) : Nat := events.countP Event.isAnswer

theorem countP_concat {α : Type} (p : α → Bool) (past : List α) (last : α) :
    (past ++ [last]).countP p = past.countP p + (p last).toNat := by
  rw [List.countP_append, List.countP_singleton, Bool.toNat, Bool.cond_eq_ite]

theorem requests_concat (past : List Event) (event : Event) :
    requests (past ++ [event]) = requests past + event.isRequest.toNat :=
  countP_concat Event.isRequest past event

theorem answers_concat (past : List Event) (event : Event) :
    answers (past ++ [event]) = answers past + event.isAnswer.toNat :=
  countP_concat Event.isAnswer past event

structure Tracks (state : State) (past : List Event) (log : List Mark) : Prop where
  transId : state.transId = requests past
  statsCount : state.statsCount = answers past
  sent : ∀ xid, .sent xid ∈ log ↔ xid < requests past

theorem Tracks.step {state next : State} {past : List Event} {log : List Mark} {event : Event}
    (tracks : Tracks state past log)
    (transId : next.transId = state.transId + event.isRequest.toNat)
    (statsCount : next.statsCount = state.statsCount + event.isAnswer.toNat) :
    Tracks next (past ++ [event]) (log ++ (event.mark state).toList) := by
  constructor
  · rw [transId, tracks.transId, requests_concat]
  · rw [statsCount, tracks.statsCount, answers_concat]
  · intro xid
    rw [List.mem_append, tracks.sent, requests_concat]
    cases event with
    | getstat schedTime =>
      simp [Event.mark, Event.isRequest, Event.index, tracks.transId]
      omega
    | statsReply reply now =>
      cases last : reply.final <;> simp [Event.mark, Event.isRequest, Event.isAnswer, last]

theorem run_tracks {state : State} {past : List Event} {log : List Mark}
    (ran : run step initial past = some (state, log)) : Tracks state past log := by
  induction past using List.reverseRecOn generalizing state log with
  | nil =>
    cases ran
    exact ⟨rfl, rfl, fun xid => by simp [requests]⟩
  | append_singleton past event ih =>
    obtain ⟨mid, early, next, output, before, stepped, -⟩ := run_split ran
    rw [run_concat event before, stepped] at ran
    cases ran
    by_cases inside : event.index mid < statsCounterSize
    · obtain ⟨next', stepped', transId, statsCount⟩ := step_inside mid inside
      cases stepped.symm.trans stepped'
      exact (ih before).step transId statsCount
    · cases stepped.symm.trans (step_outside mid inside)

/-- What the timer and the switch have to keep to: the timer sends no more requests than there are
entries, and the switch names an entry, answers what was asked, and not too often. -/
def Allowed (past : List Event) : Event → Prop
  | .getstat _ => requests past < statsCounterSize
  | .statsReply reply _ =>
    ntohl reply.xid < statsCounterSize ∧
      (reply.final → ntohl reply.xid < requests past ∧ answers past < requests past)

section Sound
variable {state next : State} {past : List Event} {log : List Mark} {event : Event}
  (tracks : Tracks state past log) (sound : Sound state log)
include tracks

theorem allowed_iff : Allowed past event ↔ event.index state < statsCounterSize ∧
    (event.isAnswer → event.index state < requests past ∧ answers past < requests past) := by
  cases event with
  | getstat schedTime => simp [Allowed, Event.index, Event.isAnswer, tracks.transId]
  | statsReply reply now => simp [Allowed, Event.index, Event.isAnswer]

include sound

omit tracks in
theorem sound_unanswered (silent : event.isAnswer = false)
    (transId : next.transId = state.transId + event.isRequest.toNat)
    (statsCount : next.statsCount = state.statsCount) :
    Sound next (log ++ (event.mark state).toList) := by
  constructor
  · rw [transId, statsCount]
    exact Nat.le_add_right_of_le sound.counted
  · intro before xid after split
    cases request : event.isRequest with
    | false =>
      rw [Event.mark, request, silent, if_neg (by decide), if_neg (by decide), Option.toList_none,
        List.append_nil] at split
      exact sound.asked before xid after split
    | true =>
      rw [Event.mark, request, if_pos rfl, Option.toList_some] at split
      obtain ⟨-, other⟩ | ⟨rest, earlier⟩ := concat_split split
      · cases other
      · exact sound.asked before xid rest earlier

theorem sound_answered_iff {xid : Nat} (transId : next.transId = state.transId)
    (statsCount : next.statsCount = state.statsCount + 1) :
    Sound next (log ++ [.received xid]) ↔ xid < requests past ∧ answers past < requests past := by
  rw [tracks.transId] at transId
  rw [tracks.statsCount] at statsCount
  constructor
  · intro after
    refine ⟨(tracks.sent _).mp (after.asked log _ [] rfl), ?_⟩
    have := after.counted
    omega
  · rintro ⟨asked, few⟩
    refine ⟨by omega, ?_⟩
    intro before other after split
    obtain ⟨rfl, same⟩ | ⟨rest, earlier⟩ := concat_split split
    · cases same
      exact (tracks.sent _).mpr asked
    · exact sound.asked before other rest earlier

theorem sound_step_iff (transId : next.transId = state.transId + event.isRequest.toNat)
    (statsCount : next.statsCount = state.statsCount + event.isAnswer.toNat) :
    Sound next (log ++ (event.mark state).toList) ↔
      (event.isAnswer → event.index state < requests past ∧ answers past < requests past) := by
  cases answer : event.isAnswer with
  | false =>
    rw [answer] at statsCount
    refine iff_of_true ?_ (fun impossible => by cases impossible)
    exact sound_unanswered sound answer transId statsCount
  | true =>
    have request : event.isRequest = false := by
      cases event with
      | getstat schedTime => cases answer
      | statsReply reply now => rfl
    rw [request] at transId
    rw [answer] at statsCount
    rw [Event.mark, request, answer, if_neg (by decide), if_pos rfl, Option.toList_some,
      sound_answered_iff tracks sound transId statsCount]
    exact ⟨fun both _ => both, fun both => both rfl⟩

theorem run_concat_iff (ran : run step initial past = some (state, log)) :
    (∃ next log', run step initial (past ++ [event]) = some (next, log') ∧ Sound next log') ↔
      Allowed past event := by
  rw [allowed_iff tracks, run_concat event ran]
  by_cases inside : event.index state < statsCounterSize
  · obtain ⟨next, stepped, transId, statsCount⟩ := step_inside state inside
    rw [stepped, ← sound_step_iff tracks sound transId statsCount]
    constructor
    · rintro ⟨other, log', same, after⟩
      cases same
      exact ⟨inside, after⟩
    · rintro ⟨-, after⟩
      exact ⟨next, _, rfl, after⟩
  · rw [step_outside state inside]
    constructor
    · rintro ⟨next, log', fault, -⟩
      cases fault
    · rintro ⟨there, -⟩
      exact absurd there inside

end Sound

/-- The run is safe exactly if every event is allowed. -/
theorem safe_iff_allowed (events : List Event) :
    Safe events ↔ ∀ before event after, events = before ++ event :: after →
      Allowed before event := by
  induction events using List.reverseRecOn with
  | nil =>
    refine iff_of_true ?_ (fun before event after split => by simp at split)
    intro before after split
    obtain ⟨rfl, -⟩ := List.append_eq_nil_iff.mp split.symm
    refine ⟨initial, [], rfl, Nat.le_refl 0, fun before xid after split => by simp at split⟩
  | append_singleton past event ih =>
    rw [Safe, forall_beginning_concat, forall_item_concat, ← ih]
    apply and_congr_right
    intro safe
    obtain ⟨state, log, ran, sound⟩ := safe past [] (List.append_nil _).symm
    exact run_concat_iff (run_tracks ran) sound ran

/-- After a second answer to the first request there are more answers than requests, an answer with
the xid 30000 is counted outside the array, and an answer to a request that was never sent sets a
time. -/
theorem unsafe_replies :
    ¬ Safe [.getstat ⟨1, 0⟩, .statsReply ⟨0, htons 1, 0⟩ ⟨2, 0⟩,
      .statsReply ⟨0, htons 1, 0⟩ ⟨2, 0⟩] ∧
      ¬ Safe [.getstat ⟨1, 0⟩, .statsReply ⟨htonl 30000, htons 1, 0⟩ ⟨2, 0⟩] ∧
      ¬ Safe [.getstat ⟨1, 0⟩, .statsReply ⟨htonl 5, htons 1, 0⟩ ⟨2, 0⟩] := by
  refine ⟨fun safe => ?_, fun safe => ?_, fun safe => ?_⟩
  · obtain ⟨state, log, ran, sound⟩ := safe _ [] (List.append_nil _).symm
    cases ran
    exact absurd sound.counted (by decide)
  · obtain ⟨state, log, ran, sound⟩ := safe _ [] (List.append_nil _).symm
    cases ran
  · obtain ⟨state, log, ran, sound⟩ := safe _ [] (List.append_nil _).symm
    cases ran
    exact absurd (sound.asked [.sent 0] 5 [] rfl) (by decide)

end Oflops.FlowStats.Replies
