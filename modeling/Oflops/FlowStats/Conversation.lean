import Oflops.FlowStats.Summary
import Oflops.FlowStats.Sweep

/-! The tests that ask a switch for statistics, in conversation with one: a timer sends the
requests, and the switch answers them, each with as many messages as it likes and whenever it likes,
but always with statistics of the kind that it was asked for. -/

namespace Oflops.FlowStats.Conversation
open Lib.Bytes Lib.Record Lib.Machine Lib.ArrayFill Time Traffic.Decode Openflow.StatsRequest
open Replies hiding step Event requests answers
open Summary hiding destroy
open Sweep (Params getStat queryExponent queryExponent_isSome_iff)

/-- The tests that send statistics requests from their event GETSTAT. -/
inductive Asker where
  | flowStats
  | aggrFlowStats
  | interactionTest
  deriving DecidableEq

namespace Asker

def size : Asker → Nat
  | .flowStats => statsCounterSize
  | .aggrFlowStats => 60 * 1000000 / 1000
  | .interactionTest => 120 * 1000000 / 1000

/-- The message of the event GETSTAT; `openflow_interaction_test` asks for all rules. -/
def request (params : Params) (transId statsCount : Nat) : Asker → Option (List UInt8)
  | .flowStats => Sweep.TestModule.flowStats.request params transId statsCount
  | .aggrFlowStats => Sweep.TestModule.aggrFlowStats.request params transId statsCount
  | .interactionTest => (makeOfpAggrFlowStats transId).map Prod.snd

end Asker

/-- The GETSTAT branch of `handle_timer_event`. -/
def handleGetstat (asker : Asker) (params : Params) (state : State) (time : Timeval) :
    Option (State × List UInt8) := do
  let next ← state.sendRequest asker.size time
  let b ← asker.request params state.transId state.statsCount
  some (next, b)

/-! ### of_event_other -/

def ofptError : Nat := 1
def ofptStatsReply : Nat := 17

def readMessage (message : List UInt8) : Option OfpMessage := do
  let type ← loadAt message 1 1
  if type = ofptStatsReply then
    some (.statsReply ⟨← loadAt message 4 4, ← loadAt message 8 2, ← loadAt message 10 2⟩)
  else if type = ofptError then
    some (.error (ntohs (← loadAt message 8 2)) (ntohs (← loadAt message 10 2)))
  else some .other

/-- The last part of an answer with aggregate statistics. -/
def finalAggregate (reply : StatsReply) : Bool :=
  ntohs reply.type = ofpstAggregate ∧ ntohs reply.flags &&& ofpsfReplyMore = 0

/-- `openflow_aggr_flow_stats` does not count the parts of an answer. -/
def aggrFlowStatsOther (state : State) (now : Timeval) :
    OfpMessage → Option (Except String (State × Option Mark))
  | .statsReply reply =>
    if finalAggregate reply then do
      let state ← state.modifyEntry Asker.aggrFlowStats.size (ntohl reply.xid) fun entry =>
        { entry with rcv := now }
      some (.ok ({ state with
        statsCount := state.statsCount + 1 }, some (.received (ntohl reply.xid))))
    else some (.ok (state, none))
  | .error type code => some (.error s!"OFPT_ERROR(type: {type}, code: {code})")
  | .other => some (.ok (state, none))

/-- `openflow_interaction_test` looks for flow statistics, and does not stop at an error. -/
def interactionTestOther (state : State) (now : Timeval) :
    OfpMessage → Option (Except String (State × Option Mark))
  | .statsReply reply => (state.takeReply Asker.interactionTest.size now reply).map .ok
  | .error _ _ => some (.ok (state, none))
  | .other => some (.ok (state, none))

def other (asker : Asker) (state : State) (now : Timeval) (message : OfpMessage) :
    Option (Except String (State × Option Mark)) :=
  match asker with
  | .flowStats => ofEventOther state now message
  | .aggrFlowStats => aggrFlowStatsOther state now message
  | .interactionTest => interactionTestOther state now message

/-! ### destroy -/

/-- In `openflow_aggr_flow_stats` the counter is decremented behind the loop. -/
def aggrReport (channel : Channel) : Option Report :=
  if (channel.ix : Int) - 1 > 0 then
    some ⟨channel.data.take (channel.ix - 1), channel.ix - 1, channel.maxId - channel.minId⟩
  else none

/-- The entries of `stats_counter` up to `trans_id`. -/
def sentRequests (state : State) : List StatsEntry :=
  (List.range state.transId).map state.statsCounter

/-- `destroy`, on the captured packets and the requests: the reports of the channels and that of the
requests. Without the latter it logs `stats_stats:fail`. -/
def destroy (asker : Asker) (entries : List Entry) (state : State) :
    Option ((Fin 3 → Option Report) × Option Report) :=
  match asker with
  | .flowStats => Summary.destroy entries (sentRequests state) state.statsCount
  | .aggrFlowStats => do
    let channels ← entries.foldlM collect (allocated entries)
    let stats ← (sentRequests state).foldlM (collectRequest state.statsCount)
      ⟨alloc state.statsCount, 0, intMax, intMin⟩
    some (fun ch => report (channels ch), aggrReport stats)
  -- no packet is looked at
  | .interactionTest => do
    let stats ← (sentRequests state).foldlM (collectRequest state.statsCount)
      ⟨alloc state.statsCount, 0, intMax, intMin⟩
    some (fun _ => none, report stats)

/-! ### The conversation -/

/-- The module, and the requests that the switch has got. -/
structure World where
  state : State
  asked : List (List UInt8)

def begin : World := ⟨initial, []⟩

/-- The timer goes off; the switch sends a part of the answer to the `k`-th request, or
another message. -/
inductive Action where
  | getstat (time : Timeval)
  | answer (k : Nat) (flags : UInt16) (body : List UInt8) (now : Timeval)
  | message (bytes : List UInt8) (now : Timeval)

/-- A part of an answer has the transaction number and the kind of the request. -/
def answer (request : List UInt8) (flags : UInt16) (body : List UInt8) : List UInt8 :=
  ([1, 17] ++ beBytes 2 (12 + body.length) ++ slice request 4 4) ++
    ((slice request 8 2 ++ beBytes 2 flags.toNat) ++ body)

/-- A message reaches the module; an error can end the test. -/
def deliver (asker : Asker) (world : World) (bytes : List UInt8) (now : Timeval) :
    Option (World × Option Mark) := do
  match ← other asker world.state now (← readMessage bytes) with
  | .ok (state, mark) => some ({ world with state }, mark)
  | .error _ => none

def act (asker : Asker) (params : Params) (world : World) : Action → Option (World × Option Mark)
  | .getstat time => do
    let (state, b) ← handleGetstat asker params world.state time
    some (⟨state, world.asked ++ [b]⟩, some (.sent world.state.transId))
  | .answer k flags body now => do
    let request ← world.asked[k]?
    deliver asker world (answer request flags body) now
  | .message bytes now => deliver asker world bytes now

def Action.asks : Action → Bool
  | .getstat _ => true
  | _ => false

def Action.closes : Action → Bool
  | .answer _ flags _ _ => flags.toNat &&& ofpsfReplyMore = 0
  | _ => false

/-- The timer may go off at any time. The switch answers what it was asked, when the clock has
started, and its other messages are neither answers nor errors. -/
def Allowed (past : List Action) : Action → Prop
  | .getstat _ => True
  | .answer k _ _ now => k < past.countP Action.asks ∧ now ≠ ⟨0, 0⟩
  | .message bytes _ => ∃ type rest, bytes = 1 :: type :: rest ∧
      type.toNat ≠ ofptStatsReply ∧ type.toNat ≠ ofptError

/-! ### What a step does -/

namespace Asker

def kind : Asker → Nat
  | .flowStats => ofpstFlow
  | _ => ofpstAggregate

def counts (asker : Asker) (reply : StatsReply) : Bool :=
  match asker with
  | .aggrFlowStats => finalAggregate reply
  | _ => reply.final

theorem size_le (asker : Asker) : asker.size ≤ 120000 := by
  cases asker <;> decide

end Asker

structure IsRequest (asker : Asker) (k : Nat) (b : List UInt8) : Prop where
  length : b.length = 56
  xid : slice b 4 4 = beBytes 4 k
  type : slice b 8 2 = beBytes 2 asker.kind

theorem makeStatsRequest_reads (transId statsType : Nat) :
    ∃ b, makeStatsRequest transId statsType = some (56, b) ∧ b.length = 56 ∧
      slice b 4 4 = beBytes 4 transId ∧
      slice b 8 2 = beBytes 2 statsType := by
  obtain ⟨b, made, length⟩ := makeStatsRequest_made transId statsType
  obtain ⟨b', assigned, same⟩ : ∃ b',
    assign (List.replicate 56 0) (statsRequestFields 56 transId statsType) = some b' ∧
      some (56, b') = some (56, b) := by
    rw [makeStatsRequest] at made
    exact Option.bind_eq_some_iff.mp made
  cases same
  have apart : ((statsRequestFields 56 transId statsType).map place).Pairwise Apart := by
    simp [statsRequestFields, place, Apart, ofpStatsRequestSize]
  have xid : slice b 4 4 = leBytes 4 (htonl transId) :=
    slice_assign assigned apart (by simp [statsRequestFields]) (leBytes_length 4 _)
  have type : slice b 8 2 = leBytes 2 (htons statsType) :=
    slice_assign assigned apart (by simp [statsRequestFields]) (leBytes_length 2 _)
  refine ⟨b, made, length, ?_, ?_⟩
  · rw [xid]
    exact leBytes_swapBytes 4 transId
  · rw [type]
    exact leBytes_swapBytes 2 statsType

section
variable {asker : Asker} {params : Params}

theorem getStat_reads (rounded : (queryExponent params).isSome)
    {make : Nat → Option (Nat × List UInt8)} {transId statsType : Nat}
    (builder : make transId = makeStatsRequest transId statsType) (statsCount : Nat) :
    ∃ b, getStat make params transId statsCount = some b ∧ b.length = 56 ∧
      slice b 4 4 = beBytes 4 transId ∧
      slice b 8 2 = beBytes 2 statsType := by
  obtain ⟨exponent, known⟩ := Option.isSome_iff_exists.mp rounded
  obtain ⟨b, made, length, xid, type⟩ := makeStatsRequest_reads transId statsType
  obtain ⟨after, written, length'⟩ := assign_inside b
    [(ofpStatsRequestSize, leBytes 4 (htonl (Sweep.queryWildcards exponent))),
      (ofpStatsRequestSize + 32, leBytes 4 (htonl (Sweep.flowNetmask params exponent statsCount)))]
    (by simp [place, ofpStatsRequestSize, length])
  refine ⟨after, ?_, length'.trans length, ?_, ?_⟩
  · rw [getStat, known, builder, made]
    exact written
  · rw [slice_assign_apart written (by simp [place, Apart, ofpStatsRequestSize]), xid]
  · rw [slice_assign_apart written (by simp [place, Apart, ofpStatsRequestSize]), type]

theorem request_reads (rounded : (queryExponent params).isSome) (asker : Asker)
    (transId statsCount : Nat) :
    ∃ b, asker.request params transId statsCount = some b ∧ IsRequest asker transId b := by
  cases asker with
  | flowStats =>
    obtain ⟨b, made, length, xid, type⟩ :=
      getStat_reads rounded (rfl : makeOfpFlowGetStat transId = _) statsCount
    exact ⟨b, made, length, xid, type⟩
  | aggrFlowStats =>
    obtain ⟨b, made, length, xid, type⟩ :=
      getStat_reads rounded (rfl : makeOfpAggrFlowStats transId = _) statsCount
    exact ⟨b, made, length, xid, type⟩
  | interactionTest =>
    obtain ⟨b, made, length, xid, type⟩ := makeStatsRequest_reads transId ofpstAggregate
    refine ⟨b, ?_, length, xid, type⟩
    rw [Asker.request, makeOfpAggrFlowStats, made, Option.map_some]

theorem handleGetstat_spec (rounded : (queryExponent params).isSome) {state : State}
    (inside : state.transId < asker.size) (time : Timeval) :
    ∃ next b, handleGetstat asker params state time = some (next, b) ∧
      IsRequest asker state.transId b ∧ next.transId = state.transId + 1 ∧
      next.statsCount = state.statsCount ∧
      ∀ i, (next.statsCounter i).rcv =
        if i = state.transId then ⟨0, 0⟩ else (state.statsCounter i).rcv := by
  obtain ⟨b, made, isRequest⟩ := request_reads rounded asker state.transId state.statsCount
  obtain ⟨next, sent, kept⟩ := sendRequest_spec inside time
  refine ⟨next, b, ?_, isRequest, kept⟩
  rw [handleGetstat, sent, made]
  rfl

theorem other_spec (state : State) (now : Timeval) {reply : StatsReply}
    (inside : ntohl reply.xid < asker.size) :
    ∃ next mark, other asker state now (.statsReply reply) = some (.ok (next, mark)) ∧
      next.transId = state.transId ∧
      next.statsCount = state.statsCount + (asker.counts reply).toNat ∧
      ∀ i, (next.statsCounter i).rcv =
        if asker.counts reply = true ∧ i = ntohl reply.xid then now
        else (state.statsCounter i).rcv := by
  cases asker with
  | flowStats =>
    obtain ⟨next, taken, kept⟩ := takeReply_spec state now inside
    exact ⟨next, _, congrArg (Option.map Except.ok) taken, kept⟩
  | aggrFlowStats =>
    have access : ∀ change, state.modifyEntry Asker.aggrFlowStats.size (ntohl reply.xid) change =
        some { state with
          statsCounter := Function.update state.statsCounter (ntohl reply.xid)
            (change (state.statsCounter (ntohl reply.xid))) } := fun _ => if_pos inside
    cases last : finalAggregate reply <;>
      simp [other, aggrFlowStatsOther, access, Asker.counts, last, rcv_update]
  | interactionTest =>
    obtain ⟨next, taken, kept⟩ := takeReply_spec state now inside
    exact ⟨next, _, congrArg (Option.map Except.ok) taken, kept⟩

theorem readMessage_answer {k : Nat} {b : List UInt8} (isRequest : IsRequest asker k b)
    (flags : UInt16) (body : List UInt8) :
    readMessage (answer b flags body) =
      some (.statsReply ⟨leValue (beBytes 4 k), leValue (beBytes 2 asker.kind),
        leValue (beBytes 2 flags.toNat)⟩) := by
  obtain ⟨length, xid, kind⟩ := isRequest
  have front : ([1, 17] ++ beBytes 2 (12 + body.length) ++ slice b 4 4).length = 8 := by
    rw [xid]
    simp
  have long : 12 ≤ (answer b flags body).length := by
    rw [answer, List.length_append, front, kind]
    simp
    omega
  have type : loadAt (answer b flags body) 1 1 = some ofptStatsReply := loadAt_eq (by omega) rfl
  have number : slice (answer b flags body) 4 4 = beBytes 4 k := by
    rw [answer, slice_append_left _ (by rw [front]), slice_append_right _ (by simp), xid]
    simp [slice]
  have first : slice (answer b flags body) (8 + 0) 2 = beBytes 2 asker.kind := by
    rw [answer, slice_part front (by simp [kind]), kind]
    exact slice_append_left _ (by simp)
  have second : slice (answer b flags body) (8 + 2) 2 = beBytes 2 flags.toNat := by
    rw [answer, slice_part front (by simp [kind]), slice_append_right _ (by simp [kind]), kind]
    simp [slice]
  rw [readMessage, type, loadAt_eq (by omega) number, loadAt_eq (by omega) first,
    loadAt_eq (by omega) second]
  rfl

theorem counts_answer {k : Nat} (flags : UInt16) :
    asker.counts ⟨leValue (beBytes 4 k), leValue (beBytes 2 asker.kind),
      leValue (beBytes 2 flags.toNat)⟩ =
      (decide (asker ≠ .interactionTest) && decide (flags.toNat &&& ofpsfReplyMore = 0)) := by
  have small : flags.toNat < 2 ^ 16 := flags.toNat_lt
  have flow : ntohs (leValue (beBytes 2 1)) = 1 := by decide
  have aggregate : ntohs (leValue (beBytes 2 2)) = 2 := by decide
  have more : ntohs (leValue (beBytes 2 flags.toNat)) = flags.toNat := ntohs_beBytes small
  cases asker <;>
    simp [Asker.counts, Asker.kind, StatsReply.final, finalAggregate, ofpstFlow, ofpstAggregate,
      flow, aggregate, more]

/-! ### The run -/

structure Holds (asker : Asker) (world : World) (past : List Action) : Prop where
  transId : world.state.transId = past.countP Action.asks
  asked : world.asked.length = past.countP Action.asks
  room : past.countP Action.asks ≤ asker.size
  requests : ∀ k b, world.asked[k]? = some b → IsRequest asker k b
  statsCount : world.state.statsCount = if asker = .interactionTest then 0
    else past.countP Action.closes
  answered : (∃ i < world.state.transId, (world.state.statsCounter i).rcv ≠ ⟨0, 0⟩) ↔
    asker ≠ .interactionTest ∧ 0 < past.countP Action.closes

theorem holds_begin (asker : Asker) : Holds asker begin [] := by
  refine ⟨rfl, rfl, Nat.zero_le _, by simp [begin], by simp [begin, initial], ?_⟩
  simp [begin, initial]

section
variable {world : World} {past : List Action} (holds : Holds asker world past)
include holds

theorem Holds.getstat (rounded : (queryExponent params).isSome) (time : Timeval)
    (room : past.countP Action.asks < asker.size) :
    ∃ next mark, act asker params world (.getstat time) = some (next, mark) ∧
      Holds asker next (past ++ [.getstat time]) := by
  have inside : world.state.transId < asker.size := by rwa [holds.transId]
  obtain ⟨next, b, done, isRequest, transId, statsCount, rcv⟩ :=
    handleGetstat_spec rounded inside time
  have asks : (past ++ [Action.getstat time]).countP Action.asks = past.countP Action.asks + 1 :=
    countP_concat ..
  have closes : (past ++ [Action.getstat time]).countP Action.closes = past.countP Action.closes :=
    countP_concat ..
  refine ⟨⟨next, world.asked ++ [b]⟩, some (.sent world.state.transId), ?_, ?_, ?_, ?_, ?_, ?_, ?_⟩
  · rw [act, done]
    rfl
  · rw [transId, holds.transId, asks]
  · rw [List.length_append, holds.asked, asks, List.length_singleton]
  · rw [asks]
    exact room
  · intro k b' found
    rcases Nat.lt_trichotomy k world.asked.length with before | here | behind
    · rw [List.getElem?_append_left before] at found
      exact holds.requests k b' found
    · subst here
      rw [List.getElem?_concat_length] at found
      cases found
      rwa [holds.asked, ← holds.transId]
    · rw [List.getElem?_eq_none (by rw [List.length_append, List.length_singleton]; omega)] at found
      cases found
  · rw [statsCount, holds.statsCount, closes]
  · -- the new entry has no time
    rw [transId, closes, ← holds.answered]
    simp only [rcv]
    constructor
    · rintro ⟨i, inside, set⟩
      split_ifs at set with new
      · exact absurd rfl set
      · exact ⟨i, by omega, set⟩
    · rintro ⟨i, inside, set⟩
      exact ⟨i, by omega, by rwa [if_neg (by omega)]⟩

theorem Holds.answer {k : Nat} {flags : UInt16} {body : List UInt8} {now : Timeval}
    (allowed : Allowed past (.answer k flags body now)) :
    ∃ next mark, act asker params world (.answer k flags body now) = some (next, mark) ∧
      Holds asker next (past ++ [.answer k flags body now]) := by
  obtain ⟨asked, started⟩ := allowed
  have room := holds.room
  have size := asker.size_le
  have small : k < 2 ^ 32 := by omega
  obtain ⟨b, found⟩ : ∃ b, world.asked[k]? = some b :=
    ⟨_, List.getElem?_eq_getElem (by rwa [holds.asked])⟩
  have read := readMessage_answer (holds.requests k b found) flags body
  have number : ntohl (leValue (beBytes 4 k)) = k := ntohl_beBytes small
  have inside : ntohl (StatsReply.xid ⟨leValue (beBytes 4 k), leValue (beBytes 2 asker.kind),
      leValue (beBytes 2 flags.toNat)⟩) < asker.size := by
    rw [number]
    omega
  obtain ⟨next, mark, done, transId, statsCount, rcv⟩ := other_spec world.state now inside
  have asks : (past ++ [Action.answer k flags body now]).countP Action.asks =
      past.countP Action.asks := countP_concat ..
  have closes : (past ++ [Action.answer k flags body now]).countP Action.closes =
    past.countP Action.closes + (Action.closes (.answer k flags body now)).toNat := countP_concat ..
  rw [counts_answer] at statsCount rcv
  refine ⟨⟨next, world.asked⟩, mark, ?_, ?_, ?_, ?_, holds.requests, ?_, ?_⟩
  · simp only [act, found, deliver, read, done, Option.bind_eq_bind, Option.bind_some]
  · rw [transId, holds.transId, asks]
  · rw [holds.asked, asks]
  · rwa [asks]
  · rw [statsCount, holds.statsCount, closes]
    by_cases deaf : asker = .interactionTest
    · simp [deaf]
    · simp [deaf, Action.closes]
  · rw [transId, closes]
    by_cases counted : asker ≠ .interactionTest ∧ flags.toNat &&& ofpsfReplyMore = 0
    · refine iff_of_true ⟨k, by rwa [holds.transId], ?_⟩
        ⟨counted.1, by simp [Action.closes, counted.2]⟩
      rw [rcv, if_pos ⟨by simpa using counted, number.symm⟩]
      exact started
    · have kept : ∀ i, (next.statsCounter i).rcv = (world.state.statsCounter i).rcv := by
        intro i
        rw [rcv, if_neg (fun both => counted (by simpa using both.1))]
      simp only [kept, holds.answered]
      refine and_congr_right fun hears => ?_
      rw [Action.closes, decide_eq_false fun last => counted ⟨hears, last⟩,
        Bool.toNat_false, Nat.add_zero]

theorem Holds.message {bytes : List UInt8} {now : Timeval}
    (allowed : Allowed past (.message bytes now)) :
    ∃ next mark, act asker params world (.message bytes now) = some (next, mark) ∧
      Holds asker next (past ++ [.message bytes now]) := by
  obtain ⟨type, rest, rfl, answer, error⟩ := allowed
  have read : readMessage (1 :: type :: rest) = some .other := by
    have loaded : loadAt (1 :: type :: rest) 1 1 = some type.toNat := by
      have field : slice (1 :: type :: rest) 1 1 = [type] := rfl
      rw [loadAt_eq (by simp) field]
      simp [leValue]
    rw [readMessage, loaded, Option.bind_eq_bind, Option.bind_some, if_neg answer, if_neg error]
  have kept : other asker world.state now .other = some (.ok (world.state, none)) := by
    cases asker <;> rfl
  have asks : (past ++ [Action.message (1 :: type :: rest) now]).countP Action.asks =
      past.countP Action.asks :=
    countP_concat ..
  have closes : (past ++ [Action.message (1 :: type :: rest) now]).countP Action.closes =
      past.countP Action.closes :=
    countP_concat ..
  refine ⟨world, none, ?_, ?_, ?_, ?_, holds.requests, ?_, ?_⟩
  · simp only [act, deliver, read, kept, Option.bind_eq_bind, Option.bind_some]
  · rw [holds.transId, asks]
  · rw [holds.asked, asks]
  · rw [asks]
    exact holds.room
  · rw [holds.statsCount, closes]
  · rw [holds.answered, closes]

/-- A request behind the last entry is written outside the array. -/
theorem Holds.getstat_full (full : ¬past.countP Action.asks < asker.size) (time : Timeval) :
    act asker params world (.getstat time) = none := by
  rw [← holds.transId] at full
  rw [act, handleGetstat, sendRequest_outside full]
  rfl

theorem Holds.act (rounded : (queryExponent params).isSome) {action : Action}
    (allowed : Allowed past action) :
    (∃ next mark, act asker params world action = some (next, mark) ∧
      Holds asker next (past ++ [action])) ∨
    act asker params world action = none ∧ asker.size < (past ++ [action]).countP Action.asks := by
  cases action with
  | getstat time =>
    by_cases room : past.countP Action.asks < asker.size
    · exact .inl (holds.getstat rounded time room)
    · have asks : (past ++ [Action.getstat time]).countP Action.asks =
          past.countP Action.asks + 1 :=
        countP_concat ..
      exact .inr ⟨holds.getstat_full room time, by omega⟩
  | answer k flags body now => exact .inl (holds.answer allowed)
  | message bytes now => exact .inl (holds.message allowed)

end

theorem run_holds (rounded : (queryExponent params).isSome) {actions : List Action}
    (allowed : ∀ before action after, actions = before ++ action :: after → Allowed before action) :
    (∃ world log, run (act asker params) begin actions = some (world, log) ∧
      Holds asker world actions) ∨
    run (act asker params) begin actions = none ∧ asker.size < actions.countP Action.asks := by
  induction actions using List.reverseRecOn with
  | nil => exact .inl ⟨begin, [], rfl, holds_begin asker⟩
  | append_singleton past action ih =>
    obtain ⟨earlier, here⟩ := (forall_item_concat past action).mp allowed
    rcases ih earlier with ⟨world, log, ran, holds⟩ | ⟨failed, full⟩
    · rcases holds.act rounded here with ⟨next, mark, done, holds'⟩ | ⟨failed, full⟩
      · refine .inl ⟨next, log ++ mark.toList, ?_, holds'⟩
        rw [run_concat action ran, done, Option.map_some]
      · refine .inr ⟨?_, full⟩
        rw [run_concat action ran, failed, Option.map_none]
    · refine .inr ⟨?_, ?_⟩
      · by_contra ran
        obtain ⟨⟨world, log⟩, ran⟩ := Option.ne_none_iff_exists'.mp ran
        obtain ⟨mid, early, next, output, before, -⟩ := run_split ran
        rw [failed] at before
        cases before
      · rw [List.countP_append]
        omega

/-! ### The end -/

/-- The first delay is stored in front of the array. -/
theorem collectRequests_cases (n : Nat) (minId maxId : Int) (entries : List StatsEntry) :
    (entries.foldlM (collectRequest n) ⟨alloc n, 0, minId, maxId⟩ = none ∧
      0 < n ∧ ∃ entry ∈ entries, entry.rcv ≠ ⟨0, 0⟩) ∨
    (entries.foldlM (collectRequest n) ⟨alloc n, 0, minId, maxId⟩ =
      some ⟨alloc n, 0, minId, maxId⟩ ∧
      (0 < n → ∀ entry ∈ entries, entry.rcv = ⟨0, 0⟩)) := by
  induction entries with
  | nil => exact .inr ⟨rfl, by simp⟩
  | cons entry entries ih =>
    rw [List.foldlM_cons, collectRequest]
    simp only [rcv_eq_zero_iff, List.exists_mem_cons_iff, List.forall_mem_cons]
    by_cases skipped : entry.rcv = ⟨0, 0⟩ ∨ 0 ≥ n
    · rw [if_pos skipped, Option.bind_eq_bind, Option.bind_some]
      refine ih.imp (And.imp_right (And.imp_right .inr)) (And.imp_right fun silent positive => ?_)
      exact ⟨skipped.resolve_right (by omega), silent positive⟩
    · obtain ⟨answered, room⟩ := not_or.mp skipped
      rw [if_neg skipped]
      exact .inl ⟨rfl, by omega, .inl answered⟩

/-- Some entry up to `trans_id` has a reception time, and some answer was counted. -/
def Heard (state : State) : Prop :=
  0 < state.statsCount ∧ ∃ i < state.transId, (state.statsCounter i).rcv ≠ ⟨0, 0⟩

theorem sentRequests_cases (minId maxId : Int) (state : State) :
    ((sentRequests state).foldlM (collectRequest state.statsCount)
        ⟨alloc state.statsCount, 0, minId, maxId⟩ = none ∧ Heard state) ∨
    ((sentRequests state).foldlM (collectRequest state.statsCount)
        ⟨alloc state.statsCount, 0, minId, maxId⟩ = some ⟨alloc state.statsCount, 0, minId, maxId⟩ ∧
      ¬Heard state) := by
  rcases collectRequests_cases state.statsCount minId maxId (sentRequests state) with
    ⟨failed, positive, entry, member, answered⟩ | ⟨done, silent⟩
  · obtain ⟨i, inside, rfl⟩ := List.mem_map.mp member
    exact .inl ⟨failed, positive, i, List.mem_range.mp inside, answered⟩
  · refine .inr ⟨done, ?_⟩
    rintro ⟨positive, i, inside, answered⟩
    exact answered (silent positive _ (List.mem_map_of_mem (List.mem_range.mpr inside)))

/-- What makes `destroy` write outside an array. -/
def Fails (asker : Asker) (entries : List Entry) (state : State) : Prop :=
  asker ≠ .interactionTest ∧ (∃ ch, Overruns entries ch) ∨ Heard state

theorem fails_iff_heard {entries : List Entry} {channels : Fin 3 → Channel} {state : State}
    (collected : entries.foldlM collect (allocated entries) = some channels) :
    Fails asker entries state ↔ Heard state := by
  refine or_iff_right fun both => ?_
  rw [← collectAll_none_iff, collected] at both
  cases both.2

theorem destroy_cases (asker : Asker) (entries : List Entry) (state : State) :
    (destroy asker entries state = none ∧ Fails asker entries state) ∨
    (∃ ports, destroy asker entries state = some (ports, none)) ∧ ¬Fails asker entries state := by
  cases asker with
  | interactionTest =>
    have only : Fails .interactionTest entries state ↔ Heard state :=
      or_iff_right fun both => both.1 rfl
    rw [only]
    refine (sentRequests_cases intMax intMin state).imp ?_ ?_
    · rintro ⟨failed, heard⟩
      refine ⟨?_, heard⟩
      rw [destroy, failed]
      rfl
    · rintro ⟨done, unheard⟩
      refine ⟨⟨fun _ => none, ?_⟩, unheard⟩
      rw [destroy, done]
      rfl
  | flowStats =>
    cases collected : entries.foldlM collect (allocated entries) with
    | none =>
      refine .inl ⟨?_, .inl ⟨by decide, (collectAll_none_iff entries).mp collected⟩⟩
      rw [destroy, Summary.destroy, collected]
      rfl
    | some channels =>
      rw [fails_iff_heard collected, destroy, Summary.destroy, collected, Option.bind_eq_bind,
        Option.bind_some]
      refine (sentRequests_cases (channels 0).minId (channels 0).maxId state).imp ?_ ?_
      · rintro ⟨failed, heard⟩
        refine ⟨?_, heard⟩
        rw [failed]
        rfl
      · rintro ⟨done, unheard⟩
        refine ⟨⟨fun ch => report (channels ch), ?_⟩, unheard⟩
        rw [done]
        rfl
  | aggrFlowStats =>
    cases collected : entries.foldlM collect (allocated entries) with
    | none =>
      refine .inl ⟨?_, .inl ⟨by decide, (collectAll_none_iff entries).mp collected⟩⟩
      rw [destroy, collected]
      rfl
    | some channels =>
      rw [fails_iff_heard collected, destroy, collected, Option.bind_eq_bind, Option.bind_some]
      refine (sentRequests_cases intMax intMin state).imp ?_ ?_
      · rintro ⟨failed, heard⟩
        refine ⟨?_, heard⟩
        rw [failed]
        rfl
      · rintro ⟨done, unheard⟩
        refine ⟨⟨fun ch => report (channels ch), ?_⟩, unheard⟩
        rw [done]
        rfl

theorem Holds.heard_iff {world : World} {actions : List Action}
    (holds : Holds asker world actions) :
    Heard world.state ↔ asker ≠ .interactionTest ∧ ∃ action ∈ actions, action.closes = true := by
  rw [Heard, holds.answered, holds.statsCount, List.countP_pos_iff]
  refine ⟨And.right, fun heard => ⟨?_, heard⟩⟩
  rw [if_neg heard.1]
  exact List.countP_pos_iff.mpr heard.2

/-- The three tests with a switch that answers what it is asked, whenever it likes and in as many
parts as it likes. The accesses stay inside `stats_counter` exactly if there are no more requests
than it has entries. Then `openflow_interaction_test` never counts an answer, because it asks for
aggregate statistics and looks for those of flows, and no test reports how long the answers took: it
logs a failure, or it has written outside an array, which happens for the packets if all those of a
channel were kept, and for the requests as soon as one answer was counted. -/
theorem requests_unreported (asker : Asker) (small : params.query ≤ 2 ^ 30)
    {actions : List Action}
    (allowed : ∀ before action after, actions = before ++ action :: after → Allowed before action) :
    ((run (act asker params) begin actions).isSome ↔ actions.countP Action.asks ≤ asker.size) ∧
    ∀ world log, run (act asker params) begin actions = some (world, log) →
      world.state.transId = actions.countP Action.asks ∧
      world.state.statsCount =
        (if asker = .interactionTest then 0 else actions.countP Action.closes) ∧
      ∀ entries,
        (destroy asker entries world.state = none ↔ asker ≠ .interactionTest ∧
          ((∃ ch, Overruns entries ch) ∨ ∃ action ∈ actions, action.closes = true)) ∧
        ∀ ports stats, destroy asker entries world.state = some (ports, stats) → stats = none := by
  rcases run_holds ((queryExponent_isSome_iff params).mpr small) allowed with ⟨world, log, ran,
    holds⟩ | ⟨failed, full⟩
  · rw [ran]
    refine ⟨iff_of_true rfl holds.room, ?_⟩
    rintro _ _ ⟨⟩
    refine ⟨holds.transId, holds.statsCount, fun entries => ?_⟩
    rw [and_or_left, ← holds.heard_iff]
    rcases destroy_cases asker entries world.state with ⟨failed, cause⟩ | ⟨⟨ports, done⟩, none'⟩
    · rw [failed]
      exact ⟨iff_of_true rfl cause, fun ports stats impossible => by cases impossible⟩
    · rw [done]
      refine ⟨iff_of_false (fun impossible => by cases impossible) none', ?_⟩
      rintro _ _ ⟨⟩
      rfl
  · rw [failed]
    exact ⟨iff_of_false (by simp) (Nat.not_le.mpr full),
      fun world log impossible => by cases impossible⟩

end

def oneAnswer : List Action := [.getstat ⟨1400000000, 0⟩, .answer 0 0 [] ⟨1400000000, 500⟩]

theorem oneAnswer_allowed :
    ∀ before action after, oneAnswer = before ++ action :: after → Allowed before action := by
  intro before action after split
  match before with
  | [] =>
    cases split
    trivial
  | [_] =>
    cases split
    exact ⟨Nat.one_pos, by decide⟩
  | _ :: _ :: _ => simp [oneAnswer] at split

def sampleParams : Params where
  network := "192.168.2.0".toList
  flows := 100
  query := 1
  ofPort1 := 1
  ofPort2 := 2
  dataMac := [0, 0, 0, 0, 0, 1]
  flowsAccepted := ⟨by decide, by decide⟩
  queryAccepted := ⟨by decide, by decide⟩
  macLength := rfl

/-- The test of the interaction logs a failure, that of the flow statistics does not get so far. -/
theorem requests_unreported_one_answer :
    (∃ world log, run (act .interactionTest sampleParams) begin oneAnswer = some (world, log) ∧
      world.state.statsCount = 0 ∧ ∃ ports, destroy .interactionTest [] world.state =
        some (ports, none)) ∧
    ∃ world log, run (act .flowStats sampleParams) begin oneAnswer = some (world, log) ∧
      world.state.statsCount = 1 ∧ destroy .flowStats [] world.state = none := by
  have small : sampleParams.query ≤ 2 ^ 30 := by decide
  constructor
  · obtain ⟨got, after⟩ := requests_unreported .interactionTest small oneAnswer_allowed
    obtain ⟨⟨world, log⟩, ran⟩ := Option.isSome_iff_exists.mp (got.mpr (by decide))
    obtain ⟨-, statsCount, destroyed⟩ := after world log ran
    obtain ⟨failed, none'⟩ := destroyed []
    refine ⟨world, log, ran, statsCount, ?_⟩
    cases result : destroy .interactionTest [] world.state with
    | none => exact absurd rfl (failed.mp result).1
    | some reports =>
      obtain ⟨ports, stats⟩ := reports
      rw [none' ports stats result]
      exact ⟨ports, rfl⟩
  · obtain ⟨got, after⟩ := requests_unreported .flowStats small oneAnswer_allowed
    obtain ⟨⟨world, log⟩, ran⟩ := Option.isSome_iff_exists.mp (got.mpr (by decide))
    obtain ⟨-, statsCount, destroyed⟩ := after world log ran
    refine ⟨world, log, ran, statsCount, (destroyed []).1.mpr ⟨by decide, .inr ?_⟩⟩
    exact ⟨.answer 0 0 [] ⟨1400000000, 500⟩, by simp [oneAnswer], by decide⟩

end Oflops.FlowStats.Conversation
