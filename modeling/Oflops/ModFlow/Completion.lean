import Oflops.Insertion.Arrivals

/-! The probes of `openflow_mod_flow`: `handle_pcap_event` and the end of the test. The count of
received flows does not start at zero here: `start` increments it. -/

namespace Oflops.ModFlow.Completion
open Lib Lib.Bytes Lib.MachineInt Lib.Coverage Time Traffic.Decode Traffic.UserLoop
  Insertion.Arrivals

structure Entry where
  snd : Timeval
  rcv : Timeval
  id : Int
  ch : Nat
  dstIp : Nat

/-- The global variables; `count` has one number for each data channel. -/
structure State where
  received : Received
  flowModTimestamp : Timeval
  firstPkt : Int
  count : List Int
  head : List Entry

def start (config : Config) : State where
  received := cleared config.flows (0 + 1)
  flowModTimestamp := ⟨0, 0⟩
  firstPkt := 0
  count := [0, 0, 0]
  head := []

section
variable (nf : Nat → List UInt8 → Int → Option PktgenHdr) (channels : List Channel)
  (config : Config)

def report (capture : Capture) (fl : Flow) (state : State) : Arrival → List Effect
  | .known => []
  | .new => [.log capture.pcaphdr.ts (.flowInserted fl.nwDst)]
  | .last => .log capture.pcaphdr.ts (.flowInserted fl.nwDst) ::
      complete state.flowModTimestamp capture.pcaphdr.ts capture.now 3

/-- What a probe means to the test: the first one, or one for a flow. -/
def observe (capture : Capture) (fl : Flow) (state : State) : Option (State × List Effect) :=
  let delay := timeDiff state.flowModTimestamp capture.pcaphdr.ts
  if state.flowModTimestamp.tvSec > 0 ∧ capture.ch = oflopsData1 ∧ state.firstPkt = 0 then
    some ({ state with firstPkt := 1 },
      [.log capture.pcaphdr.ts (.insertDelay delay), .log capture.pcaphdr.ts .firstPktRcv,
        .log capture.pcaphdr.ts (.insertDelay delay)])
  else if state.flowModTimestamp.tvSec > 0 ∧ capture.ch = oflopsData2 then do
    let (received, arrival) ← receive config.flows (flowId config.network fl.nwDst) state.received
    some ({ state with received := received }, report capture fl state arrival)
  else some (state, [])

def store (capture : Capture) (pktgen : PktgenHdr) (fl : Flow) (state : State) : State :=
  { state with
    count := state.count.modify (capture.ch - 1) (· + 1)
    head := state.head ++
      [⟨⟨pktgen.tvSec, pktgen.tvUsec⟩, capture.pcaphdr.ts, int32 pktgen.seqNum,
        capture.ch, fl.nwDst⟩] }

def handlePcapEvent (capture : Capture) (state : State) : Option (State × List Effect) :=
  if capture.ch = oflopsData1 ∨ capture.ch = oflopsData2 ∨ capture.ch = oflopsData3 then do
    let extraction ← extract nf channels capture
    match pktgenOf extraction with
    | none => some (state, [])
    | some pktgen =>
      let fl ← extraction.fl
      let (state, effects) ← observe config capture fl state
      some (store capture pktgen fl state, effects)
  else some (state, [])

def step (state : State) : Event → Option (State × Option (List Effect))
  | .stamp now sent =>
      some ({ state with flowModTimestamp := now },
        some [.log now (if sent then .endFlowMod else .startFlowMod)])
  | .captured capture => (handlePcapEvent nf channels config capture state).map (Prod.map id some)

/-- The module as one that waits for its flows on the second data channel. -/
def modFlow : TestModule State where
  received := State.received
  flowModTimestamp := State.flowModTimestamp
  destination := destination nf channels oflopsData2
  step := step nf channels config

end

theorem finishes_report (capture : Capture) (fl : Flow) (state : State) (arrival : Arrival) :
    Finishes (report capture fl state arrival) (if arrival = .last then 1 else 0) := by
  cases arrival with
  | known => exact ⟨rfl, rfl, rfl⟩
  | new => exact ⟨rfl, rfl, rfl⟩
  | last => exact ⟨rfl, rfl, rfl⟩

section
variable {nf : Nat → List UInt8 → Int → Option PktgenHdr} {channels : List Channel}
  (config : Config) {capture : Capture} (fl : Flow) (state : State)

theorem observe_elsewhere
    (elsewhere : 0 < state.flowModTimestamp.tvSec → capture.ch ≠ oflopsData2) :
    ∃ next effects, observe config capture fl state = some (next, effects) ∧
      next.received = state.received ∧ next.flowModTimestamp = state.flowModTimestamp ∧
      Finishes effects 0 := by
  unfold observe
  dsimp only
  split_ifs with first second
  · exact ⟨_, _, rfl, rfl, rfl, ⟨rfl, rfl, rfl⟩⟩
  · exact absurd second.2 (elsewhere second.1)
  · exact ⟨_, _, rfl, rfl, rfl, ⟨rfl, rfl, rfl⟩⟩

theorem observe_here (sent : 0 < state.flowModTimestamp.tvSec) (here : capture.ch = oflopsData2)
    {after : Received} {arrival : Arrival}
    (counted : receive config.flows (flowId config.network fl.nwDst) state.received =
      some (after, arrival)) :
    observe config capture fl state =
      some ({ state with received := after }, report capture fl state arrival) := by
  have second : capture.ch ≠ oflopsData1 := by
    rw [here]
    decide
  unfold observe
  dsimp only
  rw [if_neg (fun first => second first.2.1), if_pos ⟨sent, here⟩, counted]
  rfl

theorem handle_nothing {extraction : Extraction}
    (extracted : extract nf channels capture = some extraction)
    (nothing : capture.ch = oflopsData1 ∨ capture.ch = oflopsData2 ∨ capture.ch = oflopsData3 →
      pktgenOf extraction = none) :
    handlePcapEvent nf channels config capture state = some (state, []) := by
  unfold handlePcapEvent
  split_ifs with data
  · rw [extracted, Option.bind_eq_bind, Option.bind_some, nothing data]
  · rfl

theorem handle_probe
    (data : capture.ch = oflopsData1 ∨ capture.ch = oflopsData2 ∨ capture.ch = oflopsData3)
    {extraction : Extraction} (extracted : extract nf channels capture = some extraction)
    (filled : extraction.fl = some fl) {pktgen : PktgenHdr}
    (found : pktgenOf extraction = some pktgen) :
    handlePcapEvent nf channels config capture state =
      (observe config capture fl state).map (Prod.map (store capture pktgen fl) id) := by
  unfold handlePcapEvent
  rw [if_pos data, extracted, Option.bind_eq_bind, Option.bind_some, found]
  dsimp only
  simp only [filled, Option.bind_eq_bind, Option.bind_some]
  cases observe config capture fl state with
  | none => rfl
  | some result => rfl

end

section
variable (nf : Nat → List UInt8 → Int → Option PktgenHdr) (channels : List Channel)
  (config : Config)

theorem modFlow_watches : Watches config (Readable nf channels) (modFlow nf channels config) := by
  refine ⟨fun state now sent => ?_, fun state capture readable listens => ?_,
    fun state capture nwDst after arrival readable sent destined counted => ?_⟩
  · exact ⟨{ state with flowModTimestamp := now }, _, rfl, rfl, rfl, finishes_stamp now sent⟩
  · obtain ⟨extraction, fl, extracted, filled, destined⟩ := extract_readable readable
    by_cases nothing : capture.ch = oflopsData1 ∨ capture.ch = oflopsData2 ∨
      capture.ch = oflopsData3 →
        pktgenOf extraction = none
    · have handled := handle_nothing config state extracted nothing
      exact ⟨state, [], congrArg (Option.map (Prod.map id some)) handled, rfl, rfl, ⟨rfl, rfl, rfl⟩⟩
    · obtain ⟨data, present⟩ := Classical.not_imp.mp nothing
      obtain ⟨pktgen, found⟩ := Option.ne_none_iff_exists'.mp present
      have elsewhere : 0 < state.flowModTimestamp.tvSec → capture.ch ≠ oflopsData2 := by
        intro sent here
        have silent := listens sent
        simp [modFlow, destined, here, found] at silent
      obtain ⟨next, effects, observed, same, time, quiet⟩ :=
        observe_elsewhere config fl state elsewhere
      have handled := handle_probe config fl state data extracted filled found
      rw [observed] at handled
      exact ⟨_, effects, congrArg (Option.map (Prod.map id some)) handled, same, time, quiet⟩
  · obtain ⟨extraction, fl, extracted, filled, place⟩ := extract_readable readable
    have here : capture.ch = oflopsData2 ∧ ∃ pktgen, pktgenOf extraction = some pktgen ∧
        fl.nwDst = nwDst := by
      simpa [modFlow, place] using destined
    obtain ⟨channel, pktgen, found, rfl⟩ := here
    have handled := handle_probe config fl state (Or.inr (Or.inl channel))
      extracted filled found
    rw [observe_here config fl state sent channel counted] at handled
    exact ⟨_, _, congrArg (Option.map (Prod.map id some)) handled, rfl, rfl,
      finishes_report capture fl state arrival⟩

/-- The module ends the test as it should exactly if there is one flow only, or if at least two
flows are never received and it does not come to an end at all. -/
theorem mod_flow_completes_once_iff (events : List Event)
    (readable : ∀ event ∈ events, Readable nf channels event) :
    let items := heard (destination nf channels oflopsData2) ⟨0, 0⟩ events
    (∃ final log, Machine.run (step nf channels config) (start config) events = some (final, log) ∧
      CompletesOnce config items log) ↔
    config.flows = 1 ∨ (covered config.targets items.reduceOption).card + 1 < config.flows := by
  have begun : Tracks config 1 [] ((modFlow nf channels config).received (start config)) :=
    tracks_cleared config 1
  obtain ⟨final, log, ran, -, raises⟩ := (modFlow_watches nf channels config).run begun readable
  have right := alarms_one_short_iff (targets_card config ▸ config.positive)
    (heard (destination nf channels oflopsData2) ⟨0, 0⟩ events)
  rw [targets_card] at right
  intro items
  rw [← right]
  constructor
  · rintro ⟨final', log', ran', completes⟩
    cases ran.symm.trans ran'
    exact (completesOnce_iff raises).mp completes
  · intro same
    exact ⟨final, log, ran, (completesOnce_iff raises).mpr same⟩

end

theorem mod_flow_completes_once_iff_single :
    let events := [.stamp ⟨1400000000, 0⟩ true, .captured (sampleCapture oflopsData2 0)]
    ∃ final log, Machine.run (step (fun _ _ _ => none) pcapPorts oneFlow) (start oneFlow) events =
        some (final, log) ∧
      CompletesOnce oneFlow
        (heard (destination (fun _ _ _ => none) pcapPorts oflopsData2) ⟨0, 0⟩ events) log :=
  (mod_flow_completes_once_iff _ pcapPorts oneFlow _ (by decide +kernel)).mpr (Or.inl rfl)

/-- With two flows the first probe ends the test, and the second one does it again. -/
theorem mod_flow_ends_early :
    let probes := [.captured (sampleCapture oflopsData2 0), .captured (sampleCapture oflopsData2 1)]
    let run := Machine.run (step (fun _ _ _ => none) pcapPorts twoFlows) (start twoFlows)
      (.stamp ⟨1400000000, 0⟩ true :: probes)
    run.map (fun result => result.2.map (List.countP Effect.isComplete)) = some [0, 1, 1] ∧
      heard (destination (fun _ _ _ => none) pcapPorts oflopsData2) ⟨1400000000, 0⟩ probes =
        [some 0xC0A80200, some 0xC0A80201] ∧
      twoFlows.targets = {0xC0A80200, 0xC0A80201} := by
  decide +kernel

end Oflops.ModFlow.Completion
