import Oflops.Insertion.Arrivals

/-! The probes of `openflow_add_flow`: `handle_pcap_event` and the end of the test. -/

namespace Oflops.AddFlow.Completion
open Lib Lib.Bytes Lib.Coverage Time Traffic.Decode Traffic.UserLoop Insertion.Arrivals

/-- The static variables; `csvOutput` says whether the file is open. -/
structure State where
  received : Received
  flowModTimestamp : Timeval
  csvOutput : Bool

/-- The variables after `start`; those that it does not assign are zero. -/
def start (config : Config) (csvOutput : Bool) : State :=
  ⟨cleared config.flows 0, ⟨0, 0⟩, csvOutput⟩

section
variable (nf : Nat → List UInt8 → Int → Option PktgenHdr) (channels : List Channel)
  (config : Config)

def report (capture : Capture) (fl : Flow) (state : State) : Arrival → List Effect
  | .known => []
  | .new => inserted
  | .last => inserted ++ complete state.flowModTimestamp capture.pcaphdr.ts capture.now 10
where
  inserted : List Effect :=
    .log capture.pcaphdr.ts (.flowInserted fl.nwDst) ::
      if state.csvOutput then [.receivedFlow capture.pcaphdr.ts (flowId config.network fl.nwDst)]
      else []

def handlePcapEvent (capture : Capture) (state : State) : Option (State × List Effect) :=
  if capture.ch = oflopsData1 then do
    let extraction ← extract nf channels capture
    match pktgenOf extraction with
    | none => some (state, [])
    | some _ =>
      if state.flowModTimestamp.tvSec > 0 ∧ capture.ch = oflopsData1 then
        let fl ← extraction.fl
        let (received, arrival) ← receive config.flows (flowId config.network fl.nwDst)
          state.received
        some ({ state with received := received }, report config capture fl state arrival)
      else some (state, [])
  else some (state, [])

def step (state : State) : Event → Option (State × Option (List Effect))
  | .stamp now sent =>
      some ({ state with flowModTimestamp := now },
        some [.log now (if sent then .endFlowMod else .startFlowMod)])
  | .captured capture => (handlePcapEvent nf channels config capture state).map (Prod.map id some)

/-- The module as one that waits for its flows on the first data channel. -/
def addFlow : TestModule State where
  received := State.received
  flowModTimestamp := State.flowModTimestamp
  destination := destination nf channels oflopsData1
  step := step nf channels config

end

theorem finishes_report (config : Config) (capture : Capture) (fl : Flow) (state : State)
    (arrival : Arrival) :
    Finishes (report config capture fl state arrival) (if arrival = .last then 1 else 0) := by
  have quiet : Finishes (report.inserted config capture fl state) 0 := by
    unfold report.inserted
    cases state.csvOutput with
    | false => exact ⟨rfl, rfl, rfl⟩
    | true => exact ⟨rfl, rfl, rfl⟩
  cases arrival with
  | known => exact ⟨rfl, rfl, rfl⟩
  | new => exact quiet
  | last => exact quiet.append (finishes_complete _ _ _ _)

section
variable {nf : Nat → List UInt8 → Int → Option PktgenHdr} {channels : List Channel}
  (config : Config) {capture : Capture} (state : State) {extraction : Extraction}
  (extracted : extract nf channels capture = some extraction)
include extracted

theorem handle_ignored
    (listens : 0 < state.flowModTimestamp.tvSec → capture.ch = oflopsData1 →
      pktgenOf extraction = none) :
    handlePcapEvent nf channels config capture state = some (state, []) := by
  unfold handlePcapEvent
  by_cases here : capture.ch = oflopsData1
  · rw [if_pos here, extracted, Option.bind_eq_bind, Option.bind_some]
    cases found : pktgenOf extraction with
    | none => rfl
    | some pktgen =>
      have unsent : ¬ state.flowModTimestamp.tvSec > 0 := by
        intro sent
        rw [listens sent here] at found
        cases found
      exact if_neg (fun both => unsent both.1)
  · exact if_neg here

theorem handle_counted {fl : Flow} (filled : extraction.fl = some fl) {pktgen : PktgenHdr}
    (found : pktgenOf extraction = some pktgen) (here : capture.ch = oflopsData1)
    (sent : 0 < state.flowModTimestamp.tvSec) {after : Received} {arrival : Arrival}
    (counted : receive config.flows (flowId config.network fl.nwDst) state.received =
      some (after, arrival)) :
    handlePcapEvent nf channels config capture state =
      some ({ state with received := after }, report config capture fl state arrival) := by
  unfold handlePcapEvent
  rw [if_pos here, extracted, Option.bind_eq_bind, Option.bind_some, found]
  dsimp only
  rw [if_pos ⟨sent, here⟩]
  simp only [filled, counted, Option.bind_eq_bind, Option.bind_some]

end

section
variable (nf : Nat → List UInt8 → Int → Option PktgenHdr) (channels : List Channel)
  (config : Config)

theorem addFlow_watches : Watches config (Readable nf channels) (addFlow nf channels config) := by
  refine ⟨fun state now sent => ?_, fun state capture readable listens => ?_,
    fun state capture nwDst after arrival readable sent destined counted => ?_⟩
  · exact ⟨{ state with flowModTimestamp := now }, _, rfl, rfl, rfl, finishes_stamp now sent⟩
  · obtain ⟨extraction, fl, extracted, -, place⟩ := extract_readable readable
    have ignored := handle_ignored config state extracted fun sent here => by
      simpa [addFlow, place, here] using listens sent
    exact ⟨state, [], congrArg (Option.map (Prod.map id some)) ignored, rfl, rfl, ⟨rfl, rfl, rfl⟩⟩
  · obtain ⟨extraction, fl, extracted, filled, place⟩ := extract_readable readable
    have here : capture.ch = oflopsData1 ∧ ∃ pktgen, pktgenOf extraction = some pktgen ∧
        fl.nwDst = nwDst := by
      simpa [addFlow, place] using destined
    obtain ⟨channel, pktgen, found, rfl⟩ := here
    have handled := handle_counted config state extracted filled found channel sent counted
    exact ⟨{ state with received := after }, report config capture fl state arrival,
      congrArg (Option.map (Prod.map id some)) handled, rfl, rfl,
      finishes_report config capture fl state arrival⟩

/-- Over any run the count is the number of flows received so far, no flag outside the array is
used, and the test is ended once, by the packet that completes the flows. -/
theorem add_flow_completes_once (csvOutput : Bool) (events : List Event)
    (readable : ∀ event ∈ events, Readable nf channels event) :
    let items := heard (destination nf channels oflopsData1) ⟨0, 0⟩ events
    ∃ final log, Machine.run (step nf channels config) (start config csvOutput) events =
        some (final, log) ∧
      final.received.ipReceivedCount = (covered config.targets items.reduceOption).card ∧
      CompletesOnce config items log := by
  have begun : Tracks config 0 []
      ((addFlow nf channels config).received (start config csvOutput)) :=
    tracks_cleared config 0
  obtain ⟨final, log, ran, tracks, raises⟩ :=
    (addFlow_watches nf channels config).run begun readable
  refine ⟨final, log, ran, ?_, (completesOnce_iff raises).mpr ?_⟩
  · have count := tracks.count
    rw [Nat.cast_zero, zero_add] at count
    exact count
  · rw [Nat.sub_zero, ← targets_card, alarms_card]
    rfl

end

theorem add_flow_completes_once_single :
    let events := [.stamp ⟨1400000000, 0⟩ true, .captured (sampleCapture oflopsData1 0)]
    let items := heard (destination (fun _ _ _ => none) pcapPorts oflopsData1) ⟨0, 0⟩ events
    ∃ final log, Machine.run (step (fun _ _ _ => none) pcapPorts oneFlow)
        (start oneFlow false) events = some (final, log) ∧
      final.received.ipReceivedCount = (covered oneFlow.targets items.reduceOption).card ∧
      CompletesOnce oneFlow items log :=
  add_flow_completes_once _ _ _ false _ (by decide +kernel)

end Oflops.AddFlow.Completion
