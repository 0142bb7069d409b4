import Oflops.Insertion.Arrivals
import Oflops.Lib.Slots
import Oflops.Openflow.Rules

/-! The module `openflow_reactive`: it answers every packet-in with a rule for the flow of the
packet, and keeps for each flow the time at which its first packet was sent, reported by the switch
and received. The id of the flow is the distance of the destination from the network; only
`handle_pcap_event` looks whether it is one. -/

namespace Oflops.Reactive.Module
open Lib Lib.Bytes Lib.Record Lib.Slots Lib.Coverage Time Traffic.Decode Traffic.UserLoop
  Openflow.FlowMod
open Openflow.Rules (ofppInPort)
open Insertion.Arrivals hiding Event Effect

def ofprNoMatch : Nat := 0

/-- Where the fields of `struct ofp_packet_in` lie. -/
def bufferIdAt : Nat := 8
def totalLenAt : Nat := 12
def inPortAt : Nat := 14
def reasonAt : Nat := 16
def dataAt : Nat := 18

/-- The global variables that `init` allocates and clears. -/
structure State where
  flowSend : List Timeval
  flowController : List Timeval
  flowReceived : List Timeval
  received : Received

def init (config : Config) : State where
  flowSend := List.replicate config.flows ⟨0, 0⟩
  flowController := List.replicate config.flows ⟨0, 0⟩
  flowReceived := List.replicate config.flows ⟨0, 0⟩
  received := cleared config.flows 0

/-- A packet-in: `fl` is what stands in the handler's variable before, `now` the time of
the clock. -/
structure PacketIn where
  message : List UInt8
  fl : Flow
  now : Timeval

/-- What the module gets; `msg` is what stands in the variable of `handle_pcap_event`. -/
inductive Event where
  | packetIn (packetIn : PacketIn)
  | captured (capture : Capture) (msg : List Char)

/-- A message to the switch, a new timer event, or a line of the log. -/
inductive Effect where
  | sent (message : List UInt8)
  | schedule (time : Timeval) (arg : TimerArg)
  | log (ts : Timeval) (text : List Char)

/-- A time counts as not yet stored while its seconds are 0. -/
def unset (time : Timeval) : Bool := time.tvSec = 0

section
variable (nf : Nat → List UInt8 → Int → Option PktgenHdr) (channels : List Channel)
  (config : Config)

/-- `extract_pktgen_pkt` on the frame in a packet-in, with the port of the switch as the channel. -/
def extractPacketIn (packetIn : PacketIn) : Option Extraction := do
  let inPort ← loadAt packetIn.message inPortAt 2
  let totalLen ← loadAt packetIn.message totalLenAt 2
  extractPktgenPkt nf channels (ntohs inPort) (packetIn.message.drop dataAt) (ntohs totalLen)
    (some packetIn.fl)

/-- The assignments to the flow: what is in host order is converted. -/
def toNetwork (fl : Flow) (inPort : Nat) : Flow :=
  { fl with inPort, dlType := htons fl.dlType, tpSrc := htons fl.tpSrc, tpDst := htons fl.tpDst }

/-- The rule for the flow, which is also used for the packet in the switch's buffer. -/
def answer (message : List UInt8) (fl : Flow) : Option (List UInt8) := do
  let inPort ← loadAt message inPortAt 2
  let (_, b) ← makeOfpFlowAdd (toNetwork fl inPort) ofppInPort 120
  let bufferId ← readAt message bufferIdAt 4
  writeAt b 64 bufferId

def ofEventPacketIn (packetIn : PacketIn) (state : State) : Option (State × List Effect) := do
  let reason ← loadAt packetIn.message reasonAt 1
  if reason = ofprNoMatch then
    let extraction ← extractPacketIn nf channels packetIn
    match pktgenOf extraction with
    | none => some (state, [])
    | some pktgen =>
      let fl ← extraction.fl
      let id := flowId config.network fl.nwDst
      let flowSend ← storeFirst unset state.flowSend id ⟨pktgen.tvSec, pktgen.tvUsec⟩
      let flowController ← storeFirst unset state.flowController id packetIn.now
      let b ← answer packetIn.message fl
      some ({ state with flowSend, flowController }, [.sent b])
  else some (state, [])

/-- What is done at the last flow; the second line of the log was never written. -/
def finish (capture : Capture) (msg : List Char) : List Effect :=
  [.schedule (addTime capture.now 1 0) .byeStr, .log capture.pcaphdr.ts "LAST_PKT_RCV".toList,
    .log capture.pcaphdr.ts msg]

def handlePcapEvent (capture : Capture) (msg : List Char) (state : State) :
    Option (State × List Effect) :=
  if capture.ch = oflopsData1 then do
    let extraction ← extract nf channels capture
    match pktgenOf extraction with
    | none => some (state, [])
    | some _ =>
      let fl ← extraction.fl
      let id := flowId config.network fl.nwDst
      let (received, arrival) ← receive config.flows id state.received
      match arrival with
      | .known => some (state, [])
      | .new | .last =>
        let flowReceived ← storeLast state.flowReceived id capture.pcaphdr.ts
        some ({ state with flowReceived, received },
          if arrival = .last then finish capture msg else [])
  else some (state, [])

def step (state : State) : Event → Option (State × Option (List Effect))
  | .packetIn packetIn => (ofEventPacketIn nf channels config packetIn state).map (Prod.map id some)
  | .captured capture msg =>
    (handlePcapEvent nf channels config capture msg state).map (Prod.map id some)

end

/-! ### The flow of a packet -/

section
variable {b : List UInt8} {flow : Flow}

theorem loadAt_lt {offset width value : Nat} (loaded : loadAt b offset width = some value) :
    value < 256 ^ width := by
  have inside := loadAt_some loaded
  rw [loadAt_inside inside, Option.some.injEq] at loaded
  have small := leValue_lt (slice b offset width)
  rwa [slice_length inside, loaded] at small

theorem readAt_length {offset width : Nat} {field : List UInt8}
    (read : readAt b offset width = some field) : field.length = width := by
  unfold readAt at read
  split_ifs at read with inside
  cases read
  exact slice_length inside

theorem etherFields_lt {dlType dlVlan : Nat} (fields : etherFields b = some (dlType, dlVlan)) :
    dlVlan < 256 ^ 2 := by
  obtain ⟨etherType, -, fields⟩ := Option.bind_eq_some_iff.mp fields
  split_ifs at fields
  · obtain ⟨inner, -, fields⟩ := Option.bind_eq_some_iff.mp fields
    obtain ⟨unit, -, fields⟩ := Option.bind_eq_some_iff.mp fields
    cases fields
    exact (Nat.mod_lt _ (by decide)).trans (by decide)
  · cases fields
    decide

theorem fillFlow_sized {ip udp : Nat} (filled : fillFlow b ip udp = some flow) {inPort : Nat}
    (port : inPort < 256 ^ 2) :
    Sized (toNetwork flow inPort) := by
  obtain ⟨dlSrc, source, filled⟩ := Option.bind_eq_some_iff.mp filled
  obtain ⟨dlDst, dest, filled⟩ := Option.bind_eq_some_iff.mp filled
  obtain ⟨⟨dlType, dlVlan⟩, fields, filled⟩ := Option.bind_eq_some_iff.mp filled
  obtain ⟨nwSrc, saddr, filled⟩ := Option.bind_eq_some_iff.mp filled
  obtain ⟨nwDst, daddr, filled⟩ := Option.bind_eq_some_iff.mp filled
  obtain ⟨sport, -, filled⟩ := Option.bind_eq_some_iff.mp filled
  obtain ⟨dport, -, filled⟩ := Option.bind_eq_some_iff.mp filled
  cases filled
  have mask : 0 < 256 ^ 4 := by decide
  have udp : 17 < 256 ^ 1 := by decide
  exact ⟨mask, port, readAt_length source, readAt_length dest, etherFields_lt fields,
    swapBytes_lt 2 _, udp, loadAt_lt saddr, loadAt_lt daddr, swapBytes_lt 2 _, swapBytes_lt 2 _⟩

theorem extract_filled {nf : Nat → List UInt8 → Int → Option PktgenHdr} {channels : List Channel}
    {port len : Int} {fl : Flow} {extraction : Extraction}
    (done : extractPktgenPkt nf channels port b len (some fl) = some extraction)
    {pktgen : PktgenHdr} (found : pktgenOf extraction = some pktgen) :
    ∃ flow ip udp, extraction.fl = some flow ∧ fillFlow b ip udp = some flow := by
  unfold extractPktgenPkt at done
  split_ifs at done
  · cases done
    cases found
  · obtain ⟨place, -, done⟩ := Option.bind_eq_some_iff.mp done
    cases place with
    | none =>
      cases done
      cases found
    | some ip =>
      obtain ⟨first, -, done⟩ := Option.bind_eq_some_iff.mp done
      dsimp only at done
      split_ifs at done
      · cases done
        cases found
      · obtain ⟨filled, same, done⟩ := Option.bind_eq_some_iff.mp done
        obtain ⟨flow, fill, rfl⟩ := Option.map_eq_some_iff.mp same
        obtain ⟨channel, -, done⟩ := Option.bind_eq_some_iff.mp done
        refine ⟨flow, ip, _, ?_, fill⟩
        cases type : channel.capType with
        | pcap =>
          rw [type] at done
          obtain ⟨converted, -, done⟩ := Option.bind_eq_some_iff.mp done
          cases done
          rfl
        | nf2 =>
          rw [type] at done
          cases done
          rfl
        | other =>
          rw [type] at done
          cases done
          rfl

theorem answer_made {message : List UInt8} (long : 16 ≤ message.length) {ip udp : Nat}
    (filled : fillFlow b ip udp = some flow) :
    ∃ reply, answer message flow = some reply := by
  have port : loadAt message inPortAt 2 = some (leValue (slice message inPortAt 2)) :=
    loadAt_inside long
  have timeout : 120 < 256 ^ 2 := by decide
  obtain ⟨made, built, length, -⟩ :=
    build_reads (.flowAdd ofppInPort) (fillFlow_sized filled (loadAt_lt port)) timeout
  have size : made.length = 80 := length
  have id : readAt message bufferIdAt 4 = some (slice message bufferIdAt 4) := readAt_inside (by
    rw [bufferIdAt]
    omega)
  have width := readAt_length id
  obtain ⟨reply, written, -⟩ := writeAt_fits made 64 (slice message bufferIdAt 4) (by omega)
  refine ⟨reply, ?_⟩
  rw [answer, port]
  simp only [Option.bind_eq_bind, Option.bind_some]
  rw [show makeOfpFlowAdd (toNetwork flow _) ofppInPort 120 = _ from built]
  simp only [Option.bind_some, id, written]

end

/-! ### What an event is to the module -/

section
variable (nf : Nat → List UInt8 → Int → Option PktgenHdr) (channels : List Channel)
  (config : Config)

/-- The destination and the sending time of a probe for which the switch has no rule. -/
def reported (packetIn : PacketIn) : Option (Nat × Timeval) :=
  if loadAt packetIn.message reasonAt 1 = some ofprNoMatch then do
    let extraction ← extractPacketIn nf channels packetIn
    let pktgen ← pktgenOf extraction
    let fl ← extraction.fl
    some (fl.nwDst, ⟨pktgen.tvSec, pktgen.tvUsec⟩)
  else none

/-- The bytes that the handlers read are there. -/
def Readable : Event → Prop
  | .packetIn packetIn => ∃ reason, loadAt packetIn.message reasonAt 1 = some reason ∧
      (reason = ofprNoMatch → (extractPacketIn nf channels packetIn).isSome)
  | .captured capture _ => capture.ch = oflopsData1 → (extract nf channels capture).isSome

def Expected : Event → Prop
  | .packetIn packetIn => ∀ probe ∈ reported nf channels packetIn, ntohl probe.1 ∈ config.targets
  | .captured _ _ => True

def sendOf : Event → Option (Nat × Timeval)
  | .packetIn packetIn => (reported nf channels packetIn).map fun probe =>
      ((flowId config.network probe.1).toNat, probe.2)
  | .captured _ _ => none

def reportOf : Event → Option (Nat × Timeval)
  | .packetIn packetIn => (reported nf channels packetIn).map fun probe =>
      ((flowId config.network probe.1).toNat, packetIn.now)
  | .captured _ _ => none

def heardOf : Event → Option Nat
  | .packetIn _ => none
  | .captured capture _ => (destination nf channels oflopsData1 capture).map ntohl

def arrivalOf : Event → Option (Nat × Timeval)
  | .packetIn _ => none
  | .captured capture _ => (destination nf channels oflopsData1 capture).bind fun nwDst =>
      if ntohl nwDst ∈ config.targets then some ((flowId config.network nwDst).toNat,
        capture.pcaphdr.ts) else none

end

def Effect.isSent : Effect → Bool
  | .sent _ => true
  | _ => false

def Effect.isBye : Effect → Bool
  | .schedule _ .byeStr => true
  | _ => false

section
variable {nf : Nat → List UInt8 → Int → Option PktgenHdr} {channels : List Channel}
  {config : Config} {packetIn : PacketIn} {capture : Capture} {msg : List Char}

theorem ofEventPacketIn_unread (unread : ¬Readable nf channels (.packetIn packetIn))
    (state : State) : ofEventPacketIn nf channels config packetIn state = none := by
  unfold ofEventPacketIn
  cases loaded : loadAt packetIn.message reasonAt 1 with
  | none => rfl
  | some reason =>
    rw [Option.bind_eq_bind, Option.bind_some]
    have lacks : ¬(reason = ofprNoMatch → (extractPacketIn nf channels packetIn).isSome) :=
      fun fine => unread ⟨reason, loaded, fine⟩
    obtain ⟨same, missing⟩ := Classical.not_imp.mp lacks
    rw [if_pos same, Option.not_isSome_iff_eq_none.mp missing]
    rfl

theorem ofEventPacketIn_other (readable : Readable nf channels (.packetIn packetIn))
    (other : reported nf channels packetIn = none) (state : State) :
    ofEventPacketIn nf channels config packetIn state = some (state, []) := by
  obtain ⟨reason, loaded, there⟩ := readable
  unfold ofEventPacketIn
  rw [loaded, Option.bind_eq_bind, Option.bind_some]
  split_ifs with same
  · obtain ⟨extraction, extracted⟩ := Option.isSome_iff_exists.mp (there same)
    rw [reported, loaded, same, if_pos rfl, extracted, Option.bind_eq_bind,
      Option.bind_some] at other
    rw [extracted, Option.bind_eq_bind, Option.bind_some]
    cases found : pktgenOf extraction with
    | none => rfl
    | some pktgen =>
      obtain ⟨inPort, -, rest⟩ := Option.bind_eq_some_iff.mp extracted
      obtain ⟨totalLen, -, rest⟩ := Option.bind_eq_some_iff.mp rest
      obtain ⟨flow, ip, udp, filled, -⟩ := extract_filled rest found
      rw [found, filled] at other
      cases other
  · rfl

theorem ofEventPacketIn_reported (config : Config) {nwDst : Nat} {sent : Timeval}
    (there : reported nf channels packetIn = some (nwDst, sent)) :
    Readable nf channels (.packetIn packetIn) ∧ ∃ extraction fl reply,
      extractPacketIn nf channels packetIn = some extraction ∧ extraction.fl = some fl ∧
      answer packetIn.message fl = some reply ∧ ∀ state,
      ofEventPacketIn nf channels config packetIn state =
        (storeFirst unset state.flowSend (flowId config.network nwDst) sent).bind fun flowSend =>
          (storeFirst unset state.flowController (flowId config.network nwDst) packetIn.now).bind
            fun flowController => some ({ state with flowSend, flowController },
              [.sent reply]) := by
  unfold reported at there
  split_ifs at there with same
  obtain ⟨extraction, extracted, there⟩ := Option.bind_eq_some_iff.mp there
  obtain ⟨pktgen, found, there⟩ := Option.bind_eq_some_iff.mp there
  obtain ⟨fl, filled, there⟩ := Option.bind_eq_some_iff.mp there
  cases there
  refine ⟨⟨_, same, fun _ => by rw [extracted]; rfl⟩, extraction, fl, ?_⟩
  obtain ⟨inPort, port, rest⟩ := Option.bind_eq_some_iff.mp extracted
  obtain ⟨totalLen, -, rest⟩ := Option.bind_eq_some_iff.mp rest
  obtain ⟨flow, ip, udp, filled', fill⟩ := extract_filled rest found
  have agree : flow = fl := Option.some.inj (filled'.symm.trans filled)
  obtain ⟨reply, answered⟩ := answer_made (loadAt_some port) (agree ▸ fill)
  refine ⟨reply, extracted, filled, answered, fun state => ?_⟩
  unfold ofEventPacketIn
  simp only [same, extracted, found, filled, answered, Option.bind_eq_bind,
    Option.bind_some, if_pos]

theorem handlePcapEvent_unread (unread : ¬Readable nf channels (.captured capture msg))
    (state : State) : handlePcapEvent nf channels config capture msg state = none := by
  obtain ⟨here, missing⟩ := Classical.not_imp.mp unread
  rw [handlePcapEvent, if_pos here, Option.not_isSome_iff_eq_none.mp missing]
  rfl

theorem handlePcapEvent_other (readable : Readable nf channels (.captured capture msg))
    (other : destination nf channels oflopsData1 capture = none) (state : State) :
    handlePcapEvent nf channels config capture msg state = some (state, []) := by
  unfold handlePcapEvent
  split_ifs with here
  · obtain ⟨extraction, flow, extracted, filled, destined⟩ := extract_readable (readable here)
    rw [destined, if_pos here, Option.map_eq_none_iff] at other
    rw [extracted, Option.bind_eq_bind, Option.bind_some, other]
  · rfl

theorem handlePcapEvent_heard (config : Config) (msg : List Char) {nwDst : Nat}
    (there : destination nf channels oflopsData1 capture = some nwDst) :
    Readable nf channels (.captured capture msg) ∧ ∀ state,
      handlePcapEvent nf channels config capture msg state =
        (receive config.flows (flowId config.network nwDst) state.received).bind
          fun (received, arrival) =>
          if arrival = .known then some (state, [])
          else (storeLast state.flowReceived (flowId config.network nwDst) capture.pcaphdr.ts).bind
            fun flowReceived => some ({ state with flowReceived, received },
              if arrival = .last then finish capture msg else []) := by
  unfold destination at there
  split_ifs at there with here
  obtain ⟨extraction, extracted, there⟩ := Option.bind_eq_some_iff.mp there
  obtain ⟨pktgen, found, there⟩ := Option.bind_eq_some_iff.mp there
  obtain ⟨fl, filled, rfl⟩ := Option.map_eq_some_iff.mp there
  refine ⟨fun _ => by rw [extracted]; rfl, fun state => ?_⟩
  unfold handlePcapEvent
  rw [if_pos here]
  simp only [extracted, found, filled, Option.bind_eq_bind, Option.bind_some]
  congr 1
  funext ⟨received, arrival⟩
  cases arrival with
  | known => rfl
  | new => rfl
  | last => rfl

def Fine (nf : Nat → List UInt8 → Int → Option PktgenHdr) (channels : List Channel)
    (config : Config) (event : Event) : Prop :=
  Readable nf channels event ∧ Expected nf channels config event

structure Records (nf : Nat → List UInt8 → Int → Option PktgenHdr) (channels : List Channel)
    (config : Config) (past : List Event) (state : State) (log : List Effect) : Prop where
  flowSend : HoldsFirst unset config.flows ⟨0, 0⟩ (past.filterMap (sendOf nf channels config))
    state.flowSend
  flowController :
    HoldsFirst unset config.flows ⟨0, 0⟩ (past.filterMap (reportOf nf channels config))
      state.flowController
  flowReceived : HoldsNew config.flows ⟨0, 0⟩ (past.filterMap (arrivalOf nf channels config))
    state.flowReceived
  received : Tracks config 0 (past.filterMap (heardOf nf channels)) state.received
  sent : log.countP Effect.isSent = (past.filterMap (sendOf nf channels config)).length
  bye : log.countP Effect.isBye =
    if covered config.targets (past.filterMap (heardOf nf channels)) = config.targets then 1 else 0

theorem records_init : Records nf channels config [] (init config) [] := by
  refine ⟨holdsFirst_blank unset _ _, holdsFirst_blank unset _ _, holdsNew_blank _ _,
    tracks_cleared config 0, rfl, ?_⟩
  rw [List.filterMap_nil, if_neg (covered_nil_ne config)]
  rfl

theorem arrived_iff {past : List Event} {i : Nat} (inside : i < config.flows) :
    under i (past.filterMap (arrivalOf nf channels config)) ≠ [] ↔
      config.address i ∈ past.filterMap (heardOf nf channels) := by
  rw [under_ne_nil_iff]
  simp only [List.mem_filterMap]
  constructor
  · rintro ⟨time, event, member, arrived⟩
    refine ⟨event, member, ?_⟩
    cases event with
    | packetIn packetIn => cases arrived
    | captured capture msg =>
      obtain ⟨nwDst, there, arrived⟩ := Option.bind_eq_some_iff.mp arrived
      split_ifs at arrived with among
      cases arrived
      rw [heardOf, there, address_flowId ((mem_targets_iff config nwDst).mp among).1]
      rfl
  · rintro ⟨event, member, heard⟩
    cases event with
    | packetIn packetIn => cases heard
    | captured capture msg =>
      obtain ⟨nwDst, there, same⟩ := Option.map_eq_some_iff.mp heard
      have among : ntohl nwDst ∈ config.targets :=
        Finset.mem_image.mpr ⟨i, Finset.mem_range.mpr inside, same.symm⟩
      refine ⟨capture.pcaphdr.ts, .captured capture msg, member, ?_⟩
      rw [arrivalOf, there, Option.bind_some, if_pos among, flowId_address inside same.symm]
      rfl

theorem filterMap_concat {α β : Type*} (f : α → Option β) (past : List α) (last : α) :
    (past ++ [last]).filterMap f = past.filterMap f ++ (f last).toList := by
  rw [List.filterMap_append]
  cases here : f last with
  | none => rw [List.filterMap_cons_none here, List.filterMap_nil, Option.toList_none]
  | some x => rw [List.filterMap_cons_some here, List.filterMap_nil, Option.toList_some]

variable {past : List Event} {state : State} {log : List Effect}

theorem Records.quiet (records : Records nf channels config past state log) {event : Event}
    (sends : sendOf nf channels config event = none)
    (reports : reportOf nf channels config event = none) (hears : heardOf nf channels event = none)
    (arrives : arrivalOf nf channels config event = none) :
    Records nf channels config (past ++ [event]) state (log ++ []) := by
  obtain ⟨flowSend, flowController, flowReceived, received, sent, bye⟩ := records
  constructor <;> simp only [filterMap_concat, sends, reports, hears, arrives, Option.toList_none,
    List.append_nil] <;>
    assumption

theorem Records.step_packetIn (records : Records nf channels config past state log)
    (fine : Fine nf channels config (.packetIn packetIn)) :
    ∃ next effects, ofEventPacketIn nf channels config packetIn state = some (next, effects) ∧
      Records nf channels config (past ++ [.packetIn packetIn]) next (log ++ effects) := by
  cases there : reported nf channels packetIn with
  | none =>
    refine ⟨state, [], ofEventPacketIn_other fine.1 there state, ?_⟩
    exact records.quiet (by rw [sendOf, there, Option.map_none])
      (by rw [reportOf, there, Option.map_none]) rfl rfl
  | some probe =>
    obtain ⟨nwDst, sent⟩ := probe
    have among : ntohl nwDst ∈ config.targets := fine.2 (nwDst, sent) there
    obtain ⟨i, inside, same, -⟩ := flowId_of_target among
    have key : (flowId config.network nwDst).toNat = i := by rw [same, Int.toNat_natCast]
    obtain ⟨-, extraction, fl, reply, -, -, -, handled⟩ := ofEventPacketIn_reported config there
    obtain ⟨flowSend, stored, holds⟩ := records.flowSend.store rfl inside sent
    obtain ⟨flowController, stored', holds'⟩ := records.flowController.store rfl inside packetIn.now
    have sends : sendOf nf channels config (.packetIn packetIn) = some (i, sent) := by
      rw [sendOf, there, Option.map_some, key]
    have reports : reportOf nf channels config (.packetIn packetIn) = some (i, packetIn.now) := by
      rw [reportOf, there, Option.map_some, key]
    have hears : heardOf nf channels (.packetIn packetIn) = none := rfl
    have arrives : arrivalOf nf channels config (.packetIn packetIn) = none := rfl
    refine ⟨{ state with flowSend, flowController }, [.sent reply], ?_, ?_, ?_, ?_, ?_, ?_, ?_⟩
    · rw [handled, same, stored, Option.bind_some, stored', Option.bind_some]
    · rw [filterMap_concat, sends]
      exact holds
    · rw [filterMap_concat, reports]
      exact holds'
    · rw [filterMap_concat, arrives, Option.toList_none, List.append_nil]
      exact records.flowReceived
    · rw [filterMap_concat, hears, Option.toList_none, List.append_nil]
      exact records.received
    · rw [List.countP_append, records.sent, filterMap_concat, sends, List.length_append]
      rfl
    · rw [List.countP_append, records.bye, filterMap_concat, hears, Option.toList_none,
        List.append_nil]
      rfl

theorem Records.step_new (records : Records nf channels config past state log) {nwDst : Nat}
    (there : destination nf channels oflopsData1 capture = some nwDst)
    (among : ntohl nwDst ∈ config.targets)
    (new : ntohl nwDst ∉ past.filterMap (heardOf nf channels)) :
    ∃ next effects, handlePcapEvent nf channels config capture msg state = some (next, effects) ∧
      Records nf channels config (past ++ [.captured capture msg]) next (log ++ effects) := by
  obtain ⟨i, inside, same, address⟩ := flowId_of_target among
  have key : (flowId config.network nwDst).toNat = i := by rw [same, Int.toNat_natCast]
  have first : under i (past.filterMap (arrivalOf nf channels config)) = [] := by
    by_contra known
    rw [← ne_eq, arrived_iff inside, address] at known
    exact new known
  have hears : heardOf nf channels (.captured capture msg) = some (ntohl nwDst) := by
    rw [heardOf, there, Option.map_some]
  have arrives : arrivalOf nf channels config (.captured capture msg) =
      some (i, capture.pcaphdr.ts) := by
    rw [arrivalOf, there, Option.bind_some, if_pos among, key]
  have sends : sendOf nf channels config (.captured capture msg) = none := rfl
  have reports : reportOf nf channels config (.captured capture msg) = none := rfl
  obtain ⟨after, counted, tracks⟩ := records.received.receive_new among new
  obtain ⟨flowReceived, stored, holds⟩ := records.flowReceived.store inside first capture.pcaphdr.ts
  obtain ⟨-, handled⟩ := handlePcapEvent_heard config msg there
  have complete : covered config.targets (past.filterMap (heardOf nf channels) ++ [ntohl nwDst]) =
      config.targets ↔
      config.flows - 0 ≤
        (covered config.targets (past.filterMap (heardOf nf channels) ++ [ntohl nwDst])).card := by
    rw [covered_eq_iff, targets_card, Nat.sub_zero]
  have before : covered config.targets (past.filterMap (heardOf nf channels)) ≠ config.targets := by
    intro all
    exact new (mem_covered.mp (all ▸ among)).2
  set arrival : Arrival := if config.flows - 0 ≤
    (covered config.targets (past.filterMap (heardOf nf channels) ++ [ntohl nwDst])).card then .last
    else .new
    with arrivalIs
  have fresh : arrival ≠ .known := by
    rw [arrivalIs]
    split_ifs <;> exact nofun
  refine ⟨{ state with flowReceived, received := after },
    if arrival = .last then finish capture msg else [], ?_, ?_, ?_, ?_, ?_, ?_, ?_⟩
  · rw [handled, counted, Option.bind_some]
    dsimp only
    rw [if_neg fresh, same, stored, Option.bind_some]
  · rw [filterMap_concat, sends, Option.toList_none, List.append_nil]
    exact records.flowSend
  · rw [filterMap_concat, reports, Option.toList_none, List.append_nil]
    exact records.flowController
  · rw [filterMap_concat, arrives]
    exact holds
  · rw [filterMap_concat, hears]
    exact tracks
  · rw [List.countP_append, records.sent, filterMap_concat, sends, Option.toList_none,
      List.append_nil]
    split_ifs <;> rfl
  · rw [List.countP_append, records.bye, if_neg before, filterMap_concat, hears,
      Option.toList_some, arrivalIs]
    by_cases all : covered config.targets (past.filterMap (heardOf nf channels) ++ [ntohl nwDst]) =
      config.targets
    · rw [if_pos all, if_pos (complete.mp all)]
      rfl
    · rw [if_neg all, if_neg (mt complete.mpr all)]
      rfl

theorem Records.step_known (records : Records nf channels config past state log) {nwDst : Nat}
    (there : destination nf channels oflopsData1 capture = some nwDst)
    (known : ¬(ntohl nwDst ∈ config.targets ∧ ntohl nwDst ∉ past.filterMap (heardOf nf channels))) :
    handlePcapEvent nf channels config capture msg state = some (state, []) ∧
      Records nf channels config (past ++ [.captured capture msg]) state (log ++ []) := by
  have hears : heardOf nf channels (.captured capture msg) = some (ntohl nwDst) := by
    rw [heardOf, there, Option.map_some]
  have sends : sendOf nf channels config (.captured capture msg) = none := rfl
  have reports : reportOf nf channels config (.captured capture msg) = none := rfl
  obtain ⟨counted, tracks⟩ := records.received.receive_known known
  obtain ⟨-, handled⟩ := handlePcapEvent_heard config msg there
  rw [List.append_nil]
  refine ⟨?_, ?_, ?_, ?_, ?_, ?_, ?_⟩
  · rw [handled, counted]
    rfl
  · rw [filterMap_concat, sends, Option.toList_none, List.append_nil]
    exact records.flowSend
  · rw [filterMap_concat, reports, Option.toList_none, List.append_nil]
    exact records.flowController
  · rw [filterMap_concat, arrivalOf, there, Option.bind_some]
    by_cases among : ntohl nwDst ∈ config.targets
    · obtain ⟨low, high⟩ := (mem_targets_iff config nwDst).mp among
      have inside : (flowId config.network nwDst).toNat < config.flows := by omega
      have heard : config.address (flowId config.network nwDst).toNat ∈
          past.filterMap (heardOf nf channels) := by
        rw [address_flowId low]
        exact not_not.mp fun new => known ⟨among, new⟩
      rw [if_pos among]
      exact records.flowReceived.skip ((arrived_iff inside).mpr heard) capture.pcaphdr.ts
    · rw [if_neg among, Option.toList_none, List.append_nil]
      exact records.flowReceived
  · rw [filterMap_concat, hears]
    exact tracks
  · rw [filterMap_concat, sends, Option.toList_none, List.append_nil]
    exact records.sent
  · rw [filterMap_concat, hears, Option.toList_some, covered_known known]
    exact records.bye

theorem Records.step (records : Records nf channels config past state log) {event : Event}
    (fine : Fine nf channels config event) :
    ∃ next effects, Module.step nf channels config state event = some (next, some effects) ∧
      Records nf channels config (past ++ [event]) next (log ++ effects) := by
  cases event with
  | packetIn packetIn =>
    obtain ⟨next, effects, handled, after⟩ := records.step_packetIn fine
    exact ⟨next, effects, by rw [Module.step, handled]; rfl, after⟩
  | captured capture msg =>
    have taken : ∃ next effects, handlePcapEvent nf channels config capture msg state =
        some (next, effects) ∧
        Records nf channels config (past ++ [.captured capture msg]) next (log ++ effects) := by
      cases there : destination nf channels oflopsData1 capture with
      | none =>
        refine ⟨state, [], handlePcapEvent_other fine.1 there state, ?_⟩
        exact records.quiet rfl rfl (by rw [heardOf, there, Option.map_none])
          (by rw [arrivalOf, there, Option.bind_none])
      | some nwDst =>
        by_cases fresh : ntohl nwDst ∈ config.targets ∧
          ntohl nwDst ∉ past.filterMap (heardOf nf channels)
        · exact records.step_new there fresh.1 fresh.2
        · exact ⟨state, [], records.step_known there fresh⟩
    obtain ⟨next, effects, handled, after⟩ := taken
    exact ⟨next, effects, by rw [Module.step, handled]; rfl, after⟩

theorem Records.step_fault (records : Records nf channels config past state log) {event : Event}
    (bad : ¬Fine nf channels config event) : Module.step nf channels config state event = none := by
  cases event with
  | packetIn packetIn =>
    rw [Module.step, Option.map_eq_none_iff]
    by_cases readable : Readable nf channels (.packetIn packetIn)
    · have unexpected : ¬Expected nf channels config (.packetIn packetIn) :=
        fun expected => bad ⟨readable, expected⟩
      simp only [Expected, not_forall] at unexpected
      obtain ⟨⟨nwDst, sent⟩, there, elsewhere⟩ := unexpected
      obtain ⟨-, extraction, fl, reply, -, -, -, handled⟩ := ofEventPacketIn_reported config there
      have outside : flowId config.network nwDst < 0 ∨
          state.flowSend.length ≤ flowId config.network nwDst := by
        have range := mt (mem_targets_iff config nwDst).mpr elsewhere
        rw [records.flowSend.1]
        omega
      rw [handled, storeFirst_outside sent outside, Option.bind_none]
    · exact ofEventPacketIn_unread readable state
  | captured capture msg =>
    rw [Module.step, Option.map_eq_none_iff]
    exact handlePcapEvent_unread (fun readable => bad ⟨readable, trivial⟩) state

theorem run_records (nf : Nat → List UInt8 → Int → Option PktgenHdr) (channels : List Channel)
    (config : Config) (events : List Event) :
    ((∀ event ∈ events, Fine nf channels config event) ∧
      ∃ final log, Machine.run (step nf channels config) (init config) events = some (final, log) ∧
        Records nf channels config events final log.flatten) ∨
    ((∃ event ∈ events, ¬Fine nf channels config event) ∧
      Machine.run (step nf channels config) (init config) events = none) := by
  induction events using List.reverseRecOn with
  | nil => exact .inl ⟨nofun, init config, [], rfl, records_init⟩
  | append_singleton before event ih =>
    obtain ⟨fine, mid, early, ran, records⟩ | ⟨⟨bad, member, fault⟩, stopped⟩ := ih
    · have goes := Machine.run_concat event ran
      by_cases here : Fine nf channels config event
      · obtain ⟨next, effects, stepped, after⟩ := records.step here
        refine .inl ⟨?_, next, early ++ [effects], ?_, ?_⟩
        · intro other among
          rcases List.mem_append.mp among with earlier | last
          · exact fine other earlier
          · rwa [List.mem_singleton.mp last]
        · rw [goes, stepped]
          rfl
        · rw [List.flatten_concat]
          exact after
      · refine .inr ⟨⟨event, List.mem_append_right _ (List.mem_singleton_self event), here⟩, ?_⟩
        rw [goes, records.step_fault here]
        rfl
    · refine .inr ⟨⟨bad, List.mem_append_left _ member, fault⟩, ?_⟩
      rw [Option.eq_none_iff_forall_not_mem]
      rintro ⟨final, log⟩ ran
      obtain ⟨mid, early, next, output, ran', -, -⟩ := Machine.run_split ran
      rw [stopped] at ran'
      cases ran'

theorem covered_all_iff {past : List Event} :
    covered config.targets (past.filterMap (heardOf nf channels)) = config.targets ↔
      ∀ i < config.flows, under i (past.filterMap (arrivalOf nf channels config)) ≠ [] := by
  constructor
  · intro all i inside
    rw [arrived_iff inside]
    have among : config.address i ∈ config.targets :=
      Finset.mem_image_of_mem _ (Finset.mem_range.mpr inside)
    exact (mem_covered.mp (all ▸ among)).2
  · intro all
    refine Finset.Subset.antisymm (covered_subset _ _) ?_
    intro address among
    obtain ⟨i, inside, rfl⟩ := Finset.mem_image.mp among
    exact mem_covered.mpr ⟨among,
      (arrived_iff (Finset.mem_range.mp inside)).mp (all i (Finset.mem_range.mp inside))⟩

end

/-- The module handles any packet-ins and frames in any order, as long as no packet-in reports a
probe to an address of no flow. It then has, for each flow, the sending time of the first probe that
was reported, the time of that report, and the time of the first probe that came back; it has
answered every report with one message, and scheduled the end of the test once if every flow came
back, and else not at all. -/
theorem reactive_run (nf : Nat → List UInt8 → Int → Option PktgenHdr) (channels : List Channel)
    (config : Config) (events : List Event) :
    ((∃ final log, Machine.run (step nf channels config) (init config) events = some (final, log)) ↔
      ∀ event ∈ events, Fine nf channels config event) ∧
    ∀ final log, Machine.run (step nf channels config) (init config) events = some (final, log) →
      (∀ i < config.flows,
        final.flowSend[i]? =
          some (settled unset ⟨0, 0⟩ (under i (events.filterMap (sendOf nf channels config)))) ∧
        final.flowController[i]? =
          some (settled unset ⟨0, 0⟩ (under i (events.filterMap (reportOf nf channels config)))) ∧
        final.flowReceived[i]? =
          some ((under i (events.filterMap (arrivalOf nf channels config))).head?.getD ⟨0, 0⟩)) ∧
      log.flatten.countP Effect.isSent = (events.filterMap (sendOf nf channels config)).length ∧
      log.flatten.countP Effect.isBye =
        if ∀ i < config.flows, under i (events.filterMap (arrivalOf nf channels config)) ≠ [] then 1
        else 0 := by
  obtain ⟨fine, final, log, ran, records⟩ | ⟨⟨event, member, bad⟩, stopped⟩ :=
    run_records nf channels config events
  · refine ⟨iff_of_true ⟨final, log, ran⟩ fine, ?_⟩
    intro final' log' ran'
    cases ran.symm.trans ran'
    refine ⟨?_, records.sent, ?_⟩
    · intro i inside
      exact ⟨records.flowSend.2 i inside, records.flowController.2 i inside,
        records.flowReceived.2 i inside⟩
    · rw [records.bye]
      exact if_congr covered_all_iff rfl rfl
  · refine ⟨iff_of_false ?_ (fun all => bad (all event member)), ?_⟩
    · rintro ⟨final, log, ran⟩
      rw [stopped] at ran
      cases ran
    · intro final log ran
      rw [stopped] at ran
      cases ran

end Oflops.Reactive.Module
