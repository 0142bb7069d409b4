import Oflops.Lib.Coverage
import Oflops.Lib.Machine
import Oflops.Traffic.Decode

/-! How `openflow_add_flow` and `openflow_mod_flow` find out that every flow is in the switch: the
destination of each probe is looked up in `ip_received`, and the test ends when the count reaches
the number of flows. What a step of a module does to the flags is said once; what a whole run does
follows from it. -/

namespace Oflops.Insertion.Arrivals
open Lib Lib.Bytes Lib.Record Lib.MachineInt Lib.Coverage Lib.Machine Time Traffic.Packet
  Traffic.Wire Traffic.Decode

structure Config where
  network : List Char
  flows : Nat
  positive : 1 ≤ flows
  bounded : flows < 2 ^ 31

structure Received where
  ipReceived : List Int
  ipReceivedCount : Int

def cleared (flows : Nat) (count : Int) : Received := ⟨List.replicate flows 0, count⟩

/-- The difference of two unsigned numbers, stored in an `int`. -/
def flowId (network : List Char) (nwDst : Nat) : Int :=
  int32 ((ntohl nwDst : Int) - ntohl (inetAddr network))

/-- What a destination is: of no flow or of one that was received before, or new, and then
perhaps the last one. -/
inductive Arrival where
  | known
  | new
  | last
  deriving DecidableEq

/-- The test of the flag and the counting; a flag outside the array has no value. -/
def receive (flows : Nat) (id : Int) (received : Received) : Option (Received × Arrival) :=
  if id ≥ 0 ∧ id < flows then do
    let flag ← received.ipReceived[id.toNat]?
    if flag = 0 then
      let count := received.ipReceivedCount + 1
      some (⟨received.ipReceived.set id.toNat 1, count⟩, if count ≥ flows then .last else .new)
    else some (received, .known)
  else some (received, .known)

inductive TimerArg where
  | snmpGet
  | byeStr
  deriving DecidableEq

inductive Message where
  /-- `START_FLOW_MOD` -/
  | startFlowMod
  /-- `END_FLOW_MOD` -/
  | endFlowMod
  /-- `FLOW_INSERTED:%s` -/
  | flowInserted (nwDst : Nat)
  /-- `INSERT_DELAY:%d` -/
  | insertDelay (usecs : Int)
  /-- `FIRST_PKT_RCV` -/
  | firstPktRcv
  /-- `COMPLETE_INSERT_DELAY:%u` -/
  | completeInsertDelay (usecs : Int)
  /-- `LAST_PKT_RCV` -/
  | lastPktRcv

/-- A line of the log, a line `RECEIVED_FLOW` of the csv file, or a new timer event. -/
inductive Effect where
  | log (ts : Timeval) (message : Message)
  | receivedFlow (ts : Timeval) (id : Int)
  | schedule (time : Timeval) (arg : TimerArg)

/-- What is done when all flows are counted; the test ends `grace` seconds after the last query. -/
def complete (stamp ts now : Timeval) (grace : Int) : List Effect :=
  let soon := addTime now 0 10
  [.log ts (.completeInsertDelay (timeDiff stamp ts)), .log ts .lastPktRcv,
    .schedule soon .snmpGet, .schedule (addTime soon grace 0) .byeStr]

/-- A captured frame; `fl` is what stands in the handler's variable before, `now` the time of the
system clock at the end. -/
structure Capture where
  ch : Nat
  pcaphdr : PcapPkthdr
  data : List UInt8
  fl : Flow
  now : Timeval

/-- What a module gets: a frame, or a moment at which it stores `flow_mod_timestamp` because it
starts or ends to send the flows. -/
inductive Event where
  | captured (capture : Capture)
  | stamp (now : Timeval) (sent : Bool)

section
variable (nf : Nat → List UInt8 → Int → Option PktgenHdr) (channels : List Traffic.UserLoop.Channel)

def extract (capture : Capture) : Option Extraction :=
  extractPktgenPkt nf channels capture.ch capture.data
    (int32 capture.pcaphdr.caplen.toNat) (some capture.fl)

/-- The destination of a probe on a channel, as it stands in the packet. -/
def destination (ch : Nat) (capture : Capture) : Option Nat :=
  if capture.ch = ch then
    (extract nf channels capture).bind fun extraction =>
      (pktgenOf extraction).bind fun _ => extraction.fl.map Flow.nwDst
  else none

def Readable : Event → Prop
  | .captured capture => (extract nf channels capture).isSome
  | .stamp _ _ => True

instance : DecidablePred (Readable nf channels)
  | .captured capture => inferInstanceAs (Decidable ((extract nf channels capture).isSome = true))
  | .stamp _ _ => inferInstanceAs (Decidable True)

end

theorem extract_readable {nf : Nat → List UInt8 → Int → Option PktgenHdr}
    {channels : List Traffic.UserLoop.Channel} {capture : Capture}
    (readable : Readable nf channels (.captured capture)) :
    ∃ extraction fl, extract nf channels capture = some extraction ∧ extraction.fl = some fl ∧
      ∀ ch, destination nf channels ch capture =
        if capture.ch = ch then (pktgenOf extraction).map (fun _ => fl.nwDst) else none := by
  obtain ⟨extraction, extracted⟩ := Option.isSome_iff_exists.mp readable
  obtain ⟨fl, filled⟩ := extract_flow extracted
  refine ⟨extraction, fl, extracted, filled, fun ch => ?_⟩
  rw [destination, extracted, Option.bind_some, filled]
  cases pktgenOf extraction with
  | none => rfl
  | some pktgen => rfl

/-- What each event lets a module count: nothing before the flows were sent. -/
def heard (destination : Capture → Option Nat) : Timeval → List Event → List (Option Nat)
  | _, [] => []
  | _, .stamp now _ :: events => none :: heard destination now events
  | stamp, .captured capture :: events =>
      (if stamp.tvSec > 0 then (destination capture).map ntohl else none) ::
        heard destination stamp events

def Config.address (config : Config) (i : Nat) : Nat :=
  (ntohl (inetAddr config.network) + i) % 2 ^ 32

def Config.targets (config : Config) : Finset Nat :=
  (Finset.range config.flows).image config.address

theorem flowId_address {config : Config} {i nwDst : Nat} (inside : i < config.flows)
    (same : config.address i = ntohl nwDst) : flowId config.network nwDst = i := by
  have bounded := config.bounded
  have near : (ntohl nwDst : Int) - ntohl (inetAddr config.network) ≡ i [ZMOD 2 ^ 32] := by
    rw [← same, Config.address, Int.ModEq]
    omega
  rw [flowId, int32_eq_of_modEq near]
  exact int32_of_range (by omega) (by omega)

theorem address_flowId {config : Config} {nwDst : Nat} (low : 0 ≤ flowId config.network nwDst) :
    config.address (flowId config.network nwDst).toNat = ntohl nwDst := by
  have small := ntohl_lt nwDst
  have same : flowId config.network nwDst % 2 ^ 32 =
      ((ntohl nwDst : Int) - ntohl (inetAddr config.network)) % 2 ^ 32 := Int.bmod_emod
  unfold Config.address
  omega

theorem mem_targets_iff (config : Config) (nwDst : Nat) :
    ntohl nwDst ∈ config.targets ↔
      flowId config.network nwDst ≥ 0 ∧ flowId config.network nwDst < config.flows := by
  rw [Config.targets, Finset.mem_image]
  constructor
  · rintro ⟨i, inside, same⟩
    rw [flowId_address (Finset.mem_range.mp inside) same]
    have inside := Finset.mem_range.mp inside
    omega
  · rintro ⟨low, high⟩
    exact ⟨(flowId config.network nwDst).toNat, Finset.mem_range.mpr (by omega), address_flowId low⟩

theorem flowId_of_target {config : Config} {nwDst : Nat} (among : ntohl nwDst ∈ config.targets) :
    ∃ i < config.flows, flowId config.network nwDst = i ∧ config.address i = ntohl nwDst := by
  obtain ⟨low, high⟩ := (mem_targets_iff config nwDst).mp among
  exact ⟨(flowId config.network nwDst).toNat, by omega, by omega, address_flowId low⟩

theorem address_injOn (config : Config) {i j : Nat} (first : i < config.flows)
    (second : j < config.flows) (same : config.address i = config.address j) : i = j := by
  have bounded := config.bounded
  unfold Config.address at same
  omega

theorem targets_card (config : Config) : config.targets.card = config.flows := by
  rw [Config.targets, Finset.card_image_of_injOn, Finset.card_range]
  intro i first j second same
  exact address_injOn config (Finset.mem_range.mp first) (Finset.mem_range.mp second) same

/-- The flags say which destinations were heard, and the count is off by `start`. -/
structure Tracks (config : Config) (start : Nat) (past : List Nat) (received : Received) :
    Prop where
  flags : ∀ i < config.flows,
    received.ipReceived[i]? = some (if config.address i ∈ past then 1 else 0)
  length : received.ipReceived.length = config.flows
  count : received.ipReceivedCount = start + (covered config.targets past).card

theorem tracks_cleared (config : Config) (start : Nat) :
    Tracks config start [] (cleared config.flows start) := by
  refine ⟨fun i inside => ?_, List.length_replicate, ?_⟩
  · simp [cleared, inside]
  · simp [cleared, covered_nil]

section
variable {config : Config} {start nwDst : Nat} {past : List Nat} {received : Received}

theorem Tracks.set_flag (tracks : Tracks config start past received)
    (among : ntohl nwDst ∈ config.targets) :
    ∀ i < config.flows, (received.ipReceived.set (flowId config.network nwDst).toNat 1)[i]? =
      some (if config.address i ∈ past ++ [ntohl nwDst] then 1 else 0) := by
  intro i inside
  have range := (mem_targets_iff config nwDst).mp among
  by_cases here : (flowId config.network nwDst).toNat = i
  · have same : config.address i = ntohl nwDst := by
      rw [← here]
      exact address_flowId range.1
    rw [here, List.getElem?_set_self (by rw [tracks.length]; exact inside), same]
    simp
  · have other : config.address i ≠ ntohl nwDst := by
      intro same
      rw [flowId_address inside same] at here
      exact here rfl
    rw [List.getElem?_set_ne here, tracks.flags i inside]
    simp [other]

theorem Tracks.receive_known (tracks : Tracks config start past received)
    (known : ¬ (ntohl nwDst ∈ config.targets ∧ ntohl nwDst ∉ past)) :
    receive config.flows (flowId config.network nwDst) received = some (received, .known) ∧
      Tracks config start (past ++ [ntohl nwDst]) received := by
  have still := covered_known known
  refine ⟨?_, ?_, tracks.length, by rw [still]; exact tracks.count⟩
  · by_cases among : ntohl nwDst ∈ config.targets
    · have range := (mem_targets_iff config nwDst).mp among
      have before : ntohl nwDst ∈ past := not_not.mp fun new => known ⟨among, new⟩
      have flag := tracks.flags (flowId config.network nwDst).toNat (by omega)
      rw [address_flowId range.1, if_pos before] at flag
      rw [receive, if_pos range, flag]
      rfl
    · rw [receive, if_neg (fun range => among ((mem_targets_iff config nwDst).mpr range))]
  · intro i inside
    rw [tracks.flags i inside]
    by_cases same : config.address i = ntohl nwDst
    · have among : ntohl nwDst ∈ config.targets :=
        Finset.mem_image.mpr ⟨i, Finset.mem_range.mpr inside, same⟩
      have before : ntohl nwDst ∈ past := not_not.mp fun new => known ⟨among, new⟩
      simp [same, before]
    · simp [same]

theorem Tracks.receive_new (tracks : Tracks config start past received)
    (among : ntohl nwDst ∈ config.targets) (new : ntohl nwDst ∉ past) :
    ∃ after, receive config.flows (flowId config.network nwDst) received = some (after,
        if config.flows - start ≤ (covered config.targets (past ++ [ntohl nwDst])).card then .last
        else .new) ∧
      Tracks config start (past ++ [ntohl nwDst]) after := by
  have range := (mem_targets_iff config nwDst).mp among
  have flag := tracks.flags (flowId config.network nwDst).toNat (by omega)
  rw [address_flowId range.1, if_neg new] at flag
  have grows := card_covered_new among new
  have count : received.ipReceivedCount + 1 =
      ((start + (covered config.targets (past ++ [ntohl nwDst])).card : Nat) : Int) := by
    rw [tracks.count, grows]
    push_cast
    ring
  refine ⟨⟨received.ipReceived.set (flowId config.network nwDst).toNat 1,
    received.ipReceivedCount + 1⟩, ?_, tracks.set_flag among, ?_, ?_⟩
  · have reached : received.ipReceivedCount + 1 ≥ config.flows ↔
        config.flows - start ≤ (covered config.targets (past ++ [ntohl nwDst])).card := by
      rw [count]
      omega
    rw [receive, if_pos range, flag]
    simp [reached]
  · rw [List.length_set, tracks.length]
  · rw [count]
    push_cast
    rfl

end

def Effect.isComplete : Effect → Bool
  | .log _ (.completeInsertDelay _) => true
  | _ => false

def Effect.schedules (arg : TimerArg) : Effect → Bool
  | .schedule _ arg' => arg' = arg
  | _ => false

/-- How many times the end is logged, and the last query and the end of the test scheduled. -/
structure Finishes (effects : List Effect) (times : Nat) : Prop where
  logged : effects.countP Effect.isComplete = times
  snmpGet : effects.countP (Effect.schedules .snmpGet) = times
  byeStr : effects.countP (Effect.schedules .byeStr) = times

theorem finishes_complete (stamp ts now : Timeval) (grace : Int) :
    Finishes (complete stamp ts now grace) 1 := ⟨rfl, rfl, rfl⟩

theorem finishes_stamp (now : Timeval) (sent : Bool) :
    Finishes [.log now (if sent then .endFlowMod else .startFlowMod)] 0 := by
  cases sent with
  | false => exact ⟨rfl, rfl, rfl⟩
  | true => exact ⟨rfl, rfl, rfl⟩

theorem Finishes.append {first second : List Effect} {m n : Nat} (left : Finishes first m)
    (right : Finishes second n) : Finishes (first ++ second) (m + n) := by
  refine ⟨?_, ?_, ?_⟩
  · rw [List.countP_append, left.logged, right.logged]
  · rw [List.countP_append, left.snmpGet, right.snmpGet]
  · rw [List.countP_append, left.byeStr, right.byeStr]

/-- For each event, whether its effects are the end. -/
def Raises (log : List (List Effect)) (raised : List Bool) : Prop :=
  List.Forall₂ (fun effects now => Finishes effects now.toNat) log raised

theorem Raises.flatten {log : List (List Effect)} {raised : List Bool}
    (raises : Raises log raised) : Finishes log.flatten (raised.count true) := by
  induction raises with
  | nil => exact ⟨rfl, rfl, rfl⟩
  | @cons effects now log raised here _ ih =>
    have both := here.append ih
    cases now with
    | false => rwa [Bool.toNat_false, Nat.zero_add] at both
    | true =>
      rw [Bool.toNat_true, Nat.add_comm] at both
      rwa [List.flatten_cons, List.count_cons_self]

theorem Raises.unique {log : List (List Effect)} {first second : List Bool}
    (left : Raises log first) (right : Raises log second) : first = second := by
  induction left generalizing second with
  | nil =>
    cases right
    rfl
  | @cons effects now log first here _ ih =>
    cases right with
    | @cons _ now' _ second here' later =>
      have same : now.toNat = now'.toNat := here.logged.symm.trans here'.logged
      have agree : now = now' := by
        cases now <;> cases now' <;> first | rfl | cases same
      rw [agree, ih later]

/-- The test is ended at the first packet after which every flow was received, and only then: once
if they all are. -/
structure CompletesOnce (config : Config) (items : List (Option Nat)) (log : List (List Effect)) :
    Prop where
  first : Raises log (completions config.targets [] items)
  once : Finishes log.flatten
    (if covered config.targets items.reduceOption = config.targets then 1 else 0)

theorem covered_nil_ne (config : Config) : covered config.targets [] ≠ config.targets := by
  have positive := config.positive
  rw [ne_eq, covered_eq_iff, covered_nil, Finset.card_empty, targets_card]
  omega

theorem completesOnce_iff {config : Config} {items : List (Option Nat)} {log : List (List Effect)}
    {raised : List Bool} (raises : Raises log raised) :
    CompletesOnce config items log ↔ raised = completions config.targets [] items := by
  constructor
  · intro completes
    exact raises.unique completes.first
  · rintro rfl
    have missing := covered_nil_ne config
    have total := raises.flatten
    rw [completions_count, List.nil_append] at total
    exact ⟨raises, by simpa only [missing, ne_eq, not_false_eq_true, true_and] using total⟩

/-- A test module: its variables, the channel it listens to, and what it does at an event. -/
structure TestModule (State : Type) where
  received : State → Received
  flowModTimestamp : State → Timeval
  destination : Capture → Option Nat
  step : State → Event → Option (State × Option (List Effect))

section
variable {State : Type}

def TestModule.Goes (mod : TestModule State) (state : State) (event : Event) (after : Received)
    (stamp : Timeval) (times : Nat) : Prop :=
  ∃ next effects, mod.step state event = some (next, some effects) ∧ mod.received next = after ∧
    mod.flowModTimestamp next = stamp ∧ Finishes effects times

/-- What a module does with the flags at each event. -/
structure Watches (config : Config) (ready : Event → Prop) (mod : TestModule State) : Prop where
  stamped : ∀ state now sent, mod.Goes state (.stamp now sent) (mod.received state) now 0
  ignored : ∀ state capture, ready (.captured capture) →
    (0 < (mod.flowModTimestamp state).tvSec → mod.destination capture = none) →
    mod.Goes state (.captured capture) (mod.received state) (mod.flowModTimestamp state) 0
  taken : ∀ state capture nwDst after arrival, ready (.captured capture) →
    0 < (mod.flowModTimestamp state).tvSec → mod.destination capture = some nwDst →
    receive config.flows (flowId config.network nwDst) (mod.received state) =
      some (after, arrival) →
    mod.Goes state (.captured capture) after (mod.flowModTimestamp state)
      (if arrival = .last then 1 else 0)

variable {config : Config} {ready : Event → Prop} {mod : TestModule State} {start : Nat}

theorem Watches.step (watches : Watches config ready mod) {state : State} {past : List Nat}
    (tracks : Tracks config start past (mod.received state)) {event : Event} (fine : ready event)
    (events : List Event) :
    ∃ next effects now item, mod.step state event = some (next, some effects) ∧
      heard mod.destination (mod.flowModTimestamp state) (event :: events) =
        item :: heard mod.destination (mod.flowModTimestamp next) events ∧
      Tracks config start (past ++ item.toList) (mod.received next) ∧ Finishes effects now.toNat ∧
      ∀ items, alarms config.targets (config.flows - start) past (item :: items) =
        now :: alarms config.targets (config.flows - start) (past ++ item.toList) items := by
  cases event with
  | stamp now sent =>
    obtain ⟨next, effects, stepped, same, time, quiet⟩ := watches.stamped state now sent
    refine ⟨next, effects, false, none, stepped, ?_, ?_, quiet, fun items => ?_⟩
    · rw [time]
      rfl
    · rwa [same, Option.toList_none, List.append_nil]
    · rw [alarms, Option.toList_none, List.append_nil]
  | captured capture =>
    by_cases counts : 0 < (mod.flowModTimestamp state).tvSec → mod.destination capture = none
    · obtain ⟨next, effects, stepped, same, time, quiet⟩ :=
        watches.ignored state capture fine counts
      refine ⟨next, effects, false, none, stepped, ?_, ?_, quiet, fun items => ?_⟩
      · rw [heard, time, List.cons_eq_cons]
        refine ⟨?_, rfl⟩
        split_ifs with sent
        · rw [counts sent]
          rfl
        · rfl
      · rwa [same, Option.toList_none, List.append_nil]
      · rw [alarms, Option.toList_none, List.append_nil]
    · obtain ⟨sent, listens⟩ := Classical.not_imp.mp counts
      obtain ⟨nwDst, destined⟩ := Option.ne_none_iff_exists'.mp listens
      by_cases fresh : ntohl nwDst ∈ config.targets ∧ ntohl nwDst ∉ past
      · obtain ⟨after, counted, tracks'⟩ := tracks.receive_new fresh.1 fresh.2
        obtain ⟨next, effects, stepped, same, time, ends⟩ :=
          watches.taken state capture nwDst after _ fine sent destined counted
        refine ⟨next, effects, decide (config.flows - start ≤
          (covered config.targets (past ++ [ntohl nwDst])).card), some (ntohl nwDst),
          stepped, ?_, ?_, ?_, fun items => ?_⟩
        · rw [heard, time, if_pos sent, destined]
          rfl
        · rwa [same]
        · by_cases enough : config.flows - start ≤
              (covered config.targets (past ++ [ntohl nwDst])).card
          · simpa [enough] using ends
          · simpa [enough] using ends
        · rw [alarms]
          simp [fresh]
      · obtain ⟨counted, tracks'⟩ := tracks.receive_known fresh
        obtain ⟨next, effects, stepped, same, time, quiet⟩ :=
          watches.taken state capture nwDst _ _ fine sent destined counted
        refine ⟨next, effects, false, some (ntohl nwDst), stepped, ?_, ?_, quiet, fun items => ?_⟩
        · rw [heard, time, if_pos sent, destined]
          rfl
        · rwa [same]
        · rw [alarms, decide_eq_false (fun raised => fresh ⟨raised.1, raised.2.1⟩)]
          rfl

theorem Watches.run (watches : Watches config ready mod) {state : State} {past : List Nat}
    (tracks : Tracks config start past (mod.received state)) {events : List Event}
    (fine : ∀ event ∈ events, ready event) :
    ∃ final log, Machine.run mod.step state events = some (final, log) ∧
      Tracks config start
        (past ++ (heard mod.destination (mod.flowModTimestamp state) events).reduceOption)
        (mod.received final) ∧
      Raises log (alarms config.targets (config.flows - start) past
        (heard mod.destination (mod.flowModTimestamp state) events)) := by
  induction events generalizing state past with
  | nil =>
    refine ⟨state, [], rfl, ?_, List.Forall₂.nil⟩
    rwa [heard, List.reduceOption_nil, List.append_nil]
  | cons event events ih =>
    obtain ⟨next, effects, now, item, stepped, hears, tracks', ends, alarm⟩ :=
      watches.step tracks (fine event (List.mem_cons_self ..)) events
    obtain ⟨final, log, ran, tracked, raises⟩ :=
      ih tracks' (fun later member => fine later (List.mem_cons_of_mem event member))
    refine ⟨final, effects :: log, run_of_step stepped ran, ?_, ?_⟩
    · rw [hears]
      cases item with
      | none =>
        rw [Option.toList_none, List.append_nil] at tracked
        rwa [List.reduceOption_cons_of_none]
      | some item => rwa [append_some]
    · rw [hears, alarm]
      exact List.Forall₂.cons ends raises

end

def sampleCapture (ch : Nat) (host : UInt8) : Capture where
  ch := ch
  pcaphdr := ⟨⟨1400000001, 0⟩, 58, 58⟩
  data := zeros 12 ++ [8, 0, 0x45] ++ zeros 15 ++ [192, 168, 2, host] ++ zeros 24
  fl := ⟨0, 0, [], [], 0, 0, 0, 0, 0, 0, 0, 0⟩
  now := ⟨1400000002, 0⟩

def pcapPorts : List Traffic.UserLoop.Channel := List.replicate 3 ⟨none, .pcap⟩

def oneFlow : Config := ⟨"192.168.2.0".toList, 1, by decide, by decide⟩

def twoFlows : Config := ⟨"192.168.2.0".toList, 2, by decide, by decide⟩

end Oflops.Insertion.Arrivals
