import Mathlib.Data.List.Sort
import Oflops.Insertion.Arrivals
import Oflops.Lib.ArrayFill
import Oflops.Traffic.CardSchedule
import Oflops.Traffic.RoundTrip

/-! The test `snmp_queue_delay` on the NetFPGA card: at each of four rates a number of packets is
sent, and the delays of those that come back are collected in an array whose size `init` has
calculated beforehand. -/

namespace Oflops.QueueDelay.Module
open Lib.ArrayFill Lib.Bytes Time Traffic.Packet Traffic.Wire Traffic.Decode Traffic.UserLoop
  Traffic.Flows
open Traffic.CardGenerator Traffic.CardSchedule
open Traffic.RoundTrip (macString readMacAddr_macString)
open Insertion.Arrivals (Capture extract sampleCapture pcapPorts)

/-- The parameters that `init` accepts, and the address that `start` asks the system for. A negative
duration is accepted too, but there is no memory for its array. -/
structure Config where
  pktSize : Nat
  duration : Nat
  localMac : List UInt8
  sized : 70 < pktSize ∧ pktSize ≤ 1500
  lasting : 10 ≤ duration ∧ duration < 2 ^ 31
  localMacLength : localMac.length = 6

def byteToBits : Nat := 8
def secToUsec : Nat := 1000000
def mbitsToBits : Nat := 1024 * 1024

/-- The cells of `delay`. -/
def maxPktCount (config : Config) : Nat :=
  config.duration * 1000000000 % 2 ^ 64 / (config.pktSize * byteToBits * secToUsec / mbitsToBits)

structure State where
  delay : List (Option Int)
  delayCount : UInt32

def init (config : Config) : State := ⟨alloc (maxPktCount config), 0⟩

/-! ### handle_pcap_event -/

section
variable (nf : Nat → List UInt8 → Int → Option PktgenHdr) (channels : List Channel)

def handlePcapEvent (config : Config) (state : State) (capture : Capture) : Option State :=
  if capture.ch = oflopsData1 then
    if state.delayCount.toNat ≥ maxPktCount config then some state
    else do
      let extraction ← extract nf channels capture
      match pktgenOf extraction with
      | none => some state
      | some pktgen =>
        let delay ← put state.delay state.delayCount.toNat
          (timeDiff ⟨pktgen.tvSec, pktgen.tvUsec⟩ capture.pcaphdr.ts)
        some ⟨delay, state.delayCount + 1⟩
  else some state

/-! ### handle_traffic_generation -/

def datarates : List Nat := [128, 256, 512, 1000]

def dataSndInterval (config : Config) (datarate : Nat) : Nat :=
  config.pktSize * byteToBits * secToUsec * 1000 / (datarate * mbitsToBits)

def pktCount (config : Config) (datarate : Nat) : Nat :=
  if dataSndInterval config datarate ≠ 0 then
    config.duration * 1000000000 % 2 ^ 64 / dataSndInterval config datarate
  else config.duration * 1000000000 % 2 ^ 64

/-- The details of the generator; `pktgen` tells whether it is the kernel's. -/
def trafGenDet (config : Config) (pktgen : Bool) (datarate : Nat) : CardDet where
  srcIp := "10.1.1.1".toList
  dstIpMax := "10.1.1.2".toList
  dstIpMin := "10.1.1.2".toList
  macDst := "00:1e:68:9a:c5:75".toList
  macSrc := if pktgen then "00:00:00:00:00:00".toList else macString config.localMac
  udpSrcPort := 8080
  udpDstPort := 8080
  pktSize := UInt32.ofNat config.pktSize
  vlan := 0xffff
  delay := UInt32.ofNat (dataSndInterval config datarate)
  pktCount := UInt64.ofNat (pktCount config datarate)
  flags := []

/-- What happens at one rate: the polls of the generator, the frames that are captured until the
statistics are made, and the packet counter of the switch before and after. -/
structure Round where
  polls : List Poll
  captures : List Capture
  startCount : UInt32
  endCount : UInt32

/-- `gsl_sort` on the first `n` cells; one that was not written has no value to compare. -/
def gslSort (cells : List (Option Int)) (n : Nat) : Option (List (Option Int)) :=
  if n ≤ cells.length ∧ none ∉ cells.take n then
    some (((cells.take n).reduceOption.insertionSort (· ≤ ·)).map some ++ cells.drop n)
  else none

/-- What is reported for a rate: what the statistics functions are given, and the two numbers whose
quotient is the loss. -/
structure Report where
  datarate : Nat
  delays : List (Option Int)
  loss : UInt64 × UInt64
  delayCount : UInt32
  counted : UInt32

/-- One turn of the loop, with the calls of the card's library. The other channels have
no generator. -/
def measure (config : Config) (others datarate : Nat) (round : Round) (state : State) :
    Option (State × Report × List NfCall) := do
  let det := trafGenDet config false datarate
  let calls ← startNfTrafficGenerator (fun _ => id)
    (none :: some det :: List.replicate others none) round.polls
  let state ← round.captures.foldlM (handlePcapEvent nf channels config) { state with
    delayCount := 0 }
  let counted := round.endCount - round.startCount
  let delay ← gslSort state.delay state.delayCount.toNat
  some ({ state with delay },
    { datarate
      delays := delay.take state.delayCount.toNat
      loss := (det.pktCount - counted.toUInt64, det.pktCount)
      delayCount := state.delayCount
      counted }, calls)

def measureAll (config : Config) (others : Nat) :
    List (Nat × Round) → State → Option (List (Report × List NfCall))
  | [], _ => some []
  | (datarate, round) :: rest, state => do
    let (state, report, calls) ← measure nf channels config others datarate round state
    let reports ← measureAll config others rest state
    some ((report, calls) :: reports)

def handleTrafficGeneration (config : Config) (others : Nat) (rounds : List Round) :
    Option (List (Report × List NfCall)) :=
  measureAll nf channels config others (datarates.zip rounds) (init config)

def probeDelay (capture : Capture) : Option Int :=
  if capture.ch = oflopsData1 then
    ((extract nf channels capture).bind pktgenOf).map fun pktgen =>
      timeDiff ⟨pktgen.tvSec, pktgen.tvUsec⟩ capture.pcaphdr.ts
  else none

def delays (captures : List Capture) : List Int := captures.filterMap (probeDelay nf channels)

end

/-! ### The room in the array -/

section
variable (config : Config)

end

/-! ### What is collected -/

structure Collected (config : Config) (done : List Int) (state : State) : Prop where
  length : state.delay.length = maxPktCount config
  count : state.delayCount.toNat = done.length
  front : state.delay.take done.length = done.map some

section
variable {nf : Nat → List UInt8 → Int → Option PktgenHdr} {channels : List Channel}
  {config : Config}

def Legible (nf : Nat → List UInt8 → Int → Option PktgenHdr) (channels : List Channel)
    (capture : Capture) : Prop :=
  capture.ch = oflopsData1 → (extract nf channels capture).isSome

theorem Collected.capture {done : List Int} {state : State}
    (collected : Collected config done state) {capture : Capture}
    (legible : Legible nf channels capture)
    (room : done.length + (delays nf channels [capture]).length ≤ maxPktCount config)
    (small : done.length + (delays nf channels [capture]).length < 2 ^ 32) :
    ∃ after, handlePcapEvent nf channels config state capture = some after ∧
      Collected config (done ++ delays nf channels [capture]) after := by
  by_cases here : capture.ch = oflopsData1
  · obtain ⟨extraction, extracted⟩ := Option.isSome_iff_exists.mp (legible here)
    cases header : pktgenOf extraction with
    | none =>
      have nothing : delays nf channels [capture] = [] := by
        simp [delays, probeDelay, here, extracted, header]
      refine ⟨state, ?_, by rwa [nothing, List.append_nil]⟩
      rw [handlePcapEvent, if_pos here]
      split_ifs
      · rfl
      · simp only [extracted, Option.bind_eq_bind, Option.bind_some, header]
    | some pktgen =>
      have one : delays nf channels [capture] =
          [timeDiff ⟨pktgen.tvSec, pktgen.tvUsec⟩ capture.pcaphdr.ts] := by
        simp [delays, probeDelay, here, extracted, header]
      rw [one, List.length_singleton] at room small
      obtain ⟨delay, stored, length, front⟩ :=
        take_put collected.front (by rw [collected.length]; exact room)
        (timeDiff ⟨pktgen.tvSec, pktgen.tvUsec⟩ capture.pcaphdr.ts)
      refine ⟨⟨delay, state.delayCount + 1⟩, ?_, ?_⟩
      · rw [handlePcapEvent, if_pos here, if_neg (by rw [collected.count]; omega)]
        simp only [extracted, Option.bind_eq_bind, Option.bind_some, header,
          collected.count, stored]
      · rw [one]
        refine ⟨length.trans collected.length, ?_, front⟩
        rw [UInt32.toNat_add, UInt32.toNat_one, collected.count, List.length_append,
          List.length_singleton]
        exact Nat.mod_eq_of_lt small
  · have nothing : delays nf channels [capture] = [] := by
      simp [delays, probeDelay, here]
    refine ⟨state, if_neg here, by rwa [nothing, List.append_nil]⟩

theorem Collected.captures {captures : List Capture} {done : List Int} {state : State}
    (collected : Collected config done state)
    (legible : ∀ capture ∈ captures, Legible nf channels capture)
    (room : done.length + (delays nf channels captures).length ≤ maxPktCount config)
    (small : done.length + (delays nf channels captures).length < 2 ^ 32) :
    ∃ after, captures.foldlM (handlePcapEvent nf channels config) state = some after ∧
      Collected config (done ++ delays nf channels captures) after := by
  induction captures generalizing done state with
  | nil => exact ⟨state, rfl, by rwa [delays, List.filterMap_nil, List.append_nil]⟩
  | cons capture captures ih =>
    have split : delays nf channels (capture :: captures) =
        delays nf channels [capture] ++ delays nf channels captures := by
      rw [delays, delays, delays, ← List.filterMap_append, List.singleton_append]
    rw [split, List.length_append] at room small
    obtain ⟨next, first, collected'⟩ :=
      collected.capture (legible capture List.mem_cons_self) (by omega) (by omega)
    obtain ⟨after, rest, collected''⟩ := ih collected'
      (fun other member => legible other (List.mem_cons_of_mem _ member))
      (by rw [List.length_append]; omega) (by rw [List.length_append]; omega)
    refine ⟨after, ?_, by rwa [split, ← List.append_assoc]⟩
    rw [List.foldlM_cons, first, Option.bind_eq_bind, Option.bind_some, rest]

/-- The frames can be read, and no more probes are captured than the card was asked for. -/
structure Sound (nf : Nat → List UInt8 → Int → Option PktgenHdr) (channels : List Channel)
    (config : Config) (datarate : Nat) (round : Round) : Prop where
  legible : ∀ capture ∈ round.captures, Legible nf channels capture
  few : (delays nf channels round.captures).length ≤ pktCount config datarate % 2 ^ 32

end

end Oflops.QueueDelay.Module
