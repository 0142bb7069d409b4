import Oflops.Traffic.Packet

/-! The user-space traffic generator: one thread that keeps the state of every generator and
sends whatever is due (`init_traffic_gen`, `start_user_traffic_generator`). Times are unbounded
integers. -/

namespace Oflops.Traffic.UserLoop
open Lib.MachineInt Time Packet

inductive CapType where
  | pcap
  | nf2
  | other
  deriving DecidableEq, Repr

/-- The fields of `struct channel_info` that the generator and the decoder read. -/
structure Channel where
  det : Option TrafGenDet
  capType : CapType

/-- The channel of this number is captured with libpcap. -/
def IsPcap (channels : List Channel) (number : Nat) : Prop :=
  ∃ channel, channels[number]? = some channel ∧ channel.capType = .pcap

/-- Channels of `oflops_channel_name`; the control channel is number 0. -/
def oflopsData1 : Nat := 1
def oflopsData2 : Nat := 2
def oflopsData3 : Nat := 3

/-- A generator's state after the `memset` of `init_traffic_gen`. -/
def blank (ix : Nat) (timestamp : Timespec) : PktDetails where
  trafficGen := ix
  seqNum := 0
  timestamp := timestamp
  ip := none
  data := []
  ipDestMin := 0
  ipDestMax := 0
  pktgen := none

/-- The generators of the channels from number `ix` on, and the channels with their used up
address strings; `clock` and `random` are what `gettimeofday` and `rand` return for a channel. -/
def initTrafficGen (clock : Nat → Timeval) (random : Nat → Nat) :
    Nat → List Channel → Option (List PktDetails × List Channel)
  | _, [] => some ([], [])
  | ix, channel :: channels => do
    match channel.det with
    | none =>
      let (generators, channels) ← initTrafficGen clock random (ix + 1) channels
      some (generators, channel :: channels)
    | some det =>
      let timestamp := addTimespec (tvToTs (clock ix)) 0 (random ix % 1000000000 : Nat)
      let (_, state, det) ← innitializeGeneratorPacket (blank ix timestamp) det
      let (generators, channels) ← initTrafficGen clock random (ix + 1) channels
      some (state :: generators, { channel with det := some det } :: channels)

/-- The loop of `get_min_generator`, from generator `i` on. -/
def minLoop : List PktDetails → Nat → Nat → Timespec → Nat
  | [], _, minGen, _ => minGen
  | state :: generators, i, minGen, minTv =>
    if timespecDiff state.timestamp minTv > 0 then minLoop generators (i + 1) i state.timestamp
    else minLoop generators (i + 1) minGen minTv

/-- None stands for -1. -/
def getMinGenerator : List PktDetails → Option Nat
  | [] => none
  | state :: generators => some (minLoop generators 1 0 state.timestamp)

/-- A packet handed to the socket: by which generator, for which time, at which reading of the
clock, and its bytes. -/
structure Sent where
  generator : Nat
  scheduled : Timespec
  now : Timeval
  frame : List UInt8

/-- One turn of the loop of `start_user_traffic_generator`, with the clock at `now`. -/
def turn (channels : List Channel) (generators : List PktDetails) (now : Timeval) :
    Option (Option Sent × List PktDetails) :=
  match getMinGenerator generators with
  | none => some (none, generators)
  | some nr => do
    let state ← generators[nr]?
    let uDiff := int32 (timeDiff now (tsToTv state.timestamp))
    if uDiff > 0 then some (none, generators)
    else do
      let channel ← channels[state.trafficGen]?
      let det ← channel.det
      let (frame, after) ← sendPkt state det.delay now
      some (some ⟨nr, state.timestamp, now, frame⟩, generators.set nr after)

/-- The packets sent while the clock shows `readings`, and the generators afterwards. -/
def userLoop (channels : List Channel) (generators : List PktDetails) :
    List Timeval → Option (List Sent × List PktDetails)
  | [] => some ([], generators)
  | now :: readings => do
    let (sent, generators) ← turn channels generators now
    let (later, generators) ← userLoop channels generators readings
    some (sent.toList ++ later, generators)

def startUserTrafficGenerator (clock : Nat → Timeval) (random : Nat → Nat) (channels : List Channel)
    (readings : List Timeval) : Option (List Sent × List PktDetails) := do
  let (generators, channels) ← initTrafficGen clock random 0 channels
  userLoop channels generators readings

def detOf (channels : List Channel) (state : PktDetails) : Option TrafGenDet :=
  channels[state.trafficGen]?.bind Channel.det

theorem turn_cases {channels : List Channel} {generators after : List PktDetails} {now : Timeval}
    {sent : Option Sent} (taken : turn channels generators now = some (sent, after)) :
    (sent = none ∧ after = generators) ∨
      ∃ nr state det frame state', getMinGenerator generators = some nr ∧
        generators[nr]? = some state ∧ detOf channels state = some det ∧
        sendPkt state det.delay now = some (frame, state') ∧
        sent = some ⟨nr, state.timestamp, now, frame⟩ ∧ after = generators.set nr state' := by
  unfold turn at taken
  cases chosen : getMinGenerator generators with
  | none =>
    rw [chosen] at taken
    cases taken
    exact Or.inl ⟨rfl, rfl⟩
  | some nr =>
    rw [chosen] at taken
    dsimp only at taken
    obtain ⟨state, found, rest⟩ := Option.bind_eq_some_iff.mp taken
    split_ifs at rest with early
    · cases rest
      exact Or.inl ⟨rfl, rfl⟩
    · obtain ⟨channel, known, rest⟩ := Option.bind_eq_some_iff.mp rest
      obtain ⟨det, given, rest⟩ := Option.bind_eq_some_iff.mp rest
      obtain ⟨⟨frame, state'⟩, done, rest⟩ := Option.bind_eq_some_iff.mp rest
      cases rest
      exact Or.inr ⟨nr, state, det, frame, state', rfl,
        found, by rw [detOf, known]; exact given, done, rfl, rfl⟩

theorem userLoop_cases {channels : List Channel} {generators final : List PktDetails}
    {now : Timeval} {readings : List Timeval} {sent : List Sent}
    (ran : userLoop channels generators (now :: readings) = some (sent, final)) :
    userLoop channels generators readings = some (sent, final) ∨
      ∃ nr state det frame state' later, getMinGenerator generators = some nr ∧
        generators[nr]? = some state ∧ detOf channels state = some det ∧
        sendPkt state det.delay now = some (frame, state') ∧
        userLoop channels (generators.set nr state') readings = some (later, final) ∧
        sent = ⟨nr, state.timestamp, now, frame⟩ :: later := by
  obtain ⟨⟨packet, next⟩, taken, ran⟩ := Option.bind_eq_some_iff.mp ran
  obtain ⟨⟨later, _⟩, rest, ran⟩ := Option.bind_eq_some_iff.mp ran
  cases ran
  rcases turn_cases taken with ⟨rfl, rfl⟩ |
    ⟨nr, state, det, frame, state', chosen, found, known, done, rfl, rfl⟩
  · exact Or.inl rest
  · exact Or.inr ⟨nr, state, det, frame, state', later, chosen, found, known, done, rest, rfl⟩

end Oflops.Traffic.UserLoop
