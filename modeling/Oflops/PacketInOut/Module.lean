import Oflops.Openflow.FlowMod
import Oflops.PacketIn.Module

/-! The relay module (`openflow_packet_in_out`): a probe that the switch reports is recorded and
handed back to be sent from the second data port, where it is recorded again. -/

namespace Oflops.PacketInOut.Module
open Lib.Bytes Lib.MachineInt Lib.Record Time Traffic.Wire Traffic.Decode Traffic.UserLoop
open PacketIn.Module hiding State start processPacketIn
open Openflow.FlowMod (noBuffer)

structure OutLine where
  snd : Timeval
  rcv : Timeval
  seqNum : UInt32
  deriving DecidableEq

/-- The static variables; those of the packet-in side are the packet-in module's. -/
structure State (F : Type) where
  pktin : PacketIn.Module.State F
  pktOutSentCount : Nat
  rcvPktCount : UInt32
  pktoutMean : F
  pktoutCsvOutput : Option (List OutLine)
  pktoutHead : List Entry

/-- The assignments of `start`; the two files are opened together. -/
def start {F : Type} (zero : F) (print : Bool) : State F where
  pktin := PacketIn.Module.start zero (if print then some [] else none)
  pktOutSentCount := 0
  rcvPktCount := 0
  pktoutMean := zero
  pktoutCsvOutput := if print then some [] else none
  pktoutHead := []

/-- `check_backlog`, and the number of the second data port at the switch. -/
structure Config where
  checkBacklog : Bool
  ofPort : Nat

structure CofmsgPacketOut where
  bufferId : Nat
  packet : List UInt8
  portNo : Nat

/-- Convert a 32-bit field to network order, in place. -/
def htonlAt (b : List UInt8) (offset : Nat) : Option (List UInt8) := do
  let value ← loadAt b offset 4
  writeAt b offset (leBytes 4 (htonl value))

/-- The fields that `extract_pktgen_pkt` has swapped are swapped back. -/
def headerToNetwork (b : List UInt8) (pktgen : Nat) : Option (List UInt8) := do
  let b ← htonlAt b (pktgen + 8)
  let b ← htonlAt b (pktgen + 12)
  htonlAt b (pktgen + 4)

/-- The packet of the message afterwards; a header of the NetFPGA capture is no part of it. -/
def restore (extraction : Extraction) : Option (List UInt8) :=
  match extraction.header with
  | some (.inPlace pktgen) => headerToNetwork extraction.b pktgen
  | _ => some extraction.b

section
variable {F : Type} (mean : F → Int → UInt32 → F) (nf : Nat → List UInt8 → Int → Option PktgenHdr)
  (channels : List Channel) (config : Config)

/-- The state and the packet-out that is sent; `backlog` is what `has_control_backlog` returns. As
in the packet-in module, `fl` is read even if nothing was extracted. -/
def processPacketIn (ofVersion : Nat) (pktin : CofmsgPacketIn) (fl : Flow) (now : Timeval)
    (backlog : Bool) (state : State F) : Option (State F × Option CofmsgPacketOut) := do
  let extraction ← extractPktgenPkt nf channels oflopsData1 pktin.packet
    (ntohs pktin.packet.length) (some fl)
  let fl ← extraction.fl
  if fl.tpSrc ≠ 8080 then some (state, none)
  else
    match pktgenOf extraction with
    | none => some (state, none)
    | some pktgen =>
      let state := { state with pktin := record mean ofVersion pktin now pktgen state.pktin }
      if config.checkBacklog = false ∨ backlog = false then do
        let packet ← restore extraction
        some ({ state with pktOutSentCount := state.pktOutSentCount + 1 },
          some ⟨pktin.bufferId, if pktin.bufferId = noBuffer then packet else [], config.ofPort⟩)
      else some (state, none)

structure Capture where
  ch : Nat
  pcaphdr : PcapPkthdr
  data : List UInt8
  fl : Flow

/-- The header is read even if `extract_pktgen_pkt` has returned `NULL`. -/
def handlePcapEvent (pe : Capture) (state : State F) : Option (State F) :=
  if pe.ch = oflopsData2 then do
    let extraction ← extractPktgenPkt nf channels pe.ch pe.data
      (int32 pe.pcaphdr.caplen.toNat) (some pe.fl)
    let fl ← extraction.fl
    if fl.dlType ≠ 0x0800 then some state
    else do
      let rcvPktCount := state.rcvPktCount + 1
      let pkt ← pktgenOf extraction
      let then_ : Timeval := ⟨pkt.tvSec, pkt.tvUsec⟩
      some
        { state with
          rcvPktCount
          pktoutMean := mean state.pktoutMean (timeDiff then_ pe.pcaphdr.ts) rcvPktCount
          pktoutCsvOutput :=
            state.pktoutCsvOutput.map (· ++ [⟨then_, pe.pcaphdr.ts, UInt32.ofNat pkt.seqNum⟩])
          pktoutHead :=
            match state.pktoutCsvOutput with
            | some _ => state.pktoutHead
            | none => state.pktoutHead ++ [⟨then_, pe.pcaphdr.ts, int32 pkt.seqNum⟩] }
  else some state

end

/-! ### What is recorded -/

/-- A record of either side, in a file or in a list. -/
structure Stamp where
  snd : Timeval
  rcv : Timeval
  seqNum : UInt32
  deriving DecidableEq

def Entry.stamp (entry : Entry) : Stamp := ⟨entry.snd, entry.rcv, UInt32.ofInt entry.id⟩
def CsvLine.stamp (line : CsvLine) : Stamp := ⟨line.snd, line.rcv, line.seqNum⟩
def OutLine.stamp (line : OutLine) : Stamp := ⟨line.snd, line.rcv, line.seqNum⟩

def State.incoming {F : Type} (state : State F) : List Stamp :=
  match state.pktin.csvOutput with
  | some lines => lines.map CsvLine.stamp
  | none => state.pktin.head.map Entry.stamp

def State.outgoing {F : Type} (state : State F) : List Stamp :=
  match state.pktoutCsvOutput with
  | some lines => lines.map OutLine.stamp
  | none => state.pktoutHead.map Entry.stamp

def probeStamp (probe : Probe) (rcv : Timeval) : Stamp :=
  ⟨⟨probe.tvSec, probe.tvUsec⟩, rcv, UInt32.ofNat probe.seqNum⟩

theorem ofInt_int32 (x : Nat) : UInt32.ofInt (int32 x) = UInt32.ofNat x := by
  apply UInt32.toNat_inj.mp
  simp only [UInt32.ofInt, UInt32.toNat_ofNat', int32]
  rw [Int.bmod_def]
  norm_num
  split_ifs <;> omega

section
variable {F : Type} {mean : F → Int → UInt32 → F} {nf : Nat → List UInt8 → Int → Option PktgenHdr}
  {channels : List Channel} {config : Config} {ofVersion : Nat} {pktin : CofmsgPacketIn}
  {probe : Probe} {state : State F}

theorem htonlAt_part {before part after : List UInt8} {base i x : Nat}
    (place : before.length = base) (inside : i + 4 ≤ part.length)
    (content : slice part i 4 = leBytes 4 x) (fits : x < 2 ^ 32) :
    htonlAt (before ++ (part ++ after)) (base + i) =
      some (before ++ (patch part i (beBytes 4 x) ++ after)) := by
  have stored : leBytes 4 (htonl (leValue (leBytes 4 x))) = beBytes 4 x := by
    rw [leValue_leBytes, Nat.mod_eq_of_lt (show x < 256 ^ 4 from fits)]
    exact leBytes_swapBytes 4 x
  unfold htonlAt loadAt
  rw [readAt_part place inside, content]
  change writeAt _ _ (leBytes 4 (htonl (leValue (leBytes 4 x)))) = _
  rw [stored]
  exact writeAt_part place (by simpa using inside)

theorem headerToNetwork_converted (fits : Fits probe) :
    headerToNetwork (converted probe) (probe.ether.length + 28) = some probe.encode := by
  have place := probe.front_length
  unfold headerToNetwork converted
  simp only [Option.bind_eq_bind]
  rw [htonlAt_part place (by simp [hostHeader]) rfl fits.tvSec, Option.bind_some,
    htonlAt_part place (by rw [patch_length] <;> simp [hostHeader]) rfl fits.tvUsec,
    Option.bind_some,
    htonlAt_part place (by rw [patch_length, patch_length] <;> simp [patch_length, hostHeader])
    rfl fits.seqNum, probe.encode_eq]
  rfl

/-- The frames of the test: UDP from port 8080, not tagged, of a size that `init` is meant
to allow. -/
structure Relayable (probe : Probe) : Prop where
  fits : Fits probe
  untagged : Untagged probe
  source : probe.sport = 8080
  short : probe.padding ≤ 1442

theorem Relayable.length (relayable : Relayable probe) :
    probe.encode.length = 58 + probe.padding := by
  rw [probe.encode_length, relayable.untagged.length]

def answer (config : Config) (backlog : Bool) (bufferId : Nat) (packet : List UInt8) :
    Option CofmsgPacketOut :=
  if config.checkBacklog = false ∨ backlog = false then
    some ⟨bufferId, if bufferId = noBuffer then packet else [], config.ofPort⟩
  else none

def recorded (mean : F → Int → UInt32 → F) (config : Config) (ofVersion : Nat)
    (pktin : CofmsgPacketIn) (now : Timeval) (backlog : Bool) (probe : Probe) (state : State F) :
    State F :=
  { state with
    pktin := record mean ofVersion pktin now ⟨htonl 0xbe9be955, probe.seqNum,
      probe.tvSec, probe.tvUsec⟩
      state.pktin
    pktOutSentCount := state.pktOutSentCount + (answer config backlog 0 []).toList.length }

theorem processPacketIn_probe (pcap : IsPcap channels oflopsData1) (relayable : Relayable probe)
    (frame : pktin.packet = probe.encode) (fl : Flow) (now : Timeval) (backlog : Bool) :
    processPacketIn mean nf channels config ofVersion pktin fl now backlog state =
      if 34 ≤ ntohs pktin.packet.length then
        some (recorded mean config ofVersion pktin now backlog probe state,
          answer config backlog pktin.bufferId probe.encode)
      else some (state, none) := by
  obtain ⟨channel, known, type⟩ := pcap
  have inside : oflopsData1 < channels.length := (List.getElem?_eq_some_iff.mp known).1
  have ether := relayable.untagged.length
  split_ifs with long
  · have extracted := extract_probe_long nf known type relayable.fits
      (by omega) relayable.untagged.located
      relayable.untagged.fields fl (ntohs pktin.packet.length) (by omega)
    have found := pktgenAt_converted relayable.fits
    have restored : restore ⟨some (.inPlace (probe.ether.length + 28)), converted probe,
        some (flowOf probe 0x0800 0xffff)⟩ = some probe.encode :=
      headerToNetwork_converted relayable.fits
    simp only [processPacketIn, frame] at extracted ⊢
    rw [extracted]
    simp only [Option.bind_eq_bind, Option.bind_some, flowOf, relayable.source, ne_eq,
      not_true_eq_false, if_false, pktgenOf, Option.map_some, found] at restored ⊢
    rw [restored]
    unfold recorded answer
    split_ifs <;> rfl
  · have extracted := extract_probe_short nf inside relayable.untagged.located (some fl)
      (ntohs pktin.packet.length) (by omega)
    simp only [processPacketIn, frame] at extracted ⊢
    rw [extracted]
    simp [pktgenOf]

theorem recorded_incoming (now : Timeval) (backlog : Bool) :
    (recorded mean config ofVersion pktin now backlog probe state).incoming =
      state.incoming ++ [probeStamp probe now] := by
  cases csv : state.pktin.csvOutput with
  | some lines => simp [State.incoming, recorded, record, csv, CsvLine.stamp, probeStamp]
  | none => simp [State.incoming, recorded, record, csv, Entry.stamp, probeStamp, ofInt_int32]

def received (mean : F → Int → UInt32 → F) (ts : Timeval) (probe : Probe) (state : State F) :
    State F :=
  { state with
    rcvPktCount := state.rcvPktCount + 1
    pktoutMean := mean state.pktoutMean (timeDiff ⟨probe.tvSec, probe.tvUsec⟩ ts)
      (state.rcvPktCount + 1)
    pktoutCsvOutput := state.pktoutCsvOutput.map
      (· ++ [⟨⟨probe.tvSec, probe.tvUsec⟩, ts, UInt32.ofNat probe.seqNum⟩])
    pktoutHead :=
      match state.pktoutCsvOutput with
      | some _ => state.pktoutHead
      | none => state.pktoutHead ++ [⟨⟨probe.tvSec, probe.tvUsec⟩, ts, int32 probe.seqNum⟩] }

theorem handlePcapEvent_probe (pcap : IsPcap channels oflopsData2) (relayable : Relayable probe)
    (fl : Flow) (ts : Timeval) :
    handlePcapEvent mean nf channels ⟨oflopsData2, ⟨ts, UInt32.ofNat probe.encode.length,
      UInt32.ofNat probe.encode.length⟩, probe.encode, fl⟩ state =
        some (received mean ts probe state) := by
  obtain ⟨channel, known, type⟩ := pcap
  have ether := relayable.untagged.length
  have length := relayable.length
  have short := relayable.short
  have caplen : int32 (UInt32.ofNat probe.encode.length).toNat = probe.encode.length := by
    rw [UInt32.toNat_ofNat', Nat.mod_eq_of_lt (by omega)]
    exact int32_of_range (by omega) (by omega)
  have extracted := extract_probe_long nf known type relayable.fits
    (by omega) relayable.untagged.located
    relayable.untagged.fields fl probe.encode.length (by omega)
  have found := pktgenAt_converted relayable.fits
  refine (if_pos rfl).trans ?_
  simp only [caplen, extracted, Option.bind_eq_bind, Option.bind_some, flowOf, ne_eq,
    not_true_eq_false, if_false, pktgenOf, Option.map_some, found]
  rfl

theorem received_outgoing (ts : Timeval) :
    (received mean ts probe state).outgoing = state.outgoing ++ [probeStamp probe ts] := by
  cases csv : state.pktoutCsvOutput with
  | some lines => simp [State.outgoing, received, csv, OutLine.stamp, probeStamp]
  | none => simp [State.outgoing, received, csv, Entry.stamp, probeStamp, ofInt_int32]

end

end Oflops.PacketInOut.Module
