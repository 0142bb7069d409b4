import Oflops.Openflow.Rules
import Oflops.Reactive.Module

/-! The rule that `openflow_reactive` sends for a probe, read by a switch: it takes the frames of
the flow of the probe, whatever their sequence numbers, times and lengths, and no others. -/

namespace Oflops.Reactive.Answer
open Lib Lib.Bytes Lib.Record Lib.Slots Time Traffic.Wire Traffic.UserLoop
open Traffic.Decode hiding Header
open Openflow.FlowMod Openflow.Matching Openflow.Rules Reactive.Module
open Insertion.Arrivals hiding Event Effect

/-- The message of a switch that has no rule for a frame. -/
def encodePacketIn (xid bufferId totalLen inPort : Nat) (frame : List UInt8) : List UInt8 :=
  ([1, 10] ++ beBytes 2 (18 + frame.length) ++ beBytes 4 xid) ++
    ((beBytes 4 bufferId ++ beBytes 2 totalLen ++ beBytes 2 inPort ++ [0, 0]) ++ frame)

section
variable (xid bufferId totalLen inPort : Nat) (frame : List UInt8)

theorem slice_packetIn {i width : Nat} (inside : i + width ≤ 10) :
    slice (encodePacketIn xid bufferId totalLen inPort frame) (8 + i) width =
      slice (beBytes 4 bufferId ++ beBytes 2 totalLen ++ beBytes 2 inPort ++ [0, 0]) i width :=
  slice_part (by simp) (by simpa using inside)

theorem packetIn_length :
    (encodePacketIn xid bufferId totalLen inPort frame).length = 18 + frame.length := by
  simp only [encodePacketIn, List.length_append, beBytes_length, List.length_cons, List.length_nil]
  omega

theorem packetIn_bufferId :
    slice (encodePacketIn xid bufferId totalLen inPort frame) bufferIdAt 4 = beBytes 4 bufferId :=
  slice_packetIn xid bufferId totalLen inPort frame (i := 0) (by decide)

theorem packetIn_totalLen :
    slice (encodePacketIn xid bufferId totalLen inPort frame) totalLenAt 2 = beBytes 2 totalLen :=
  slice_packetIn xid bufferId totalLen inPort frame (i := 4) (by decide)

theorem packetIn_inPort :
    slice (encodePacketIn xid bufferId totalLen inPort frame) inPortAt 2 = beBytes 2 inPort :=
  slice_packetIn xid bufferId totalLen inPort frame (i := 6) (by decide)

theorem packetIn_reason :
    slice (encodePacketIn xid bufferId totalLen inPort frame) reasonAt 1 = [0] :=
  slice_packetIn xid bufferId totalLen inPort frame (i := 8) (by decide)

theorem packetIn_data : (encodePacketIn xid bufferId totalLen inPort frame).drop dataAt = frame :=
  rfl

end

/-! ### What the module finds in the message -/

/-- A probe as it is at a port of the switch that the module takes for a channel of libpcap. -/
structure AtPort (channels : List Channel) (inPort : Nat) (probe : Probe) : Prop where
  fits : Fits probe
  untagged : Untagged probe
  small : inPort < 2 ^ 16
  known : IsPcap channels inPort

section
variable {nf : Nat → List UInt8 → Int → Option PktgenHdr} {channels : List Channel} {inPort : Nat}
  {probe : Probe}

theorem extractPacketIn_probe (atPort : AtPort channels inPort probe) (xid bufferId : Nat)
    {totalLen : Nat} (long : 34 ≤ totalLen) (short : totalLen < 2 ^ 16) (fl : Flow)
    (now : Timeval) :
    extractPacketIn nf channels
        ⟨encodePacketIn xid bufferId totalLen inPort probe.encode, fl, now⟩ =
      some ⟨some (.inPlace (probe.ether.length + 28)), converted probe,
        some (flowOf probe 0x0800 0xffff)⟩ := by
  obtain ⟨fits, untagged, small, channel, known, pcap⟩ := atPort
  have length := packetIn_length xid bufferId totalLen inPort probe.encode
  have ether := untagged.length
  have port : loadAt (encodePacketIn xid bufferId totalLen inPort probe.encode) inPortAt 2 = _ :=
    loadAt_eq (by rw [length, inPortAt]; omega) (packetIn_inPort ..)
  have total : loadAt (encodePacketIn xid bufferId totalLen inPort probe.encode) totalLenAt 2 = _ :=
    loadAt_eq (by rw [length, totalLenAt]; omega) (packetIn_totalLen ..)
  rw [extractPacketIn]
  simp only [port, total, Option.bind_eq_bind, Option.bind_some, packetIn_data]
  rw [ntohs_beBytes small, ntohs_beBytes short]
  exact extract_probe_long nf known pcap fits (by omega) untagged.located untagged.fields fl
    totalLen (by omega)

theorem reported_probe (atPort : AtPort channels inPort probe) (xid bufferId : Nat) {totalLen : Nat}
    (long : 34 ≤ totalLen) (short : totalLen < 2 ^ 16) (fl : Flow) (now : Timeval) :
    reported nf channels ⟨encodePacketIn xid bufferId totalLen inPort probe.encode, fl, now⟩ =
      some (htonl probe.daddr, ⟨probe.tvSec, probe.tvUsec⟩) := by
  have reason : loadAt (encodePacketIn xid bufferId totalLen inPort probe.encode)
      reasonAt 1 = some 0 :=
    loadAt_eq (by rw [packetIn_length, reasonAt]; omega) (packetIn_reason ..)
  refine (if_pos reason).trans ?_
  rw [extractPacketIn_probe atPort xid bufferId long short, Option.bind_eq_bind,
    Option.bind_some, pktgenOf, Option.map_some]
  simp only [pktgenAt_converted atPort.fits, Option.bind_eq_bind, Option.bind_some, flowOf]

/-! ### What the switch reads in the answer -/

def probeHeader (inPort : Nat) (probe : Probe) : Header where
  inPort := beBytes 2 inPort
  dlSrc := slice probe.ether 6 6
  dlDst := slice probe.ether 0 6
  dlVlan := [0xff, 0xff]
  dlVlanPcp := [0]
  dlType := [8, 0]
  nwTos := [0]
  nwProto := [17]
  nwSrc := beBytes 4 probe.saddr
  nwDst := beBytes 4 probe.daddr
  tpSrc := beBytes 2 probe.sport
  tpDst := beBytes 2 probe.dport

theorem headerOf_probe (untagged : Untagged probe) (inPort : Nat) :
    headerOf (beBytes 2 inPort) probe.encode = probeHeader inPort probe := by
  have ether := untagged.length
  have type : slice probe.encode 12 2 = [8, 0] := by
    rw [slice_ether probe (by omega), untagged.type]
  rw [headerOf, type, if_neg (by decide), headerAt_probe _ _ _ _ (by omega) ether]
  rfl

structure SameFlow (inPort : Nat) (probe : Probe) (inPort' : Nat) (probe' : Probe) : Prop where
  inPort : inPort = inPort'
  ether : probe.ether = probe'.ether
  saddr : probe.saddr = probe'.saddr
  daddr : probe.daddr = probe'.daddr
  sport : probe.sport = probe'.sport
  dport : probe.dport = probe'.dport

theorem ether_eq (untagged : Untagged probe) :
    probe.ether = slice probe.ether 0 6 ++ (slice probe.ether 6 6 ++ [8, 0]) := by
  have length := untagged.length
  have type := untagged.type
  rw [slice, List.take_of_length_le (by rw [List.length_drop]; omega)] at type
  calc probe.ether = slice probe.ether 0 6 ++ probe.ether.drop 6 :=
    drop_eq_slice_append probe.ether 0 6
    _ = slice probe.ether 0 6 ++ (slice probe.ether 6 6 ++ probe.ether.drop 12) := by
      rw [← drop_eq_slice_append probe.ether 6 6]
    _ = slice probe.ether 0 6 ++ (slice probe.ether 6 6 ++ [8, 0]) := by rw [type]

theorem probeHeader_eq_iff {inPort' : Nat} {probe' : Probe} (fits : Fits probe)
    (fits' : Fits probe') (untagged : Untagged probe) (untagged' : Untagged probe')
    (small : inPort < 2 ^ 16) (small' : inPort' < 2 ^ 16) :
    probeHeader inPort probe = probeHeader inPort' probe' ↔
      SameFlow inPort probe inPort' probe' := by
  constructor
  · intro same
    simp only [probeHeader, Header.mk.injEq] at same
    obtain ⟨port, source, dest, -, -, -, -, -, saddr, daddr, sport, dport⟩ := same
    refine ⟨beBytes_inj small small' port, ?_, beBytes_inj fits.saddr fits'.saddr saddr,
      beBytes_inj fits.daddr fits'.daddr daddr, beBytes_inj fits.sport fits'.sport sport,
      beBytes_inj fits.dport fits'.dport dport⟩
    rw [ether_eq untagged, ether_eq untagged', source, dest]
  · rintro ⟨port, ether, saddr, daddr, sport, dport⟩
    rw [probeHeader, port, ether, saddr, daddr, sport, dport, probeHeader]

/-- The answer to a probe, as the switch reads it. -/
structure Reads (b : List UInt8) (bufferId inPort : Nat) (probe : Probe) : Prop where
  length : b.length = 80
  message : readFlowMod b =
    ⟨80, ruleOf (toNetwork (flowOf probe 0x0800 0xffff) (htons inPort)), ofpfcAdd, 120,
      Builder.actions (.flowAdd ofppInPort)⟩
  bufferId : slice b 64 4 = beBytes 4 bufferId
  rule : readRule b = ⟨0, probeHeader inPort probe⟩

theorem answer_reads (fits : Fits probe) (untagged : Untagged probe)
    (xid bufferId totalLen inPort : Nat) :
    ∃ b, answer (encodePacketIn xid bufferId totalLen inPort probe.encode)
      (flowOf probe 0x0800 0xffff) = some b ∧
      Reads b bufferId inPort probe := by
  have ether := untagged.length
  have size := packetIn_length xid bufferId totalLen inPort probe.encode
  have port : loadAt (encodePacketIn xid bufferId totalLen inPort probe.encode) inPortAt 2 =
      some (htons inPort) :=
    loadAt_eq (by rw [size, inPortAt]; omega) (packetIn_inPort ..)
  have id : readAt (encodePacketIn xid bufferId totalLen inPort probe.encode) bufferIdAt 4 =
      some (beBytes 4 bufferId) := by
    rw [readAt_inside (by rw [size, bufferIdAt]; omega), packetIn_bufferId]
  have sized : Sized (toNetwork (flowOf probe 0x0800 0xffff) (htons inPort)) :=
    fillFlow_sized (fillFlow_probe fits (by omega) untagged.fields) (swapBytes_lt 2 inPort)
  have timeout : 120 < 256 ^ 2 := by decide
  obtain ⟨made, built, length, reads⟩ := build_reads (.flowAdd ofppInPort) sized timeout
  have whole : made.length = 80 := length
  obtain ⟨pcp, tos⟩ := build_blank sized built
  have width := beBytes_length 4 bufferId
  have room : 64 + (beBytes 4 bufferId).length ≤ made.length := by omega
  have kept : ∀ {i width : Nat}, i + width ≤ 64 ∨ 68 ≤ i →
      slice (patch made 64 (beBytes 4 bufferId)) i width = slice made i width := by
    intro i width apart
    exact slice_patch_apart room (by omega)
  have actions : (patch made 64 (beBytes 4 bufferId)).drop 72 = made.drop 72 := by
    have last : slice (patch made 64 (beBytes 4 bufferId)) 72 8 = slice made 72 8 :=
      kept (.inr (by decide))
    rwa [slice, slice, List.take_of_length_le, List.take_of_length_le] at last
    · rw [List.length_drop]
      omega
    · rw [List.length_drop, patch_length room]
      omega
  have rule : readMatch (patch made 64 (beBytes 4 bufferId)) 8 =
      ruleOf (toNetwork (flowOf probe 0x0800 0xffff) (htons inPort)) := by
    refine Eq.trans ?_ (congrArg Message.rule reads)
    simp only [readFlowMod, readMatch, Nat.reduceAdd, Match.mk.injEq]
    refine ⟨?_, ?_, ?_, ?_, ?_, ?_, ?_, ?_, ?_, ?_, ?_⟩ <;> rw [kept (.inl (by decide))]
  refine ⟨patch made 64 (beBytes 4 bufferId), ?_, ?_, ?_, ?_, ?_⟩
  · rw [answer, port]
    simp only [Option.bind_eq_bind, Option.bind_some]
    rw [show makeOfpFlowAdd (toNetwork (flowOf probe 0x0800 0xffff) (htons inPort)) ofppInPort
      120 = _ from built]
    simp only [Option.bind_some, id]
    exact writeAt_inside room
  · rw [patch_length room, whole]
  · rw [readFlowMod, Message.mk.injEq] at reads
    rw [readFlowMod, rule, Message.mk.injEq, kept (.inl (by decide)), kept (.inl (by decide)),
      kept (.inl (by decide))]
    exact ⟨reads.1, rfl, reads.2.2.1, reads.2.2.2.1, actions.trans reads.2.2.2.2⟩
  · have read := slice_patch_self room
    rwa [width] at read
  · rw [readRule_eq (by rw [patch_length room]; omega) rule (by rw [kept (.inl (by decide)), pcp])
      (by rw [kept (.inl (by decide)), tos])]
    have network : ∀ n x, leBytes n (swapBytes n x) = beBytes n x := leBytes_swapBytes
    simp only [ruleOf, toNetwork, flowOf, probeHeader, htons, htonl, network]
    rfl

end

theorem ofEventPacketIn_probe {nf : Nat → List UInt8 → Int → Option PktgenHdr}
    {channels : List Channel} {inPort : Nat} {probe : Probe} (config : Config)
    (atPort : AtPort channels inPort probe) (xid bufferId : Nat) {totalLen : Nat}
    (long : 34 ≤ totalLen) (short : totalLen < 2 ^ 16) (fl : Flow) (now : Timeval) :
    ∃ b, Reads b bufferId inPort probe ∧ ∀ state, ofEventPacketIn nf channels config
        ⟨encodePacketIn xid bufferId totalLen inPort probe.encode, fl, now⟩ state =
      (storeFirst unset state.flowSend (flowId config.network (htonl probe.daddr))
        ⟨probe.tvSec, probe.tvUsec⟩).bind fun flowSend =>
        (storeFirst unset state.flowController (flowId config.network (htonl probe.daddr)) now).bind
          fun flowController => some ({ state with flowSend, flowController }, [.sent b]) := by
  have there : reported nf channels
      ⟨encodePacketIn xid bufferId totalLen inPort probe.encode, fl, now⟩ = _ :=
    reported_probe atPort xid bufferId long short fl now
  obtain ⟨-, extraction, flow, reply, extracted, filled, answered, handled⟩ :=
    ofEventPacketIn_reported config there
  rw [extractPacketIn_probe atPort xid bufferId long short] at extracted
  cases extracted
  cases filled
  obtain ⟨b, made, reads⟩ := answer_reads atPort.fits atPort.untagged xid bufferId totalLen inPort
  obtain rfl : b = reply := Option.some.inj (made.symm.trans answered)
  exact ⟨b, reads, handled⟩

section
variable {inPort inPort' : Nat} {probe probe' : Probe}

theorem takes_probe_iff (fits : Fits probe) (fits' : Fits probe') (untagged : Untagged probe)
    (untagged' : Untagged probe') (small : inPort < 2 ^ 16) (small' : inPort' < 2 ^ 16) :
    Takes ⟨0, probeHeader inPort probe⟩ (headerOf (beBytes 2 inPort') probe'.encode) ↔
      SameFlow inPort probe inPort' probe' := by
  rw [headerOf_probe untagged', takes_exact_iff rfl (by simp [probeHeader]) (by simp [probeHeader])]
  exact probeHeader_eq_iff fits fits' untagged untagged' small small'

end

def index (config : Config) (probe : Probe) : Nat :=
  (flowId config.network (htonl probe.daddr)).toNat

theorem index_flowId {config : Config} {probe : Probe} (fits : Fits probe)
    (among : probe.daddr ∈ config.targets) :
    flowId config.network (htonl probe.daddr) = index config probe ∧
      index config probe < config.flows := by
  have back : ntohl (htonl probe.daddr) = probe.daddr :=
    (swapBytes_swapBytes 4 probe.daddr).trans (Nat.mod_eq_of_lt fits.daddr)
  have range := (mem_targets_iff config (htonl probe.daddr)).mp (back.symm ▸ among)
  unfold index
  omega

/-- The module answers the packet-in of a probe of one of its flows with one message: it adds a rule
that sends frames back to where they come from, for the frame in the buffer of the packet-in as
well, and the rule takes a probe exactly if it is of the same flow. -/
theorem reactive_rule_takes_flow {nf : Nat → List UInt8 → Int → Option PktgenHdr}
    {channels : List Channel} {config : Config} {inPort : Nat} {probe : Probe}
    (atPort : AtPort channels inPort probe) (among : probe.daddr ∈ config.targets) {state : State}
    (sendLength : state.flowSend.length = config.flows)
    (controllerLength : state.flowController.length = config.flows) (xid bufferId : Nat)
    {totalLen : Nat} (long : 34 ≤ totalLen) (short : totalLen < 2 ^ 16) (fl : Flow)
    (now : Timeval) :
    ∃ next b, ofEventPacketIn nf channels config
        ⟨encodePacketIn xid bufferId totalLen inPort probe.encode, fl, now⟩ state =
          some (next, [.sent b]) ∧
      beValue (slice b 2 2) = b.length ∧ beValue (slice b 56 2) = ofpfcAdd ∧
      b.drop ofpFlowModSize = Builder.actions (.flowAdd ofppInPort) ∧
      slice b 64 4 = beBytes 4 bufferId ∧
      ∀ inPort' probe', inPort' < 2 ^ 16 → Fits probe' → Untagged probe' →
        (Takes (readRule b) (headerOf (beBytes 2 inPort') probe'.encode) ↔
          SameFlow inPort probe inPort' probe') := by
  obtain ⟨b, reads, handled⟩ := ofEventPacketIn_probe config atPort xid bufferId long short fl now
  obtain ⟨number, inside⟩ := index_flowId atPort.fits among
  obtain ⟨flowSend, stored, -⟩ := storeFirst_slots ⟨0, 0⟩ sendLength inside
    (⟨probe.tvSec, probe.tvUsec⟩ : Timeval)
  obtain ⟨flowController, stored', -⟩ := storeFirst_slots ⟨0, 0⟩ controllerLength inside now
  have message := reads.message
  rw [readFlowMod, Message.mk.injEq] at message
  refine ⟨{ state with flowSend, flowController }, b, ?_, ?_, message.2.2.1, message.2.2.2.2,
    reads.bufferId, ?_⟩
  · rw [handled, number, stored, Option.bind_some, stored', Option.bind_some]
  · rw [message.1, reads.length]
  · intro inPort' probe' small' fits' untagged'
    rw [reads.rule]
    exact takes_probe_iff atPort.fits fits' atPort.untagged untagged' atPort.small small'

def sampleProbe : Probe where
  ether := zeros 12 ++ [8, 0]
  totLen := 44
  saddr := 0x0a010101
  daddr := 0xc0a80200
  sport := 8080
  dport := 8080
  udpLen := 24
  seqNum := 0
  tvSec := 1400000001
  tvUsec := 0
  padding := 0

theorem sampleProbe_fits : Fits sampleProbe :=
  ⟨by decide, by decide, by decide, by decide, by decide, by decide, by decide⟩

theorem sampleProbe_among : sampleProbe.daddr ∈ oneFlow.targets := by decide +kernel

theorem reactive_rule_takes_flow_sample :
    ∃ next b, ofEventPacketIn (fun _ _ _ => none) pcapPorts oneFlow
        ⟨encodePacketIn 0 7 58 oflopsData1 sampleProbe.encode,
          ⟨0, 0, [], [], 0, 0, 0, 0, 0, 0, 0, 0⟩, ⟨1400000002, 0⟩⟩
        (init oneFlow) = some (next, [.sent b]) ∧
      Takes (readRule b) (headerOf (beBytes 2 oflopsData1) { sampleProbe with
        seqNum := 1 }.encode) ∧
      ¬Takes (readRule b) (headerOf (beBytes 2 oflopsData2) sampleProbe.encode) := by
  have atPort : AtPort pcapPorts oflopsData1 sampleProbe :=
    ⟨sampleProbe_fits, ⟨rfl, rfl⟩, by decide, _, rfl, rfl⟩
  have sends : (init oneFlow).flowSend.length = oneFlow.flows := List.length_replicate
  have controls : (init oneFlow).flowController.length = oneFlow.flows := List.length_replicate
  have long : 34 ≤ 58 := by decide
  obtain ⟨next, b, answered, -, -, -, -, takes⟩ :=
    reactive_rule_takes_flow atPort sampleProbe_among sends controls 0 7
    long (by decide) ⟨0, 0, [], [], 0, 0, 0, 0, 0, 0, 0, 0⟩ ⟨1400000002, 0⟩
  have next' : 1 < 2 ^ 32 := by decide
  refine ⟨next, b, answered, ?_, ?_⟩
  · exact (takes oflopsData1 { sampleProbe with seqNum := 1 } (by decide) { sampleProbe_fits with
      seqNum := next' }
      ⟨rfl, rfl⟩).mpr ⟨rfl, rfl, rfl, rfl, rfl, rfl⟩
  · intro other
    have same :=
      ((takes oflopsData2 sampleProbe (by decide) sampleProbe_fits ⟨rfl, rfl⟩).mp other).inPort
    cases same

end Oflops.Reactive.Answer
