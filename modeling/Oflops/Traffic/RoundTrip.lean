import Oflops.Traffic.Decode
import Oflops.Traffic.Flows

/-! Encoding and decoding together. Untagged probes come back as they were sent; of a VLAN tag
only the low eight bits get onto the wire and back. -/

namespace Oflops.Traffic.RoundTrip
open Lib.Bytes Lib.MachineInt Lib.Record Time Packet Wire UserLoop Flows Decode

def hexChar (n : Nat) : Char := Char.ofNat (if n < 10 then '0'.toNat + n else 'a'.toNat + (n - 10))

/-- The `%02x` rendering of an octet. -/
def hexOctet (octet : UInt8) : List Char := [hexChar (octet.toNat / 16), hexChar (octet.toNat % 16)]

/-- The rendering of an address as `%02x:%02x:…`. -/
def macString (octets : List UInt8) : List Char := [':'].intercalate (octets.map hexOctet)

theorem hexOctet_reads (octet : UInt8) :
    ':' ∉ hexOctet octet ∧ UInt8.ofNat (strtol16 (hexOctet octet) % 256).toNat = octet := by
  revert octet
  exact forall_byte (by decide +kernel)

theorem readMacAddr_macString {octets : List UInt8} (some : octets ≠ []) :
    (readMacAddr (macString octets)).1 = octets := by
  have separate : ∀ part ∈ octets.map hexOctet, ':' ∉ part := by
    intro part member
    obtain ⟨octet, -, rfl⟩ := List.mem_map.mp member
    exact (hexOctet_reads octet).1
  have parts : (macString octets).splitOn ':' = octets.map hexOctet :=
    List.splitOn_intercalate ':' separate (by simpa using some)
  have back : (fun octet => UInt8.ofNat (strtol16 (hexOctet octet) % 256).toNat) = id :=
    funext fun octet => (hexOctet_reads octet).2
  rw [readMacAddr, parts]
  change (octets.map hexOctet).map _ = octets
  rw [List.map_map]
  exact (congrArg (List.map · octets) back).trans octets.map_id

theorem slice_macDst {det : TrafGenDet} (wellFormed : WellFormed det) :
    slice (etherHeader det) 0 6 = macField (readMacAddr det.macDst).1 := by
  have whole := (macField_length wellFormed.macDst).symm
  change (etherHeader det).take 6 = _
  rw [etherHeader, whole, List.take_left]

theorem slice_macSrc {det : TrafGenDet} (wellFormed : WellFormed det) :
    slice (etherHeader det) 6 6 = macField (readMacAddr det.macSrc).1 := by
  have whole := (macField_length wellFormed.macSrc).symm
  have found : slice (etherHeader det) (6 + 0) 6 =
      slice (macField (readMacAddr det.macSrc).1) 0 6 :=
    slice_part (macField_length wellFormed.macDst) whole.le
  refine found.trans ?_
  rw [slice, List.drop_zero, whole, List.take_length]

theorem slice_etherType {det : TrafGenDet} (wellFormed : WellFormed det) {probe : Probe}
    (ether : probe.ether = etherHeader det) {i width : Nat}
    (inside : i + width ≤ (etherType det).length) :
    slice probe.encode (12 + i) width = slice (etherType det) i width := by
  have macs :
      (macField (readMacAddr det.macDst).1 ++ macField (readMacAddr det.macSrc).1).length = 12 := by
    rw [List.length_append, macField_length wellFormed.macDst, macField_length wellFormed.macSrc]
  have parts : etherHeader det = (macField (readMacAddr det.macDst).1 ++
      macField (readMacAddr det.macSrc).1) ++ (etherType det ++ []) := by
    rw [etherHeader, List.append_nil, List.append_assoc]
  have room : 12 + i + width ≤ probe.ether.length := by
    rw [ether, parts, List.length_append, macs, List.append_nil]
    omega
  rw [slice_ether probe room, ether, parts]
  exact slice_part macs inside

/-- What the host loads from the tag: the low four bits of the high byte are lost. -/
theorem leValue_tci (det : TrafGenDet) :
    leValue (tci det) = 16 * (det.vlan.toNat / 4096) + 256 * (det.vlan.toNat % 256) := by
  have small := det.vlan.toNat_lt
  rw [tci, leValue_leBytes, htons, swapBytes_two]
  have high : det.vlan.toNat / 256 % 256 =
      16 * (det.vlan.toNat / 4096) + det.vlan.toNat / 256 % 16 := by
    omega
  have low := Nat.mod_lt det.vlan.toNat (show 0 < 256 by decide)
  have top : det.vlan.toNat / 4096 < 16 := by omega
  have shifted : (16 * (det.vlan.toNat / 4096) + det.vlan.toNat / 256 % 16 +
      256 * (det.vlan.toNat % 256)) / 2 ^ 4 = det.vlan.toNat / 4096 + 16 *
        (det.vlan.toNat % 256) := by
    omega
  rw [high, shifted]
  omega

theorem swapBytes_tag {high low : Nat} (highFits : high < 16) (lowFits : low < 256) :
    swapBytes 2 (16 * high + 256 * low) % 2 ^ 12 = low := by
  have first : (16 * high + 256 * low) / 256 = low := by omega
  have second : (16 * high + 256 * low) % 256 = 16 * high := by omega
  rw [swapBytes_two, first, second]
  omega

theorem vid_on_wire (det : TrafGenDet) : beValue (tci det) % 2 ^ 12 = det.vlan.toNat % 256 := by
  have small := det.vlan.toNat_lt
  have swapped : beValue (tci det) = swapBytes 2 (leValue (tci det)) := (swapBytes_leValue _).symm
  rw [swapped, leValue_tci]
  exact swapBytes_tag (by omega) (Nat.mod_lt _ (by decide))

theorem vid_read_back (det : TrafGenDet) :
    ntohs (leValue (tci det) / 2 ^ 4 * 2 ^ 4) % 2 ^ 12 = det.vlan.toNat % 256 := by
  have small := det.vlan.toNat_lt
  have whole : leValue (tci det) / 2 ^ 4 * 2 ^ 4 = leValue (tci det) := by
    rw [leValue_tci]
    omega
  rw [whole, ntohs, leValue_tci]
  exact swapBytes_tag (by omega) (Nat.mod_lt _ (by decide))

/-- The VLAN that a decoded flow shows. -/
def shownVlan (det : TrafGenDet) : Nat := if isTagged det then det.vlan.toNat % 256 else 0xffff

theorem locate_fields {det : TrafGenDet} (wellFormed : WellFormed det) (probe : Probe)
    (ether : probe.ether = etherHeader det) :
    locateIp probe.encode = some (some probe.ether.length) ∧
      etherFields probe.encode = some (0x0800, shownVlan det) := by
  have size : probe.ether.length = headerSize det := by rw [ether, etherHeader_length wellFormed]
  have total := probe.encode_length
  have load : ∀ i field, slice (etherType det) i 2 = field → i + 2 ≤ (etherType det).length →
      loadAt probe.encode (12 + i) 2 = some (leValue field) := by
    intro i field content inside
    have type := etherType_length det
    refine loadAt_eq (by omega) ?_
    rw [slice_etherType wellFormed ether inside, content]
  unfold locateIp etherFields shownVlan
  by_cases tagged : isTagged det
  · have type : etherType det = [0x81, 0] ++ tci det ++ [0x08, 0] := if_pos tagged
    have outer := load 0 [0x81, 0] (by rw [type]; rfl) (by rw [type]; simp [tci])
    have unit := load 2 (tci det) (by rw [type]; rfl) (by rw [type]; simp [tci])
    have inner := load 4 [0x08, 0] (by rw [type]; rfl) (by rw [type]; simp [tci])
    have eight : ntohs (leValue [0x81, 0]) = 0x8100 := rfl
    have ip : ntohs (leValue [0x08, 0]) = 0x0800 := rfl
    simp only [Nat.add_zero, Nat.reduceAdd] at outer unit inner
    simp only [outer, unit, inner, Option.bind_eq_bind, Option.bind_some, eight, ip, if_true,
      vid_read_back, tagged, size, headerSize, etherVlanHeaderSize, and_self]
  · have type : etherType det = [0x08, 0] := if_neg tagged
    have outer := load 0 [0x08, 0] (by rw [type]; rfl) (by rw [type]; simp)
    have ip : ntohs (leValue [0x08, 0]) = 0x0800 := rfl
    simp only [Nat.add_zero] at outer
    simp [outer, ip, tagged, size, headerSize, etherHeaderSize]

/-- The packet that a generator sends at `now`, after a history of others. -/
def packetAfter (state : PktDetails) (det : TrafGenDet) (history : List Timeval) (now : Timeval) :
    Option (List UInt8) := do
  let (_, fresh, _) ← innitializeGeneratorPacket state det
  let (_, state) ← sendAll det.delay fresh history
  let (frame, _) ← sendPkt state det.delay now
  some frame

def destAfter (det : TrafGenDet) (k : Nat) : Nat :=
  (nextFlow (lowFlow det) (highFlow det))^[k] (lowFlow det)

def numbered (det : TrafGenDet) (seqNum sec usec : UInt32) (daddr : Nat) : Probe :=
  { firstProbe det with seqNum := seqNum.toNat, tvSec := sec.toNat, tvUsec := usec.toNat, daddr }

theorem sendAll_carries {state : PktDetails} {probe : Probe} {low high : Nat}
    (carries : Carries state probe low high) (wait : UInt32) (history : List Timeval) :
    ∃ frames after seqNum tvSec tvUsec, sendAll wait state history = some (frames, after) ∧
      Carries after { probe with
        seqNum, tvSec, tvUsec, daddr := (nextFlow low high)^[history.length] probe.daddr }
        low high ∧
      after.seqNum = state.seqNum + UInt32.ofNat history.length := by
  induction history generalizing state probe with
  | nil => exact ⟨[], state, _, _, _, rfl, carries, by simp⟩
  | cons now history ih =>
    obtain ⟨next, sent, carries', number, -, -⟩ := sendPkt_probe carries wait now
    obtain ⟨frames, after, seqNum, tvSec, tvUsec, rest, last, number'⟩ := ih carries'
    refine ⟨(sentProbe probe state.seqNum now low high).encode :: frames, after, seqNum, tvSec,
      tvUsec, ?_, ?_, ?_⟩
    · simp only [sendAll, sent, rest, Option.bind_eq_bind, Option.bind_some]
    · rw [List.length_cons, Function.iterate_succ_apply]
      exact last
    · rw [number', number, List.length_cons, UInt32.ofNat_add, UInt32.add_assoc, UInt32.add_comm 1]
      rfl

theorem packetAfter_eq {det : TrafGenDet} (buildable : Buildable det) (state : PktDetails)
    (history : List Timeval) (sec usec : UInt32) :
    packetAfter state det history ⟨sec.toNat, usec.toNat⟩ =
        some (numbered det (state.seqNum + UInt32.ofNat history.length) sec usec
          (destAfter det (history.length + 1))).encode ∧
      destAfter det (history.length + 1) < 2 ^ 32 := by
  obtain ⟨fresh, det', built, carries, number, -⟩ := fresh_carries state buildable
  obtain ⟨frames, next, seqNum, tvSec, tvUsec, ran, carries', number'⟩ :=
    sendAll_carries carries det.delay history
  obtain ⟨after, sent, final, -, -, -⟩ := sendPkt_probe carries' det.delay ⟨sec.toNat, usec.toNat⟩
  have secFits : ((sec.toNat : Int) % 2 ^ 32).toNat = sec.toNat := by
    have bound := sec.toNat_lt
    omega
  have usecFits : ((usec.toNat : Int) % 2 ^ 32).toNat = usec.toNat := by
    have bound := usec.toNat_lt
    omega
  have dest : destAfter det (history.length + 1) = nextFlow (lowFlow det) (highFlow det)
      ((nextFlow (lowFlow det) (highFlow det))^[history.length] (lowFlow det)) :=
    Function.iterate_succ_apply' _ _ _
  refine ⟨?_, ?_⟩
  · simp only [packetAfter, built, ran, sent, Option.bind_eq_bind, Option.bind_some]
    rw [sentProbe, numbered, secFits, usecFits, number', number, dest]
    rfl
  · rw [dest]
    exact final.daddrFits

theorem numbered_fits (det : TrafGenDet) (seqNum sec usec : UInt32) {daddr : Nat}
    (fits : daddr < 2 ^ 32) : Fits (numbered det seqNum sec usec daddr) where
  saddr := ntohl_lt _
  daddr := fits
  sport := det.udpSrcPort.toNat_lt
  dport := det.udpDstPort.toNat_lt
  seqNum := seqNum.toNat_lt
  tvSec := sec.toNat_lt
  tvUsec := usec.toNat_lt

/-- The decoder's result holds what was encoded: the numbers in host order behind the returned
pointer, and the addresses, ports and VLAN in the flow. -/
structure Decoded (det : TrafGenDet) (dst src : List UInt8) (vlan : Nat) (seqNum sec usec : UInt32)
    (daddr : Nat) (extraction : Extraction) : Prop where
  header : ∃ offset, extraction.header = some (.inPlace offset) ∧
    pktgenAt extraction.b offset = ⟨htonl 0xbe9be955, seqNum.toNat, sec.toNat, usec.toNat⟩
  flow : extraction.fl = some
    { mask := 0, inPort := 0, dlSrc := src, dlDst := dst, dlVlan := vlan, dlType := 0x0800
      nwSrc := inetAddr det.srcIp, nwDst := htonl daddr, nwProto := 17
      tpSrc := det.udpSrcPort.toNat, tpDst := det.udpDstPort.toNat, reserved := 0 }

/-- Every libpcap channel decodes the frame so. -/
def Decodes (det : TrafGenDet) (dst src : List UInt8) (vlan : Nat) (seqNum sec usec : UInt32)
    (daddr : Nat) (frame : List UInt8) : Prop :=
  ∀ (nf : Nat → List UInt8 → Int → Option PktgenHdr) (channels : List Channel) (port : Nat)
    (channel : Channel) (fl : Flow), channels[port]? = some channel → channel.capType = .pcap →
    ∃ extraction,
      extractPktgenPkt nf channels port frame det.pktSize.toNat (some fl) = some extraction ∧
        Decoded det dst src vlan seqNum sec usec daddr extraction

theorem numbered_length {det : TrafGenDet} (buildable : Buildable det) (seqNum sec usec : UInt32)
    (daddr : Nat) : (numbered det seqNum sec usec daddr).encode.length = det.pktSize.toNat := by
  have room := buildable.room
  rw [Probe.encode_length]
  change (etherHeader det).length + 44 + (det.pktSize.toNat - headerSize det - 44) = _
  rw [etherHeader_length buildable.wellFormed]
  omega

/-- Decoding undoes encoding, up to the VLAN. -/
theorem numbered_decodes {det : TrafGenDet} (buildable : Buildable det) (seqNum sec usec : UInt32)
    {daddr : Nat} (fits : daddr < 2 ^ 32) :
    Decodes det (macField (readMacAddr det.macDst).1) (macField (readMacAddr det.macSrc).1)
      (shownVlan det) seqNum sec usec daddr (numbered det seqNum sec usec daddr).encode := by
  intro nf channels port channel fl known pcap
  have wellFormed := buildable.wellFormed
  set probe := numbered det seqNum sec usec daddr
  have small : Fits probe := numbered_fits det seqNum sec usec fits
  have size : probe.ether.length = headerSize det := etherHeader_length wellFormed
  have least := le_headerSize det
  obtain ⟨located, fields⟩ := locate_fields wellFormed probe rfl
  have extracted := extract_probe nf known pcap small (by omega) located fields fl
  rw [numbered_length buildable seqNum sec usec daddr] at extracted
  refine ⟨_, extracted, ⟨_, rfl, pktgenAt_converted small⟩, ?_⟩
  have source : htonl probe.saddr = inetAddr det.srcIp :=
    (swapBytes_swapBytes 4 _).trans (Nat.mod_eq_of_lt (inetAddr_lt _))
  have dst : slice probe.ether 0 6 = macField (readMacAddr det.macDst).1 := slice_macDst wellFormed
  have src : slice probe.ether 6 6 = macField (readMacAddr det.macSrc).1 := slice_macSrc wellFormed
  change some (flowOf probe 0x0800 (shownVlan det)) = _
  rw [flowOf, source, dst, src]
  rfl

theorem macString_wellFormed (det : TrafGenDet) {dst src : List UInt8} (dstSize : dst.length = 6)
    (srcSize : src.length = 6) (macDst : det.macDst = macString dst)
    (macSrc : det.macSrc = macString src) :
    WellFormed det ∧ macField (readMacAddr det.macDst).1 = dst ∧
      macField (readMacAddr det.macSrc).1 = src := by
  have full : ∀ {octets : List UInt8}, octets.length = 6 → macField octets = octets := by
    intro octets size
    rw [macField, size]
    exact octets.append_nil
  have back : ∀ {octets : List UInt8}, octets.length = 6 →
      (readMacAddr (macString octets)).1 = octets := by
    intro octets size
    exact readMacAddr_macString (List.ne_nil_of_length_pos (by omega))
  rw [macDst, macSrc, back dstSize, back srcSize]
  refine ⟨⟨?_, ?_⟩, full dstSize, full srcSize⟩
  · rw [macDst, back dstSize, dstSize]
  · rw [macSrc, back srcSize, srcSize]

/-- What is encoded without a tag is decoded. The decoder takes the size of a frame as an `int`. -/
theorem untagged_packets_decode {det : TrafGenDet} (untagged : det.vlan = 0 ∨ det.vlan = 0xffff)
    (large : 58 ≤ det.pktSize.toNat) (isInt : det.pktSize.toNat < 2 ^ 31) {dst src : List UInt8}
    (dstSize : dst.length = 6) (srcSize : src.length = 6) (macDst : det.macDst = macString dst)
    (macSrc : det.macSrc = macString src) (state : PktDetails) (history : List Timeval)
    (sec usec : UInt32) :
    ∃ frame, packetAfter state det history ⟨sec.toNat, usec.toNat⟩ = some frame ∧
      frame.length = det.pktSize.toNat ∧
      field frame 30 4 = destAfter det (history.length + 1) ∧
      Decodes det dst src 0xffff (state.seqNum + UInt32.ofNat history.length) sec usec
        (destAfter det (history.length + 1)) frame := by
  obtain ⟨wellFormed, dstField, srcField⟩ := macString_wellFormed det dstSize srcSize macDst macSrc
  have plain : ¬isTagged det := by
    rcases untagged with none | all
    · simp [isTagged, none]
    · simp [isTagged, all]
  have header : headerSize det = 14 := if_neg plain
  have buildable : Buildable det := ⟨wellFormed, isInt, large, by omega⟩
  have vlan : shownVlan det = 0xffff := if_neg plain
  obtain ⟨sent, fits⟩ := packetAfter_eq buildable state history sec usec
  set daddr := destAfter det (history.length + 1)
  set seqNum := state.seqNum + UInt32.ofNat history.length
  refine ⟨_, sent, numbered_length buildable seqNum sec usec daddr, ?_, ?_⟩
  · have place : (numbered det seqNum sec usec daddr).ether.length = 14 :=
      (etherHeader_length wellFormed).trans header
    have dest := (numbered det seqNum sec usec daddr).encode_daddr
    rw [place] at dest
    rw [field, dest]
    exact beValue_beBytes_of_lt fits
  · have decodes := numbered_decodes buildable seqNum sec usec fits
    rwa [dstField, srcField, vlan] at decodes

theorem untagged_packets_decode_second :
    let det : TrafGenDet :=
      { srcIp := ['1', '0', '.', '1'], dstIpMax := ['1', '0', '.', '4'],
        dstIpMin := ['1', '0', '.', '2'], macDst := macString [0, 21, 23, 0xab, 5, 6],
        macSrc := macString [0, 30, 0x68, 0x9a, 0xc6, 0xff],
        udpSrcPort := 8080, udpDstPort := 53, pktSize := 58, vlan := 0xffff, delay := 1000 }
    ∃ frame, packetAfter (blank 0 ⟨0, 0⟩) det [⟨5, 7⟩] ⟨(5 : UInt32).toNat,
      (8 : UInt32).toNat⟩ = some frame ∧
      frame.length = 58 ∧ field frame 30 4 = 10 * 2 ^ 24 + 4 ∧
      Decodes det [0, 21, 23, 0xab, 5, 6] [0, 30, 0x68, 0x9a, 0xc6, 0xff] 0xffff 1 5 8
        (10 * 2 ^ 24 + 4) frame :=
  untagged_packets_decode (.inr rfl) (by decide) (by decide) rfl rfl rfl rfl
    (blank 0 ⟨0, 0⟩) [⟨5, 7⟩] 5 8

/-- A generator's frames carry its VLAN, and so do the flows that they are decoded to. -/
def TagSurvives (det : TrafGenDet) : Prop :=
  ∀ (state : PktDetails) (history : List Timeval) (sec usec : UInt32),
    ∃ frame, packetAfter state det history ⟨sec.toNat, usec.toNat⟩ = some frame ∧
      slice frame 12 2 = [0x81, 0] ∧ field frame 14 2 % 2 ^ 12 = det.vlan.toNat ∧
      Decodes det (macField (readMacAddr det.macDst).1) (macField (readMacAddr det.macSrc).1)
        det.vlan.toNat (state.seqNum + UInt32.ofNat history.length) sec usec
        (destAfter det (history.length + 1)) frame

/-- The length of the packet is an `int`, and `memset` gets it as a huge number. -/
theorem innitialize_oversized {det : TrafGenDet} (oversized : 2 ^ 31 ≤ det.pktSize.toNat)
    (state : PktDetails) : innitializeGeneratorPacket state det = none := by
  have bound := det.pktSize.toNat_lt
  have negative : int32 det.pktSize.toNat < 0 := int32_neg (by omega) (by omega)
  unfold innitializeGeneratorPacket
  dsimp only
  rw [if_pos negative]

theorem packetAfter_oversized {det : TrafGenDet} (oversized : 2 ^ 31 ≤ det.pktSize.toNat)
    (state : PktDetails) (history : List Timeval) (now : Timeval) :
    packetAfter state det history now = none := by
  rw [packetAfter, innitialize_oversized oversized]
  rfl

section Tagged

variable {det : TrafGenDet} (wellFormed : WellFormed det) (tagged : isTagged det)
include wellFormed tagged

theorem slice_tag (probe : Probe) (ether : probe.ether = etherHeader det) :
    slice probe.encode 12 2 = [0x81, 0] ∧ slice probe.encode 14 2 = tci det := by
  have type : etherType det = [0x81, 0] ++ tci det ++ [0x08, 0] := if_pos tagged
  have length : (etherType det).length = 6 := by
    rw [type]
    simp [tci]
  have outer : slice probe.encode 12 2 = slice (etherType det) 0 2 :=
    slice_etherType wellFormed ether (i := 0) (by omega)
  have unit : slice probe.encode 14 2 = slice (etherType det) 2 2 :=
    slice_etherType wellFormed ether (i := 2) (by omega)
  rw [outer, unit, type]
  exact ⟨rfl, rfl⟩

theorem packetAfter_tagged (small : det.pktSize.toNat < 2 ^ 31) (large : 62 ≤ det.pktSize.toNat)
    (state : PktDetails) (history : List Timeval) (sec usec : UInt32) :
    ∃ frame, packetAfter state det history ⟨sec.toNat, usec.toNat⟩ = some frame ∧
      slice frame 12 2 = [0x81, 0] ∧ field frame 14 2 % 2 ^ 12 = det.vlan.toNat % 256 ∧
      Decodes det (macField (readMacAddr det.macDst).1) (macField (readMacAddr det.macSrc).1)
        (det.vlan.toNat % 256) (state.seqNum + UInt32.ofNat history.length) sec usec
        (destAfter det (history.length + 1)) frame := by
  have header : headerSize det = 18 := if_pos tagged
  have buildable : Buildable det := ⟨wellFormed, small, by omega, by omega⟩
  have vlan : shownVlan det = det.vlan.toNat % 256 := if_pos tagged
  obtain ⟨sent, fits⟩ := packetAfter_eq buildable state history sec usec
  set seqNum := state.seqNum + UInt32.ofNat history.length
  set daddr := destAfter det (history.length + 1)
  obtain ⟨tpid, unit⟩ := slice_tag wellFormed tagged (numbered det seqNum sec usec daddr) rfl
  have decodes := numbered_decodes buildable seqNum sec usec fits
  rw [vlan] at decodes
  refine ⟨_, sent, tpid, ?_, decodes⟩
  rw [field, unit]
  exact vid_on_wire det

end Tagged

theorem TagSurvives.wellFormed {det : TrafGenDet} (survives : TagSurvives det) :
    WellFormed det := by
  obtain ⟨frame, -, -, -, decodes⟩ := survives (blank 0 ⟨0, 0⟩) [] 0 0
  obtain ⟨extraction, extracted, decoded⟩ :=
    decodes (fun _ _ _ => none) [⟨none, .pcap⟩] 0 _ ⟨0, 0, zeros 6, zeros 6, 0, 0, 0, 0, 0,
      0, 0, 0⟩ rfl rfl
  obtain ⟨src, dst⟩ := extract_macs extracted rfl rfl decoded.flow
  have short {octets : List UInt8} (field : (macField octets).length = 6) : octets.length ≤ 6 := by
    rw [macField, List.length_append] at field
    omega
  exact ⟨short dst, short src⟩

/-- Tags survive exactly when the address strings spell at most six octets each (the ninth of a
longer source address reaches the tag), the packet's size is an `int`, and the VLAN fits in a byte:
the shift of the swapped VLAN drops its high four bits. -/
theorem tagSurvives_iff {det : TrafGenDet} (low : 1 ≤ det.vlan.toNat) (high : det.vlan.toNat ≤ 4094)
    (large : 62 ≤ det.pktSize.toNat) :
    TagSurvives det ↔
      WellFormed det ∧ det.vlan.toNat < 256 ∧ det.pktSize.toNat < 2 ^ 31 := by
  have tagged : isTagged det := by
    refine decide_eq_true ⟨?_, ?_⟩
    · rintro none
      rw [none] at low
      exact absurd low (by decide)
    · rintro all
      rw [all] at high
      exact absurd high (by decide)
  constructor
  · intro survives
    have wellFormed := survives.wellFormed
    obtain ⟨frame, sent, -, vid, -⟩ := survives (blank 0 ⟨0, 0⟩) [] 0 0
    have small : det.pktSize.toNat < 2 ^ 31 := by
      by_contra oversized
      rw [packetAfter_oversized (by omega)] at sent
      cases sent
    obtain ⟨frame', sent', -, vid', -⟩ :=
      packetAfter_tagged wellFormed tagged small large (blank 0 ⟨0, 0⟩) [] 0 0
    cases sent.symm.trans sent'
    refine ⟨wellFormed, ?_, small⟩
    omega
  · rintro ⟨wellFormed, fits, small⟩ state history sec usec
    obtain ⟨frame, sent, tpid, vid, decodes⟩ :=
      packetAfter_tagged wellFormed tagged small large state history sec usec
    rw [Nat.mod_eq_of_lt fits] at vid decodes
    exact ⟨frame, sent, tpid, vid, decodes⟩

theorem tagSurvives_iff_low_vlan :
    let det : TrafGenDet :=
      { srcIp := ['1', '0', '.', '1'], dstIpMax := ['1', '0', '.', '4'],
        dstIpMin := ['1', '0', '.', '2'], macDst := macString [0, 21, 23, 0xab, 5, 6],
        macSrc := macString [0, 30, 0x68, 0x9a, 0xc6, 0xff],
        udpSrcPort := 8080, udpDstPort := 53, pktSize := 62, vlan := 5, delay := 1000 }
    TagSurvives det := by
  intro det
  have wellFormed : WellFormed det := (macString_wellFormed det rfl rfl rfl rfl).1
  exact (tagSurvives_iff (by decide) (by decide) (by decide)).mpr ⟨wellFormed, by decide, by decide⟩

/-- VLAN 256 goes onto the wire, and comes back, as VLAN 0. -/
theorem vlan_256_is_lost :
    let det : TrafGenDet :=
      { srcIp := ['1', '0', '.', '1'], dstIpMax := ['1', '0', '.', '4'],
        dstIpMin := ['1', '0', '.', '2'], macDst := macString [0, 21, 23, 0xab, 5, 6],
        macSrc := macString [0, 30, 0x68, 0x9a, 0xc6, 0xff],
        udpSrcPort := 8080, udpDstPort := 53, pktSize := 64, vlan := 256, delay := 1000 }
    ¬TagSurvives det ∧ ∃ frame,
      packetAfter (blank 0 ⟨0, 0⟩) det [] ⟨(5 : UInt32).toNat, (8 : UInt32).toNat⟩ = some frame ∧
        field frame 14 2 % 2 ^ 12 = 0 ∧
        Decodes det [0, 21, 23, 0xab, 5, 6] [0, 30, 0x68, 0x9a, 0xc6, 0xff] 0 0 5 8
        (10 * 2 ^ 24 + 3) frame := by
  intro det
  obtain ⟨wellFormed, dst, src⟩ := macString_wellFormed det rfl rfl rfl rfl
  obtain ⟨frame, sent, -, vid, decodes⟩ :=
    packetAfter_tagged wellFormed rfl (by decide) (by decide) (blank 0 ⟨0, 0⟩) [] 5 8
  have zero : det.vlan.toNat % 256 = 0 := by decide
  rw [zero] at vid
  have dest : destAfter det 1 = 10 * 2 ^ 24 + 3 := by decide
  change Decodes _ _ _ _ 0 5 8 (destAfter det 1) frame at decodes
  rw [dst, src, zero, dest] at decodes
  refine ⟨?_, frame, sent, vid, decodes⟩
  intro survives
  obtain ⟨frame', sent', -, vid', -⟩ := survives (blank 0 ⟨0, 0⟩) [] 5 8
  cases sent.symm.trans sent'
  exact absurd (vid.symm.trans vid') (by decide)

end Oflops.Traffic.RoundTrip
