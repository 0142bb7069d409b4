import Oflops.Traffic.Decode

/-! The packet-in module (`openflow_packet_in`): `process_packet_in` and the counters that
`destroy` reports. What rofl unpacks from a message is given: the frame, the cookie and the
buffer. -/

namespace Oflops.PacketIn.Module
open Lib.Bytes Lib.MachineInt Lib.Record Time Traffic.Wire Traffic.Decode Traffic.UserLoop

def matchCookie : Nat := 0xDEADBEEF

def openflow13 : Nat := 4

/-- What is read of an unpacked packet-in; the length of the packet is that of its frame. -/
structure CofmsgPacketIn where
  packet : List UInt8
  cookie : Nat
  bufferId : Nat

structure Entry where
  snd : Timeval
  rcv : Timeval
  id : Int
  deriving DecidableEq

structure CsvLine where
  snd : Timeval
  rcv : Timeval
  seqNum : UInt32
  bufferId : Nat
  deriving DecidableEq

/-- The static variables; `csvOutput` is there if the file is open. `F` stands for `long double`. -/
structure State (F : Type) where
  pktInCount : UInt32
  pktInCookieCount : UInt32
  firstSeq : UInt32
  lastSeq : UInt32
  calculatedMean : F
  csvOutput : Option (List CsvLine)
  head : List Entry

def start {F : Type} (zero : F) (csvOutput : Option (List CsvLine)) : State F where
  pktInCount := 0
  pktInCookieCount := 0
  firstSeq := -1
  lastSeq := 0
  calculatedMean := zero
  csvOutput := csvOutput
  head := []

section
variable {F : Type} (mean : F → Int → UInt32 → F)

/-- What is done for a probe; `mean` is the running mean in floating point arithmetic. -/
def record (ofVersion : Nat) (pktin : CofmsgPacketIn) (now : Timeval) (pktgen : PktgenHdr)
    (state : State F) : State F :=
  let seqNum := UInt32.ofNat pktgen.seqNum
  let then_ : Timeval := ⟨pktgen.tvSec, pktgen.tvUsec⟩
  let pktInCount := state.pktInCount + 1
  { pktInCount := pktInCount
    pktInCookieCount :=
      if ofVersion ≥ openflow13 ∧ pktin.cookie = matchCookie then state.pktInCookieCount + 1
      else state.pktInCookieCount
    firstSeq := if state.firstSeq = -1 then seqNum else state.firstSeq
    lastSeq := if state.lastSeq < seqNum then seqNum else state.lastSeq
    calculatedMean := mean state.calculatedMean (timeDiff then_ now) pktInCount
    csvOutput := state.csvOutput.map (· ++ [⟨then_, now, seqNum, pktin.bufferId⟩])
    head :=
      match state.csvOutput with
      | some _ => state.head
      | none => state.head ++ [⟨then_, now, int32 pktgen.seqNum⟩] }

variable (nf : Nat → List UInt8 → Int → Option PktgenHdr) (channels : List Channel)

/-- `fl` is not initialised, and read even if nothing was extracted. -/
def processPacketIn (ofVersion : Nat) (pktin : CofmsgPacketIn) (fl : Flow) (now : Timeval)
    (state : State F) : Option (State F) := do
  let extraction ← extractPktgenPkt nf channels oflopsData1 pktin.packet
    (ntohs pktin.packet.length) (some fl)
  let fl ← extraction.fl
  if fl.tpSrc ≠ 8080 then some state
  else
    match pktgenOf extraction with
    | none => some state
    | some pktgen => some (record mean ofVersion pktin now pktgen state)

end

/-- The probe is counted, and its own header goes into the sequence numbers and the delays. -/
structure Counted {F : Type} (probe : Probe) (pktin : CofmsgPacketIn) (now : Timeval)
    (state after : State F) : Prop where
  pktInCount : after.pktInCount = state.pktInCount + 1
  firstSeq : after.firstSeq =
    if state.firstSeq = -1 then UInt32.ofNat probe.seqNum else state.firstSeq
  lastSeq : after.lastSeq.toNat = max state.lastSeq.toNat probe.seqNum
  head : state.csvOutput = none →
    after.head = state.head ++ [⟨⟨probe.tvSec, probe.tvUsec⟩, now, int32 probe.seqNum⟩]
  csvOutput : after.csvOutput = state.csvOutput.map
    (· ++ [⟨⟨probe.tvSec, probe.tvUsec⟩, now, UInt32.ofNat probe.seqNum, pktin.bufferId⟩])

/-- The frame's length reaches the parser with its bytes swapped: it is too short for an IP
header exactly if the low byte is zero. -/
theorem swapped_length_lt {n : Nat} (lower : 58 ≤ n) (upper : n ≤ 1500) :
    ntohs n < 34 ↔ n % 256 = 0 := by
  rw [ntohs, swapBytes_two]
  omega

section
variable {F : Type} {mean : F → Int → UInt32 → F} {nf : Nat → List UInt8 → Int → Option PktgenHdr}
  {channels : List Channel} {ofVersion : Nat} {pktin : CofmsgPacketIn} {probe : Probe}

theorem process_probe_long {channel : Channel} (known : channels[oflopsData1]? = some channel)
    (pcap : channel.capType = .pcap) (fits : Fits probe) (untagged : Untagged probe)
    (source : probe.sport = 8080) (frame : pktin.packet = probe.encode)
    (long : 34 ≤ ntohs pktin.packet.length) (fl : Flow) (now : Timeval) (state : State F) :
    processPacketIn mean nf channels ofVersion pktin fl now state =
      some (record mean ofVersion pktin now
        ⟨htonl 0xbe9be955, probe.seqNum, probe.tvSec, probe.tvUsec⟩ state) := by
  have ether := untagged.length
  have extracted := extract_probe_long nf known pcap fits (by omega) untagged.located
    untagged.fields fl (ntohs pktin.packet.length) (by omega)
  have found := pktgenAt_converted fits
  simp only [processPacketIn, frame] at extracted ⊢
  rw [extracted]
  simp [flowOf, source, pktgenOf, found]

theorem process_probe_short (known : oflopsData1 < channels.length) (untagged : Untagged probe)
    (frame : pktin.packet = probe.encode) (short : ntohs pktin.packet.length < 34) (fl : Flow)
    (now : Timeval) (state : State F) :
    processPacketIn mean nf channels ofVersion pktin fl now state = some state := by
  have ether := untagged.length
  have extracted := extract_probe_short nf known untagged.located (some fl)
    (ntohs pktin.packet.length) (by omega)
  simp only [processPacketIn, frame] at extracted ⊢
  rw [extracted]
  simp [pktgenOf]

theorem record_counted (fits : Fits probe) (now : Timeval) (state : State F) {magic : Nat} :
    Counted probe pktin now state
      (record mean ofVersion pktin now ⟨magic, probe.seqNum, probe.tvSec, probe.tvUsec⟩ state) where
  pktInCount := rfl
  firstSeq := rfl
  lastSeq := by
    have seqNum : (UInt32.ofNat probe.seqNum).toNat = probe.seqNum :=
      UInt32.toNat_ofNat_of_lt' fits.seqNum
    simp only [record]
    split_ifs with later
    · rw [UInt32.lt_iff_toNat_lt, seqNum] at later
      omega
    · rw [UInt32.lt_iff_toNat_lt, seqNum] at later
      omega
  head := by
    intro closed
    simp only [record, closed]
  csvOutput := rfl

end

/-- A probe is counted exactly if the low byte of its length is not zero. -/
theorem probe_counted_iff {F : Type} (mean : F → Int → UInt32 → F)
    (nf : Nat → List UInt8 → Int → Option PktgenHdr) (channels : List Channel) (channel : Channel)
    (known : channels[oflopsData1]? = some channel) (pcap : channel.capType = .pcap)
    (probe : Probe) (fits : Fits probe) (untagged : Untagged probe) (source : probe.sport = 8080)
    (lower : 58 ≤ probe.encode.length) (upper : probe.encode.length ≤ 1500)
    (ofVersion : Nat) (pktin : CofmsgPacketIn) (frame : pktin.packet = probe.encode)
    (fl : Flow) (now : Timeval) (state : State F) :
    (∃ after, processPacketIn mean nf channels ofVersion pktin fl now state = some after ∧
        Counted probe pktin now state after) ↔ probe.encode.length % 256 ≠ 0 := by
  rw [ne_eq, ← swapped_length_lt lower upper, ← frame, not_lt]
  constructor
  · rintro ⟨after, processed, counted⟩
    by_contra short
    have inside : oflopsData1 < channels.length := (List.getElem?_eq_some_iff.mp known).1
    rw [process_probe_short inside untagged frame (not_le.mp short), Option.some.injEq] at processed
    have same := counted.pktInCount
    rw [← processed] at same
    exact absurd same (by grind)
  · intro long
    exact ⟨_, process_probe_long known pcap fits untagged source frame long fl now state,
      record_counted fits now state⟩

def sampleProbe (seqNum padding : Nat) : Probe where
  ether := zeros 12 ++ [8, 0]
  totLen := 44 + padding
  saddr := 0x0a010001
  daddr := 0x0a010002
  sport := 8080
  dport := 8080
  udpLen := 24 + padding
  seqNum := seqNum
  tvSec := 1400000000
  tvUsec := 0
  padding := padding

def noFlow : Flow := ⟨0, 0, [], [], 0, 0, 0, 0, 0, 0, 0, 0⟩

def twoPorts : List Channel := [⟨none, .pcap⟩, ⟨none, .pcap⟩]

theorem sampleProbe_fits {seqNum : Nat} (padding : Nat) (small : seqNum < 2 ^ 32) :
    Fits (sampleProbe seqNum padding) := by
  constructor
  case seqNum => exact small
  all_goals simp [sampleProbe]

theorem sampleProbe_untagged (seqNum padding : Nat) : Untagged (sampleProbe seqNum padding) :=
  ⟨rfl, rfl⟩

theorem sampleProbe_length (seqNum padding : Nat) :
    (sampleProbe seqNum padding).encode.length = 58 + padding := by
  rw [Probe.encode_length]
  simp [sampleProbe]

theorem probe_counted_iff_shortest :
    let pktin : CofmsgPacketIn := ⟨(sampleProbe 7 0).encode, 0, 0⟩
    let state := start () none
    ∃ after, processPacketIn (fun _ _ _ => ()) (fun _ _ _ => none) twoPorts 1 pktin noFlow
        ⟨1400000000, 250⟩ state = some after ∧
      Counted (sampleProbe 7 0) pktin ⟨1400000000, 250⟩ state after :=
  (probe_counted_iff _ _ twoPorts ⟨none, .pcap⟩ rfl rfl (sampleProbe 7 0)
    (sampleProbe_fits 0 (by decide))
    (sampleProbe_untagged 7 0) rfl (by rw [sampleProbe_length]) (by rw [sampleProbe_length]; decide)
    1 _ rfl noFlow _ _).mpr (by rw [sampleProbe_length]; decide)

/-- A probe of 256 bytes is dropped as if it had not arrived. -/
theorem probe_of_256_bytes_lost :
    let pktin : CofmsgPacketIn := ⟨(sampleProbe 7 198).encode, 0, 0⟩
    pktin.packet.length = 256 ∧
      (processPacketIn (fun _ _ _ => ()) (fun _ _ _ => none) twoPorts 1 pktin noFlow
        ⟨1400000000, 250⟩
        (start () none)).map State.pktInCount = some 0 := by
  have length := sampleProbe_length 7 198
  refine ⟨length, ?_⟩
  rw [process_probe_short (by decide) (sampleProbe_untagged 7 198) rfl (by rw [length]; decide)]
  rfl

end Oflops.PacketIn.Module
