import Oflops.Traffic.Wire
import Oflops.Traffic.UserLoop

/-! `extract_pktgen_pkt` takes apart a captured frame: where it finds the headers, what it copies
from them and what it converts in place. A probe is taken apart into what it was made of. -/

namespace Oflops.Traffic.Decode
open Lib.Bytes Lib.Record Packet Wire UserLoop

structure Flow where
  mask : Nat
  inPort : Nat
  dlSrc : List UInt8
  dlDst : List UInt8
  dlVlan : Nat
  dlType : Nat
  nwSrc : Nat
  nwDst : Nat
  nwProto : Nat
  tpSrc : Nat
  tpDst : Nat
  reserved : Nat

structure PktgenHdr where
  magic : Nat
  seqNum : Nat
  tvSec : Nat
  tvUsec : Nat

/-- A header returned to the caller: a place in the captured bytes, or what the NetFPGA capture
(another library) delivers. -/
inductive Header where
  | inPlace (offset : Nat)
  | captured (header : PktgenHdr)

/-- The returned pointer, the captured bytes (converted in place) and `*fl` afterwards. -/
structure Extraction where
  header : Option Header
  b : List UInt8
  fl : Option Flow

def loadAt (b : List UInt8) (offset width : Nat) : Option Nat := (readAt b offset width).map leValue

/-- Where the IP header starts: behind a tagged or an untagged Ethernet header, or nowhere. -/
def locateIp (b : List UInt8) : Option (Option Nat) := do
  let etherType ← loadAt b 12 2
  if ntohs etherType = 0x8100 then
    let inner ← loadAt b 16 2
    some (if ntohs inner = 0x0800 then some etherVlanHeaderSize else none)
  else some (if ntohs etherType = 0x0800 then some etherHeaderSize else none)

/-- The type and the VLAN of the flow; `vid` is bits 4 to 15 of the unit at offset 14. -/
def etherFields (b : List UInt8) : Option (Nat × Nat) := do
  let etherType ← loadAt b 12 2
  if ntohs etherType = 0x8100 then
    let inner ← loadAt b 16 2
    let unit ← loadAt b 14 2
    let vid := unit / 2 ^ 4
    some (ntohs inner, ntohs (vid * 2 ^ 4) % 2 ^ 12)
  else some (ntohs etherType, 0xffff)

def fillFlow (b : List UInt8) (ip udp : Nat) : Option Flow := do
  let dlSrc ← readAt b 6 6
  let dlDst ← readAt b 0 6
  let (dlType, dlVlan) ← etherFields b
  let nwSrc ← loadAt b (ip + 12) 4
  let nwDst ← loadAt b (ip + 16) 4
  let source ← loadAt b udp 2
  let dest ← loadAt b (udp + 2) 2
  some
    { mask := 0, inPort := 0, dlSrc, dlDst, dlVlan, dlType, nwSrc, nwDst, nwProto := 17
      tpSrc := ntohs source, tpDst := ntohs dest, reserved := 0 }

/-- Convert a 32-bit field of the captured bytes to host order, in place. -/
def ntohlAt (b : List UInt8) (offset : Nat) : Option (List UInt8) := do
  let value ← loadAt b offset 4
  writeAt b offset (leBytes 4 (ntohl value))

def headerToHost (b : List UInt8) (pktgen : Nat) : Option (List UInt8) := do
  let b ← ntohlAt b (pktgen + 8)
  let b ← ntohlAt b (pktgen + 12)
  ntohlAt b (pktgen + 4)

/-- `nf` stands for `nf_gen_extract_header` on the channel's capture. -/
def extractPktgenPkt (nf : Nat → List UInt8 → Int → Option PktgenHdr) (channels : List Channel)
    (port : Int) (b : List UInt8) (len : Int) (fl : Option Flow) : Option Extraction :=
  if port < 0 ∨ port > channels.length then some ⟨none, b, fl⟩
  else do
    match ← locateIp b with
    | none => some ⟨none, b, fl⟩
    | some ip =>
      let first ← loadAt b ip 1
      let ipLen : Nat := 4 * (first % 2 ^ 4)
      if len - ip < ipLen then some ⟨none, b, fl⟩
      else
        let udp := ip + ipLen
        let fl ← match fl with
          | none => some none
          | some _ => (fillFlow b ip udp).map some
        let pktgen := udp + udphdrSize
        let channel ← channels[port.toNat]?
        match channel.capType with
        | .pcap =>
          let b ← headerToHost b pktgen
          some ⟨some (.inPlace pktgen), b, fl⟩
        | .nf2 => some ⟨(nf port.toNat b (len - ip - ipLen)).map .captured, b, fl⟩
        | .other => some ⟨none, b, fl⟩

def pktgenAt (b : List UInt8) (offset : Nat) : PktgenHdr where
  magic := leValue (slice b offset 4)
  seqNum := leValue (slice b (offset + 4) 4)
  tvSec := leValue (slice b (offset + 8) 4)
  tvUsec := leValue (slice b (offset + 12) 4)

def pktgenOf (extraction : Extraction) : Option PktgenHdr :=
  extraction.header.map fun
    | .inPlace offset => pktgenAt extraction.b offset
    | .captured header => header

theorem extract_flow_cases {nf : Nat → List UInt8 → Int → Option PktgenHdr}
    {channels : List Channel} {port len : Int} {b : List UInt8} {fl : Flow}
    {extraction : Extraction}
    (done : extractPktgenPkt nf channels port b len (some fl) = some extraction) :
    extraction.fl = some fl ∨
      ∃ ip udp flow, fillFlow b ip udp = some flow ∧ extraction.fl = some flow := by
  unfold extractPktgenPkt at done
  split_ifs at done
  · cases done
    exact .inl rfl
  · obtain ⟨place, -, done⟩ := Option.bind_eq_some_iff.mp done
    cases place with
    | none =>
      cases done
      exact .inl rfl
    | some ip =>
      obtain ⟨first, -, done⟩ := Option.bind_eq_some_iff.mp done
      dsimp only at done
      split_ifs at done
      · cases done
        exact .inl rfl
      · obtain ⟨filled, same, done⟩ := Option.bind_eq_some_iff.mp done
        obtain ⟨flow, found, rfl⟩ := Option.map_eq_some_iff.mp same
        obtain ⟨channel, -, done⟩ := Option.bind_eq_some_iff.mp done
        refine .inr ⟨ip, _, flow, found, ?_⟩
        cases type : channel.capType with
        | pcap =>
          rw [type] at done
          obtain ⟨converted, -, done⟩ := Option.bind_eq_some_iff.mp done
          cases done
          rfl
        | nf2 =>
          rw [type] at done
          cases done
          rfl
        | other =>
          rw [type] at done
          cases done
          rfl

theorem extract_flow {nf : Nat → List UInt8 → Int → Option PktgenHdr} {channels : List Channel}
    {port len : Int} {b : List UInt8} {fl : Flow} {extraction : Extraction}
    (done : extractPktgenPkt nf channels port b len (some fl) = some extraction) :
    ∃ flow, extraction.fl = some flow := by
  rcases extract_flow_cases done with kept | ⟨_, _, flow, _, filled⟩
  · exact ⟨fl, kept⟩
  · exact ⟨flow, filled⟩

theorem extract_macs {nf : Nat → List UInt8 → Int → Option PktgenHdr} {channels : List Channel}
    {port len : Int} {b : List UInt8} {fl flow : Flow} {extraction : Extraction}
    (done : extractPktgenPkt nf channels port b len (some fl) = some extraction)
    (src : fl.dlSrc.length = 6) (dst : fl.dlDst.length = 6) (found : extraction.fl = some flow) :
    flow.dlSrc.length = 6 ∧ flow.dlDst.length = 6 := by
  rcases extract_flow_cases done with kept | ⟨ip, udp, flow', filled, kept⟩
  · cases kept.symm.trans found
    exact ⟨src, dst⟩
  · cases kept.symm.trans found
    obtain ⟨dlSrc, readSrc, filled⟩ := Option.bind_eq_some_iff.mp filled
    obtain ⟨dlDst, readDst, filled⟩ := Option.bind_eq_some_iff.mp filled
    obtain ⟨⟨dlType, dlVlan⟩, -, filled⟩ := Option.bind_eq_some_iff.mp filled
    obtain ⟨nwSrc, -, filled⟩ := Option.bind_eq_some_iff.mp filled
    obtain ⟨nwDst, -, filled⟩ := Option.bind_eq_some_iff.mp filled
    obtain ⟨source, -, filled⟩ := Option.bind_eq_some_iff.mp filled
    obtain ⟨dest, -, filled⟩ := Option.bind_eq_some_iff.mp filled
    cases filled
    exact ⟨readAt_length readSrc, readAt_length readDst⟩

theorem loadAt_eq {b : List UInt8} {offset width : Nat} {field : List UInt8}
    (inside : offset + width ≤ b.length) (content : slice b offset width = field) :
    loadAt b offset width = some (leValue field) := by
  rw [loadAt, readAt_inside inside, content, Option.map_some]

theorem loadAt_inside {b : List UInt8} {offset width : Nat} (inside : offset + width ≤ b.length) :
    loadAt b offset width = some (leValue (slice b offset width)) := loadAt_eq inside rfl

theorem loadAt_outside {b : List UInt8} {offset width : Nat}
    (outside : ¬offset + width ≤ b.length) : loadAt b offset width = none := by
  rw [loadAt, readAt, if_neg outside, Option.map_none]

theorem loadAt_some {b : List UInt8} {offset width value : Nat}
    (loaded : loadAt b offset width = some value) : offset + width ≤ b.length := by
  by_contra outside
  rw [loadAt_outside outside] at loaded
  cases loaded

theorem ntohs_slice {b : List UInt8} {offset : Nat} (inside : offset + 2 ≤ b.length) :
    ntohs (leValue (slice b offset 2)) = beValue (slice b offset 2) := by
  have swapped := swapBytes_leValue (slice b offset 2)
  rwa [slice_length inside] at swapped

theorem ntohl_beBytes {x : Nat} (fits : x < 2 ^ 32) : ntohl (leValue (beBytes 4 x)) = x :=
  (swapBytes_swapBytes 4 x).trans (Nat.mod_eq_of_lt fits)

theorem ntohs_beBytes {x : Nat} (fits : x < 2 ^ 16) : ntohs (leValue (beBytes 2 x)) = x :=
  (swapBytes_swapBytes 2 x).trans (Nat.mod_eq_of_lt fits)

theorem ntohlAt_part {before part after : List UInt8} {base i x : Nat}
    (place : before.length = base) (inside : i + 4 ≤ part.length)
    (content : slice part i 4 = beBytes 4 x) (fits : x < 2 ^ 32) :
    ntohlAt (before ++ (part ++ after)) (base + i) =
      some (before ++ (patch part i (leBytes 4 x) ++ after)) := by
  unfold ntohlAt loadAt
  rw [readAt_part place inside, content]
  change writeAt _ _ (leBytes 4 (ntohl (leValue (beBytes 4 x)))) = _
  rw [ntohl_beBytes fits]
  exact writeAt_part place (by simpa using inside)

/-- A probe whose numbers fit their fields. -/
structure Fits (probe : Probe) : Prop where
  saddr : probe.saddr < 2 ^ 32
  daddr : probe.daddr < 2 ^ 32
  sport : probe.sport < 2 ^ 16
  dport : probe.dport < 2 ^ 16
  seqNum : probe.seqNum < 2 ^ 32
  tvSec : probe.tvSec < 2 ^ 32
  tvUsec : probe.tvUsec < 2 ^ 32

def hostHeader (probe : Probe) : List UInt8 :=
  beBytes 4 0xbe9be955 ++ leBytes 4 probe.seqNum ++ leBytes 4 probe.tvSec ++ leBytes 4 probe.tvUsec

def converted (probe : Probe) : List UInt8 :=
  probe.front ++ (hostHeader probe ++ zeros probe.padding)

theorem headerToHost_probe {probe : Probe} (fits : Fits probe) :
    headerToHost probe.encode (probe.ether.length + 28) = some (converted probe) := by
  have place := probe.front_length
  unfold headerToHost
  simp only [Option.bind_eq_bind]
  rw [probe.encode_eq, ntohlAt_part place (by simp) rfl fits.tvSec, Option.bind_some,
    ntohlAt_part place (by rw [patch_length] <;> simp) rfl fits.tvUsec, Option.bind_some,
    ntohlAt_part place (by rw [patch_length, patch_length] <;> simp [patch_length]) rfl fits.seqNum]
  rfl

theorem pktgenAt_converted {probe : Probe} (fits : Fits probe) :
    pktgenAt (converted probe) (probe.ether.length + 28) =
      ⟨htonl 0xbe9be955, probe.seqNum, probe.tvSec, probe.tvUsec⟩ := by
  have place := probe.front_length
  have found : ∀ i x, i + 4 ≤ 16 → slice (hostHeader probe) i 4 = leBytes 4 x → x < 2 ^ 32 →
      leValue (slice (converted probe) (probe.ether.length + 28 + i) 4) = x := by
    intro i x inside content small
    rw [converted, slice_part place (by simpa [hostHeader] using inside), content, leValue_leBytes]
    exact Nat.mod_eq_of_lt small
  have magic : leValue (slice (converted probe) (probe.ether.length + 28) 4) = htonl 0xbe9be955 :=
    congrArg leValue (slice_part (i := 0) place (by simp [hostHeader]))
  rw [pktgenAt, magic, found 4 _ (by decide) rfl fits.seqNum, found 8 _ (by decide) rfl fits.tvSec,
    found 12 _ (by decide) rfl fits.tvUsec]

theorem slice_ether (probe : Probe) {i width : Nat} (inside : i + width ≤ probe.ether.length) :
    slice probe.encode i width = slice probe.ether i width := by
  have first : slice probe.encode (0 + i) width = slice probe.ether i width :=
    slice_part (rfl : ([] : List UInt8).length = 0) inside
  rwa [Nat.zero_add] at first

def flowOf (probe : Probe) (dlType dlVlan : Nat) : Flow where
  mask := 0
  inPort := 0
  dlSrc := slice probe.ether 6 6
  dlDst := slice probe.ether 0 6
  dlVlan := dlVlan
  dlType := dlType
  nwSrc := htonl probe.saddr
  nwDst := htonl probe.daddr
  nwProto := 17
  tpSrc := probe.sport
  tpDst := probe.dport
  reserved := 0

theorem fillFlow_probe {probe : Probe} (fits : Fits probe) (header : 14 ≤ probe.ether.length)
    {dlType dlVlan : Nat} (fields : etherFields probe.encode = some (dlType, dlVlan)) :
    fillFlow probe.encode probe.ether.length (probe.ether.length + 20) =
      some (flowOf probe dlType dlVlan) := by
  have length := probe.encode_length
  have source : readAt probe.encode 6 6 = some (slice probe.ether 6 6) := by
    rw [readAt_inside (by omega), slice_ether probe (by omega)]
  have dest : readAt probe.encode 0 6 = some (slice probe.ether 0 6) := by
    rw [readAt_inside (by omega), slice_ether probe (by omega)]
  have saddr := loadAt_eq (by omega) probe.encode_saddr
  have daddr := loadAt_eq (by omega) probe.encode_daddr
  have sport := loadAt_eq (by omega) probe.encode_sport
  have dport : loadAt probe.encode (probe.ether.length + 20 + 2) 2 = _ :=
    loadAt_eq (by omega) probe.encode_dport
  simp only [fillFlow, source, dest, fields, saddr, daddr, sport, dport, Option.bind_eq_bind,
    Option.bind_some, ntohs_beBytes fits.sport, ntohs_beBytes fits.dport]
  rfl

section
variable {channels : List Channel} {port : Nat} {probe : Probe}

theorem extract_probe_long (nf : Nat → List UInt8 → Int → Option PktgenHdr) {channel : Channel}
    (known : channels[port]? = some channel) (pcap : channel.capType = .pcap) (fits : Fits probe)
    (header : 14 ≤ probe.ether.length)
    (located : locateIp probe.encode = some (some probe.ether.length)) {dlType dlVlan : Nat}
    (fields : etherFields probe.encode = some (dlType, dlVlan)) (fl : Flow) (len : Int)
    (long : probe.ether.length + 20 ≤ len) :
    extractPktgenPkt nf channels port probe.encode len (some fl) =
      some ⟨some (.inPlace (probe.ether.length + 28)), converted probe,
        some (flowOf probe dlType dlVlan)⟩ := by
  have inside : port < channels.length := (List.getElem?_eq_some_iff.mp known).1
  have length := probe.encode_length
  have first := loadAt_eq (by omega) probe.encode_version
  have flow := fillFlow_probe fits header fields
  have converts : headerToHost probe.encode (probe.ether.length + 20 + udphdrSize) = _ :=
    headerToHost_probe fits
  have ihl : 4 * (leValue [0x45] % 2 ^ 4) = 20 := rfl
  unfold extractPktgenPkt
  rw [if_neg (by omega)]
  simp only [located, first, Option.bind_eq_bind, Option.bind_some, ihl]
  rw [if_neg (by omega), flow]
  simp only [Option.map_some, Option.bind_some, Int.toNat_natCast, known, pcap, converts]
  rfl

theorem extract_probe_short (nf : Nat → List UInt8 → Int → Option PktgenHdr)
    (known : port < channels.length)
    (located : locateIp probe.encode = some (some probe.ether.length)) (fl : Option Flow)
    (len : Int) (short : len < probe.ether.length + 20) :
    extractPktgenPkt nf channels port probe.encode len fl = some ⟨none, probe.encode, fl⟩ := by
  have length := probe.encode_length
  have first := loadAt_eq (by omega) probe.encode_version
  have ihl : 4 * (leValue [0x45] % 2 ^ 4) = 20 := rfl
  unfold extractPktgenPkt
  rw [if_neg (by omega)]
  simp only [located, first, Option.bind_eq_bind, Option.bind_some, ihl]
  rw [if_pos (by omega)]

theorem extract_probe (nf : Nat → List UInt8 → Int → Option PktgenHdr) {channel : Channel}
    (known : channels[port]? = some channel) (pcap : channel.capType = .pcap) (fits : Fits probe)
    (header : 14 ≤ probe.ether.length)
    (located : locateIp probe.encode = some (some probe.ether.length)) {dlType dlVlan : Nat}
    (fields : etherFields probe.encode = some (dlType, dlVlan)) (fl : Flow) :
    extractPktgenPkt nf channels port probe.encode probe.encode.length (some fl) =
      some ⟨some (.inPlace (probe.ether.length + 28)), converted probe,
        some (flowOf probe dlType dlVlan)⟩ := by
  have length := probe.encode_length
  exact extract_probe_long nf known pcap fits header located fields fl _ (by omega)

/-- The Ethernet header of a probe is an untagged one for IP. -/
structure Untagged (probe : Probe) : Prop where
  length : probe.ether.length = 14
  type : slice probe.ether 12 2 = [8, 0]

theorem Untagged.loaded (untagged : Untagged probe) : loadAt probe.encode 12 2 = some 8 := by
  have ether := untagged.length
  have length := probe.encode_length
  have type : slice probe.encode 12 2 = [8, 0] := by
    rw [slice_ether probe (by omega), untagged.type]
  exact loadAt_eq (by omega) type

theorem Untagged.located (untagged : Untagged probe) :
    locateIp probe.encode = some (some probe.ether.length) := by
  rw [locateIp, untagged.loaded, untagged.length]
  rfl

theorem Untagged.fields (untagged : Untagged probe) :
    etherFields probe.encode = some (0x0800, 0xffff) := by
  rw [etherFields, untagged.loaded]
  rfl

end

end Oflops.Traffic.Decode
