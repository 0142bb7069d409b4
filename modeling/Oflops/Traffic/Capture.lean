import Oflops.Traffic.Decode
import Oflops.Traffic.Flows

/-! Which captured frames `extract_pktgen_pkt` takes apart without leaving its inputs: it checks
the length once, behind the Ethernet header and against the announced IP header only. -/

namespace Oflops.Traffic.Capture
open Lib.Bytes Lib.Record Packet Wire UserLoop Decode Flows

/-- Where a frame's IP header starts, going by its Ethernet type and that behind a tag. -/
def ipStart (b : List UInt8) : Option Nat :=
  if field b 12 2 = 0x8100 then if field b 16 2 = 0x0800 then some 18 else none
  else if field b 12 2 = 0x0800 then some 14 else none

def ipSize (b : List UInt8) (ip : Nat) : Nat := 4 * (field b ip 1 % 16)

/-- The frame holds an Ethernet header, an IP header, 8 UDP bytes and the generator's header. -/
def HoldsProbe (b : List UInt8) : Prop :=
  ∃ ip, ipStart b = some ip ∧ 20 ≤ ipSize b ip ∧ ip + ipSize b ip + 8 + 16 ≤ b.length

/-- The port is that of a channel captured with libpcap. -/
def OnPcap (channels : List Channel) (port : Int) : Prop :=
  0 ≤ port ∧ IsPcap channels port.toNat

/-- Every access lies in the frame or is to a channel, and a libpcap channel yields a header only
for a frame that holds one. -/
def StaysInside (nf : Nat → List UInt8 → Int → Option PktgenHdr) (channels : List Channel)
    (port : Int) (b : List UInt8) (fl : Option Flow) : Prop :=
  ∃ result, extractPktgenPkt nf channels port b b.length fl = some result ∧
    (OnPcap channels port → result.header.isSome → HoldsProbe b)

/-- The Ethernet type, and behind a tag the second one, lie in the frame. -/
def Typed (b : List UInt8) : Prop := 14 ≤ b.length ∧ (field b 12 2 = 0x8100 → 18 ≤ b.length)

/-- What is used behind a complete IP header: the channel, for a flow the addresses and the
ports, and on a libpcap channel the generator's header behind an IP header of at least 20 bytes. -/
structure Complete (channels : List Channel) (port : Int) (b : List UInt8) (fl : Option Flow)
    (ip : Nat) : Prop where
  known : port < channels.length
  flow : fl.isSome → ip + 20 ≤ b.length ∧ ip + ipSize b ip + 4 ≤ b.length
  probe : OnPcap channels port → 20 ≤ ipSize b ip ∧ ip + ipSize b ip + 8 + 16 ≤ b.length

/-- The frame is long enough for what is read from it. -/
def LongEnough (channels : List Channel) (port : Int) (b : List UInt8) (fl : Option Flow) : Prop :=
  Typed b ∧ ∀ ip, ipStart b = some ip → ip < b.length ∧
    (ip + ipSize b ip ≤ b.length → Complete channels port b fl ip)

theorem ntohs_field {b : List UInt8} {offset : Nat} (inside : offset + 2 ≤ b.length) :
    ntohs (leValue (slice b offset 2)) = field b offset 2 := ntohs_slice inside

theorem field_byte {b : List UInt8} {offset : Nat} (inside : offset + 1 ≤ b.length) :
    leValue (slice b offset 1) = field b offset 1 := by
  obtain ⟨byte, only⟩ := List.length_eq_one_iff.mp (slice_length inside)
  rw [field, only]
  rfl

theorem locateIp_typed {b : List UInt8} (typed : Typed b) : locateIp b = some (ipStart b) := by
  obtain ⟨long, tagged⟩ := typed
  unfold locateIp ipStart
  rw [loadAt_inside (by omega)]
  simp only [Option.bind_eq_bind, Option.bind_some, ntohs_field (show 12 + 2 ≤ b.length by omega)]
  by_cases tag : field b 12 2 = 0x8100
  · have inner : 16 + 2 ≤ b.length := tagged tag
    rw [if_pos tag, if_pos tag, loadAt_inside inner, Option.bind_some, ntohs_field inner]
    rfl
  · rw [if_neg tag, if_neg tag]
    rfl

theorem locateIp_untyped {b : List UInt8} (untyped : ¬Typed b) : locateIp b = none := by
  unfold locateIp
  by_cases long : 12 + 2 ≤ b.length
  · have tagged : field b 12 2 = 0x8100 ∧ ¬16 + 2 ≤ b.length := by
      by_contra fine
      exact untyped ⟨long, fun tag => by_contra fun short => fine ⟨tag, short⟩⟩
    rw [loadAt_inside long]
    simp only [Option.bind_eq_bind, Option.bind_some, ntohs_field long, if_pos tagged.1]
    rw [loadAt_outside tagged.2, Option.bind_none]
  · rw [loadAt_outside long]
    rfl

theorem ntohlAt_inside {b : List UInt8} {offset : Nat} (inside : offset + 4 ≤ b.length) :
    ∃ after, ntohlAt b offset = some after ∧ after.length = b.length := by
  have room : offset + (leBytes 4 (ntohl (leValue (slice b offset 4)))).length ≤ b.length := by
    rw [leBytes_length]
    exact inside
  refine ⟨_, ?_, patch_length room⟩
  rw [ntohlAt, loadAt_inside inside]
  exact writeAt_inside room

theorem ntohlAt_some {b after : List UInt8} {offset : Nat} (done : ntohlAt b offset = some after) :
    offset + 4 ≤ b.length ∧ after.length = b.length := by
  obtain ⟨value, -, written⟩ := Option.bind_eq_some_iff.mp done
  have inside := writeAt_some written
  rwa [leBytes_length] at inside

theorem headerToHost_isSome {b : List UInt8} {pktgen : Nat} :
    (headerToHost b pktgen).isSome ↔ pktgen + 16 ≤ b.length := by
  rw [Option.isSome_iff_exists]
  constructor
  · rintro ⟨after, done⟩
    obtain ⟨first, tvSec, done⟩ := Option.bind_eq_some_iff.mp done
    obtain ⟨second, tvUsec, -⟩ := Option.bind_eq_some_iff.mp done
    have inside := (ntohlAt_some tvUsec).1
    rw [(ntohlAt_some tvSec).2] at inside
    omega
  · intro inside
    obtain ⟨first, tvSec, size⟩ := ntohlAt_inside (show pktgen + 8 + 4 ≤ b.length by omega)
    obtain ⟨second, tvUsec, size'⟩ := ntohlAt_inside (show pktgen + 12 + 4 ≤ first.length by omega)
    obtain ⟨third, seqNum, -⟩ := ntohlAt_inside (show pktgen + 4 + 4 ≤ second.length by omega)
    refine ⟨third, ?_⟩
    simp only [headerToHost, tvSec, tvUsec, seqNum, Option.bind_eq_bind, Option.bind_some]

theorem etherFields_typed {b : List UInt8} (typed : Typed b) :
    ∃ fields, etherFields b = some fields := by
  obtain ⟨long, tagged⟩ := typed
  unfold etherFields
  rw [loadAt_inside (by omega)]
  simp only [Option.bind_eq_bind, Option.bind_some, ntohs_field (show 12 + 2 ≤ b.length by omega)]
  by_cases tag : field b 12 2 = 0x8100
  · have inner : 16 + 2 ≤ b.length := tagged tag
    rw [if_pos tag, loadAt_inside inner, loadAt_inside (by omega)]
    exact ⟨_, rfl⟩
  · rw [if_neg tag]
    exact ⟨_, rfl⟩

theorem fillFlow_isSome {b : List UInt8} (typed : Typed b) {ip udp : Nat} :
    (fillFlow b ip udp).isSome ↔ ip + 20 ≤ b.length ∧ udp + 4 ≤ b.length := by
  rw [Option.isSome_iff_exists]
  constructor
  · rintro ⟨flow, done⟩
    obtain ⟨_, -, done⟩ := Option.bind_eq_some_iff.mp done
    obtain ⟨_, -, done⟩ := Option.bind_eq_some_iff.mp done
    obtain ⟨_, -, done⟩ := Option.bind_eq_some_iff.mp done
    obtain ⟨_, -, done⟩ := Option.bind_eq_some_iff.mp done
    obtain ⟨_, nwDst, done⟩ := Option.bind_eq_some_iff.mp done
    obtain ⟨_, -, done⟩ := Option.bind_eq_some_iff.mp done
    obtain ⟨_, dest, -⟩ := Option.bind_eq_some_iff.mp done
    have addresses := loadAt_some nwDst
    have ports := loadAt_some dest
    omega
  · rintro ⟨addresses, ports⟩
    have long := typed.1
    obtain ⟨fields, ether⟩ := etherFields_typed typed
    simp only [fillFlow, readAt_inside (show 6 + 6 ≤ b.length by omega),
      readAt_inside (show 0 + 6 ≤ b.length by omega), ether,
      loadAt_inside (show ip + 12 + 4 ≤ b.length by omega),
      loadAt_inside (show ip + 16 + 4 ≤ b.length by omega),
      loadAt_inside (show udp + 2 ≤ b.length by omega),
      loadAt_inside (show udp + 2 + 2 ≤ b.length by omega), Option.bind_eq_bind, Option.bind_some]
    exact ⟨_, rfl⟩

def flowAfter (b : List UInt8) (ip udp : Nat) (fl : Option Flow) : Option (Option Flow) :=
  match fl with
  | none => some none
  | some _ => (fillFlow b ip udp).map some

theorem flowAfter_isSome {b : List UInt8} (typed : Typed b) {ip udp : Nat} {fl : Option Flow} :
    (flowAfter b ip udp fl).isSome ↔ (fl.isSome → ip + 20 ≤ b.length ∧ udp + 4 ≤ b.length) := by
  cases fl with
  | none => simp [flowAfter]
  | some flow => simp [flowAfter, fillFlow_isSome typed]

def deliver (nf : Nat → List UInt8 → Int → Option PktgenHdr) (port : Int) (b : List UInt8)
    (ip : Nat) (channel : Channel) (fl : Option Flow) : Option Extraction :=
  match channel.capType with
  | .pcap => do
    let converted ← headerToHost b (ip + ipSize b ip + udphdrSize)
    some ⟨some (.inPlace (ip + ipSize b ip + udphdrSize)), converted, fl⟩
  | .nf2 => some ⟨(nf port.toNat b (b.length - ip - ipSize b ip)).map .captured, b, fl⟩
  | .other => some ⟨none, b, fl⟩

theorem staysInside_of_nothing {nf : Nat → List UInt8 → Int → Option PktgenHdr}
    {channels : List Channel} {port : Int} {b after : List UInt8} {fl flAfter : Option Flow}
    (returned : extractPktgenPkt nf channels port b b.length fl = some ⟨none, after, flAfter⟩) :
    StaysInside nf channels port b fl :=
  ⟨_, returned, fun _ found => absurd found Bool.false_ne_true⟩

theorem not_staysInside_of_fault {nf : Nat → List UInt8 → Int → Option PktgenHdr}
    {channels : List Channel} {port : Int} {b : List UInt8} {fl : Option Flow}
    (fault : extractPktgenPkt nf channels port b b.length fl = none) :
    ¬StaysInside nf channels port b fl := by
  rintro ⟨result, returned, -⟩
  rw [fault] at returned
  cases returned

section Port

variable (nf : Nat → List UInt8 → Int → Option PktgenHdr) {channels : List Channel} {port : Int}
  (inRange : ¬(port < 0 ∨ port > channels.length)) {b : List UInt8} (fl : Option Flow)
include inRange

theorem extract_untyped (untyped : ¬Typed b) :
    extractPktgenPkt nf channels port b b.length fl = none := by
  rw [extractPktgenPkt, if_neg inRange, locateIp_untyped untyped]
  rfl

theorem extract_nowhere (typed : Typed b) (nowhere : ipStart b = none) :
    extractPktgenPkt nf channels port b b.length fl = some ⟨none, b, fl⟩ := by
  rw [extractPktgenPkt, if_neg inRange, locateIp_typed typed, nowhere]
  rfl

variable {ip : Nat} (typed : Typed b) (start : ipStart b = some ip)
include typed start

theorem extract_cut (cut : ¬ip < b.length) :
    extractPktgenPkt nf channels port b b.length fl = none := by
  rw [extractPktgenPkt, if_neg inRange, locateIp_typed typed, start]
  change (loadAt b ip 1).bind _ = none
  rw [loadAt_outside cut, Option.bind_none]

theorem extract_located (first : ip < b.length) :
    extractPktgenPkt nf channels port b b.length fl =
      if b.length < ip + ipSize b ip then some ⟨none, b, fl⟩
      else (flowAfter b ip (ip + ipSize b ip) fl).bind fun fl =>
        channels[port.toNat]?.bind fun channel => deliver nf port b ip channel fl := by
  have size : 4 * (leValue (slice b ip 1) % 2 ^ 4) = ipSize b ip := by
    rw [field_byte first]
    rfl
  rw [extractPktgenPkt, if_neg inRange, locateIp_typed typed, start]
  change (loadAt b ip 1).bind _ = _
  rw [loadAt_inside first, Option.bind_some]
  dsimp only
  rw [size]
  by_cases short : b.length < ip + ipSize b ip
  · rw [if_pos short, if_pos (by omega)]
  · rw [if_neg short, if_neg (by omega)]
    cases fl with
    | none => rfl
    | some flow => rfl

theorem complete_of_staysInside (first : ip < b.length) (room : ip + ipSize b ip ≤ b.length)
    (inside : StaysInside nf channels port b fl) : Complete channels port b fl ip := by
  obtain ⟨result, returned, holds⟩ := inside
  rw [extract_located nf inRange fl typed start first, if_neg (not_lt.mpr room)] at returned
  obtain ⟨fl', flow, returned⟩ := Option.bind_eq_some_iff.mp returned
  obtain ⟨channel, known, delivered⟩ := Option.bind_eq_some_iff.mp returned
  refine ⟨?_, (flowAfter_isSome typed).mp (Option.isSome_of_eq_some flow), ?_⟩
  · have inside := (List.getElem?_eq_some_iff.mp known).1
    omega
  · rintro pcap
    obtain ⟨_, channel', known', captured⟩ := id pcap
    cases known.symm.trans known'
    rw [deliver, captured] at delivered
    obtain ⟨converted, -, delivered⟩ := Option.bind_eq_some_iff.mp delivered
    cases delivered
    obtain ⟨ip', start', least, fits⟩ := holds pcap rfl
    cases start.symm.trans start'
    exact ⟨least, fits⟩

theorem staysInside_of_complete (first : ip < b.length) (room : ip + ipSize b ip ≤ b.length)
    (complete : Complete channels port b fl ip) : StaysInside nf channels port b fl := by
  obtain ⟨known, flow, probe⟩ := complete
  have located := extract_located nf inRange fl typed start first
  obtain ⟨fl', filled⟩ := Option.isSome_iff_exists.mp ((flowAfter_isSome typed).mpr flow)
  have inside : port.toNat < channels.length := by omega
  have channel : channels[port.toNat]? = some channels[port.toNat] :=
    List.getElem?_eq_getElem inside
  rw [if_neg (not_lt.mpr room), filled, Option.bind_some, channel, Option.bind_some] at located
  unfold deliver at located
  cases captured : channels[port.toNat].capType with
  | pcap =>
    rw [captured] at located
    have pcap : OnPcap channels port := ⟨by omega, _, channel, captured⟩
    obtain ⟨least, fits⟩ := probe pcap
    obtain ⟨converted, converts⟩ := Option.isSome_iff_exists.mp
      (headerToHost_isSome.mpr (show ip + ipSize b ip + udphdrSize + 16 ≤ b.length from fits))
    refine ⟨_, located.trans (congrArg (Option.bind · _) converts), fun _ _ => ?_⟩
    exact ⟨ip, start, least, fits⟩
  | nf2 =>
    rw [captured] at located
    refine ⟨_, located, fun pcap _ => ?_⟩
    obtain ⟨_, channel', known', captured'⟩ := pcap
    cases channel.symm.trans known'
    cases captured.symm.trans captured'
  | other =>
    rw [captured] at located
    exact staysInside_of_nothing located

end Port

/-- `extract_pktgen_pkt` stays inside the frame and the channels, and takes nothing else for a
probe, exactly when it rejects the port or the frame is long enough. -/
theorem extract_stays_inside_iff (nf : Nat → List UInt8 → Int → Option PktgenHdr)
    (channels : List Channel) (port : Int) (b : List UInt8) (fl : Option Flow) :
    StaysInside nf channels port b fl ↔
      port < 0 ∨ channels.length < port ∨ LongEnough channels port b fl := by
  by_cases rejected : port < 0 ∨ port > channels.length
  · have returned : extractPktgenPkt nf channels port b b.length fl = some ⟨none, b, fl⟩ := by
      rw [extractPktgenPkt, if_pos rejected]
    constructor
    · intro _
      exact rejected.imp_right Or.inl
    · intro _
      exact staysInside_of_nothing returned
  · have open_ : (port < 0 ∨ channels.length < port ∨ LongEnough channels port b fl) ↔
        LongEnough channels port b fl := by
      rw [← or_assoc, or_iff_right rejected]
    rw [open_]
    by_cases typed : Typed b
    · cases start : ipStart b with
      | none =>
        constructor
        · intro _
          exact ⟨typed, fun ip found => by cases start.symm.trans found⟩
        · intro _
          exact staysInside_of_nothing (extract_nowhere nf rejected fl typed start)
      | some ip =>
        by_cases first : ip < b.length
        · by_cases room : ip + ipSize b ip ≤ b.length
          · constructor
            · intro inside
              refine ⟨typed, fun other found => ?_⟩
              cases start.symm.trans found
              exact ⟨first, fun _ => complete_of_staysInside nf rejected fl typed start
                first room inside⟩
            · intro long
              exact staysInside_of_complete nf rejected fl typed start first room
                ((long.2 ip start).2 room)
          · constructor
            · intro _
              refine ⟨typed, fun other found => ?_⟩
              cases start.symm.trans found
              exact ⟨first, fun fits => absurd fits room⟩
            · intro _
              have located := extract_located nf rejected fl typed start first
              rw [if_pos (not_le.mp room)] at located
              exact staysInside_of_nothing located
        · constructor
          · intro inside
            exact absurd inside
              (not_staysInside_of_fault (extract_cut nf rejected fl typed start first))
          · intro long
            exact absurd (long.2 ip start).1 first
    · constructor
      · intro inside
        exact absurd inside (not_staysInside_of_fault (extract_untyped nf rejected fl typed))
      · intro long
        exact absurd long.1 typed

def frame (version : UInt8) (rest : Nat) : List UInt8 := zeros 12 ++ [8, 0, version] ++ zeros rest

def onePort : List Channel := [⟨none, .pcap⟩]

/-- A frame cut off behind its IP header is read past its end; so is the channel table for the
port behind the last one; and a frame whose IP header claims to have no bytes is taken for a
probe. -/
theorem short_frame_overrun :
    ¬StaysInside (fun _ _ _ => none) onePort 0 (frame 0x45 19) none ∧
      ¬StaysInside (fun _ _ _ => none) onePort 1 (frame 0x45 43) none ∧
      ¬StaysInside (fun _ _ _ => none) onePort 0 (frame 0x40 23) none := by
  refine ⟨?_, ?_, ?_⟩
  · rintro ⟨result, returned, -⟩
    exact absurd (Option.isSome_of_eq_some returned) (by decide +kernel)
  · rintro ⟨result, returned, -⟩
    exact absurd (Option.isSome_of_eq_some returned) (by decide +kernel)
  · rintro ⟨result, returned, holds⟩
    have found : (extractPktgenPkt (fun _ _ _ => none) onePort 0 (frame 0x40 23)
        (frame 0x40 23).length none).any (fun result => result.header.isSome) := by decide +kernel
    rw [returned, Option.any_some] at found
    obtain ⟨ip, start, least, -⟩ := holds ⟨le_rfl, _, rfl, rfl⟩ found
    have place : ipStart (frame 0x40 23) = some 14 := by decide +kernel
    cases place.symm.trans start
    exact absurd least (by decide +kernel)

end Oflops.Traffic.Capture
