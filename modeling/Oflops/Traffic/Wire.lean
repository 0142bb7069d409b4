import Oflops.Traffic.Checksum

/-! The probes on the wire: what a generator's packet is made of, as the concatenation of its
headers, and that the code builds and patches exactly that. -/

namespace Oflops.Traffic.Wire
open Lib.Bytes Lib.MachineInt Lib.Record Time Packet Checksum

def zeros (n : Nat) : List UInt8 := List.replicate n 0

/-- A probe. Numbers are host-order values; `padding` counts the bytes behind the headers. -/
structure Probe where
  ether : List UInt8
  totLen : Nat
  saddr : Nat
  daddr : Nat
  sport : Nat
  dport : Nat
  udpLen : Nat
  seqNum : Nat
  tvSec : Nat
  tvUsec : Nat
  padding : Nat

namespace Probe

/-- The IP header before its checksum: version 4, five words, time to live 100, UDP. -/
def ipBefore (probe : Probe) : List UInt8 :=
  [0x45, 0] ++ beBytes 2 probe.totLen ++ [0, 0, 0, 0, 100, 17]

def ipAfter (probe : Probe) : List UInt8 := beBytes 4 probe.saddr ++ beBytes 4 probe.daddr

def check (probe : Probe) : Nat := ipSumCalc (probe.ipBefore ++ ([0, 0] ++ probe.ipAfter))

def ipHeader (probe : Probe) : List UInt8 :=
  probe.ipBefore ++ (beBytes 2 probe.check ++ probe.ipAfter)

def udpHeader (probe : Probe) : List UInt8 :=
  beBytes 2 probe.sport ++ beBytes 2 probe.dport ++ beBytes 2 probe.udpLen ++ [0, 0]

def pktgenHeader (probe : Probe) : List UInt8 :=
  beBytes 4 0xbe9be955 ++ beBytes 4 probe.seqNum ++ beBytes 4 probe.tvSec ++ beBytes 4 probe.tvUsec

def encode (probe : Probe) : List UInt8 :=
  probe.ether ++ (probe.ipHeader ++
    (probe.udpHeader ++ (probe.pktgenHeader ++ zeros probe.padding)))

/-- Everything in front of the generator's own header. -/
def front (probe : Probe) : List UInt8 := probe.ether ++ (probe.ipHeader ++ probe.udpHeader)

@[simp] theorem ipHeader_length (probe : Probe) : probe.ipHeader.length = 20 := by
  simp [ipHeader, ipBefore, ipAfter]

@[simp] theorem udpHeader_length (probe : Probe) : probe.udpHeader.length = 8 := by
  simp [udpHeader]

@[simp] theorem pktgenHeader_length (probe : Probe) : probe.pktgenHeader.length = 16 := by
  simp [pktgenHeader]

theorem front_length (probe : Probe) : probe.front.length = probe.ether.length + 28 := by
  simp [front]

theorem encode_eq (probe : Probe) :
    probe.encode = probe.front ++ (probe.pktgenHeader ++ zeros probe.padding) := by
  simp only [encode, front, List.append_assoc]

theorem encode_length (probe : Probe) :
    probe.encode.length = probe.ether.length + 44 + probe.padding := by
  simp only [encode, List.length_append, ipHeader_length, udpHeader_length, pktgenHeader_length,
    zeros, List.length_replicate]
  omega

theorem slice_ip (probe : Probe) {i width : Nat} (inside : i + width ≤ 20) :
    slice probe.encode (probe.ether.length + i) width = slice probe.ipHeader i width :=
  slice_part rfl (by simpa using inside)

theorem slice_udp (probe : Probe) {i width : Nat} (inside : i + width ≤ 8) :
    slice probe.encode (probe.ether.length + 20 + i) width = slice probe.udpHeader i width := by
  rw [encode, ← List.append_assoc]
  exact slice_part (by simp) (by simpa using inside)

theorem slice_pktgen (probe : Probe) {i width : Nat} (inside : i + width ≤ 16) :
    slice probe.encode (probe.ether.length + 28 + i) width = slice probe.pktgenHeader i width := by
  rw [encode_eq]
  exact slice_part probe.front_length (by simpa using inside)

theorem encode_version (probe : Probe) : slice probe.encode probe.ether.length 1 = [0x45] :=
  probe.slice_ip (i := 0) (by decide)

theorem encode_ipHeader (probe : Probe) :
    slice probe.encode probe.ether.length 20 = probe.ipHeader :=
  probe.slice_ip (i := 0) (by decide)

theorem encode_totLen (probe : Probe) :
    slice probe.encode (probe.ether.length + 2) 2 = beBytes 2 probe.totLen :=
  probe.slice_ip (by decide)

theorem encode_saddr (probe : Probe) :
    slice probe.encode (probe.ether.length + 12) 4 = beBytes 4 probe.saddr :=
  probe.slice_ip (by decide)

theorem encode_daddr (probe : Probe) :
    slice probe.encode (probe.ether.length + 16) 4 = beBytes 4 probe.daddr :=
  probe.slice_ip (by decide)

theorem encode_sport (probe : Probe) :
    slice probe.encode (probe.ether.length + 20) 2 = beBytes 2 probe.sport :=
  probe.slice_udp (i := 0) (by decide)

theorem encode_dport (probe : Probe) :
    slice probe.encode (probe.ether.length + 22) 2 = beBytes 2 probe.dport :=
  probe.slice_udp (i := 2) (by decide)

theorem encode_udpLen (probe : Probe) :
    slice probe.encode (probe.ether.length + 24) 2 = beBytes 2 probe.udpLen :=
  probe.slice_udp (i := 4) (by decide)

theorem encode_seqNum (probe : Probe) :
    slice probe.encode (probe.ether.length + 32) 4 = beBytes 4 probe.seqNum :=
  probe.slice_pktgen (i := 4) (by decide)

theorem encode_tvSec (probe : Probe) :
    slice probe.encode (probe.ether.length + 36) 4 = beBytes 4 probe.tvSec :=
  probe.slice_pktgen (i := 8) (by decide)

theorem encode_tvUsec (probe : Probe) :
    slice probe.encode (probe.ether.length + 40) 4 = beBytes 4 probe.tvUsec :=
  probe.slice_pktgen (i := 12) (by decide)

theorem ipHeader_intact (probe : Probe) : Intact probe.ipHeader := by
  have first : 0 < (words probe.ipBefore).sum := by
    have word : words probe.ipBefore = 0x4500 ::
        words (beBytes 2 probe.totLen ++ [0, 0, 0, 0, 100, 17]) := rfl
    rw [word, List.sum_cons]
    omega
  have intact := intact_of_checksum probe.ipBefore probe.ipAfter (by simp [ipBefore])
    (by simp [ipAfter]) first
  rwa [show leBytes 2 (htons (ipSumCalc (probe.ipBefore ++ ([0, 0] ++ probe.ipAfter)))) =
    beBytes 2 probe.check from leBytes_swapBytes 2 _] at intact

end Probe

theorem writeCheck_probe (probe : Probe) (rest : List UInt8) :
    writeCheck (probe.ether ++ ((probe.ipBefore ++ ([0, 0] ++ probe.ipAfter)) ++ rest))
      probe.ether.length =
      some (probe.ether ++ (probe.ipHeader ++ rest)) := by
  have size : (probe.ipBefore ++ ([0, 0] ++ probe.ipAfter)).length = iphdrSize := by
    simp [iphdrSize, Probe.ipBefore, Probe.ipAfter]
  have header : readAt (probe.ether ++ ((probe.ipBefore ++ ([0, 0] ++ probe.ipAfter)) ++ rest))
      (probe.ether.length + 0) iphdrSize = some (probe.ipBefore ++ ([0, 0] ++ probe.ipAfter)) := by
    rw [readAt_part rfl (by omega), slice, List.drop_zero, List.take_of_length_le size.le]
  have stored : leBytes 2 (htons probe.check) = beBytes 2 probe.check := leBytes_swapBytes 2 _
  have front : probe.ipBefore.length = 10 := by simp [Probe.ipBefore]
  have room : 10 + (beBytes 2 probe.check).length ≤
      (probe.ipBefore ++ ([0, 0] ++ probe.ipAfter)).length := by
    rw [size, beBytes_length]
    decide
  rw [Nat.add_zero] at header
  rw [writeCheck, header]
  change writeAt _ _ (leBytes 2 (htons probe.check)) = _
  rw [stored, writeAt_part rfl room, patch_start front, beBytes_length]
  rfl

/-- The destination after `daddr` in a range of flows, in host byte order. -/
def nextFlow (low high daddr : Nat) : Nat :=
  if low = high then daddr else if daddr = high then low else (daddr + 1) % 2 ^ 32

/-- A generator whose packet is a probe, for the flows from `low` to `high`. -/
structure Carries (state : PktDetails) (probe : Probe) (low high : Nat) : Prop where
  data : state.data = probe.encode
  ip : state.ip = some probe.ether.length
  pktgen : state.pktgen = some (probe.ether.length + 28)
  ipDestMin : state.ipDestMin = htonl low
  ipDestMax : state.ipDestMax = htonl high
  lowFits : low < 2 ^ 32
  highFits : high < 2 ^ 32
  daddrFits : probe.daddr < 2 ^ 32

theorem rotateDest_probe {state : PktDetails} (probe : Probe) {low high : Nat}
    (ip : state.ip = some probe.ether.length) (least : state.ipDestMin = htonl low)
    (greatest : state.ipDestMax = htonl high) (lowFits : low < 2 ^ 32) (highFits : high < 2 ^ 32)
    (daddrFits : probe.daddr < 2 ^ 32) :
    rotateDest state probe.encode =
      some { probe with daddr := nextFlow low high probe.daddr }.encode := by
  have ends : state.ipDestMin = state.ipDestMax ↔ low = high := by
    rw [least, greatest]
    exact swapBytes_inj lowFits highFits
  unfold rotateDest nextFlow
  by_cases single : low = high
  · rw [if_neg (not_not.mpr (ends.mpr single)), if_pos single]
  · rw [if_pos (mt ends.mp single), if_neg single, ip]
    set next := if probe.daddr = high then low else (probe.daddr + 1) % 2 ^ 32
    have found : readAt probe.encode (probe.ether.length + 16) 4 = some (beBytes 4 probe.daddr) :=
      readAt_part rfl (by simp)
    have rotated : leBytes 4 (nextDest state (leValue (beBytes 4 probe.daddr))) =
        beBytes 4 next := by
      have last : htonl probe.daddr = htonl high ↔ probe.daddr = high :=
        swapBytes_inj daddrFits highFits
      have back : ntohl (htonl probe.daddr) = probe.daddr := by
        rw [ntohl, htonl, swapBytes_swapBytes]
        exact Nat.mod_eq_of_lt daddrFits
      have value : nextDest state (htonl probe.daddr) = htonl next := by
        rw [nextDest, greatest, least, back, apply_ite htonl]
        exact if_congr last rfl rfl
      change leBytes 4 (nextDest state (htonl probe.daddr)) = _
      rw [value]
      exact leBytes_swapBytes 4 next
    change (readAt probe.encode (probe.ether.length + 16) 4).bind _ = _
    rw [found]
    change (writeAt _ _ (leBytes 4 (nextDest state (leValue (beBytes 4 probe.daddr))))).bind _ = _
    rw [rotated, Probe.encode, writeAt_part rfl (by simp)]
    change (writeAt _ _ [0, 0]).bind _ = _
    rw [writeAt_part rfl (by rw [patch_length] <;> simp)]
    exact writeCheck_probe { probe with daddr := next } _

theorem writeAt_pktgen (probe after : Probe) (i x : Nat) (inside : i + 4 ≤ 16)
    (ether : after.ether = probe.ether) (ip : after.ipHeader = probe.ipHeader)
    (udp : after.udpHeader = probe.udpHeader) (padding : after.padding = probe.padding)
    (header : patch probe.pktgenHeader i (beBytes 4 x) = after.pktgenHeader) :
    writeAt probe.encode (probe.ether.length + 28 + i) (leBytes 4 (htonl x)) =
      some after.encode := by
  have stored : leBytes 4 (htonl x) = beBytes 4 x := leBytes_swapBytes 4 x
  have same : after.front = probe.front := by rw [Probe.front, ether, ip, udp, Probe.front]
  rw [stored, probe.encode_eq, after.encode_eq, same, padding, ← header]
  exact writeAt_part probe.front_length (by simpa using inside)

def sentProbe (probe : Probe) (seqNum : UInt32) (now : Timeval) (low high : Nat) : Probe :=
  { probe with
    seqNum := seqNum.toNat
    tvSec := (now.tvSec % 2 ^ 32).toNat
    tvUsec := (now.tvUsec % 2 ^ 32).toNat
    daddr := nextFlow low high probe.daddr }

theorem nextFlow_lt {low high daddr : Nat} (lowFits : low < 2 ^ 32) (daddrFits : daddr < 2 ^ 32) :
    nextFlow low high daddr < 2 ^ 32 := by
  unfold nextFlow
  split_ifs <;> omega

theorem sendPkt_probe {state : PktDetails} {probe : Probe} {low high : Nat}
    (carries : Carries state probe low high) (delay : UInt32) (now : Timeval) :
    ∃ after, sendPkt state delay now =
      some ((sentProbe probe state.seqNum now low high).encode, after) ∧
      Carries after (sentProbe probe state.seqNum now low high) low high ∧
      after.seqNum = state.seqNum + 1 ∧
      after.timestamp = addTimespec state.timestamp 0 delay.toNat ∧
      after.trafficGen = state.trafficGen := by
  set sec := (now.tvSec % 2 ^ 32).toNat with secDef
  set usec := (now.tvUsec % 2 ^ 32).toNat with usecDef
  let numbered : Probe := { probe with seqNum := state.seqNum.toNat }
  let dated : Probe := { numbered with tvSec := sec }
  let stamped : Probe := { dated with tvUsec := usec }
  have first := writeAt_pktgen probe numbered 4 state.seqNum.toNat (by decide) rfl rfl rfl rfl rfl
  have second := writeAt_pktgen numbered dated 8 sec (by decide) rfl rfl rfl rfl rfl
  have third := writeAt_pktgen dated stamped 12 usec (by decide) rfl rfl rfl rfl rfl
  have fourth := rotateDest_probe stamped carries.ip carries.ipDestMin carries.ipDestMax
    carries.lowFits carries.highFits carries.daddrFits
  refine ⟨{ state with
      seqNum := state.seqNum + 1
      data := (sentProbe probe state.seqNum now low high).encode
      timestamp := addTimespec state.timestamp 0 delay.toNat }, ?_, ?_, rfl, rfl, rfl⟩
  · unfold sendPkt
    rw [carries.pktgen, carries.data]
    change (writeAt probe.encode (probe.ether.length + 28 + 4)
      (leBytes 4 (htonl state.seqNum.toNat))).bind _ = _
    rw [first]
    change (writeAt numbered.encode (probe.ether.length + 28 + 8)
      (leBytes 4 (htonl sec))).bind _ = _
    rw [second]
    change (writeAt dated.encode (probe.ether.length + 28 + 12) (leBytes 4 (htonl usec))).bind _ = _
    rw [third]
    change (rotateDest state stamped.encode).bind _ = _
    rw [fourth]
    rfl
  · exact ⟨rfl, carries.ip, carries.pktgen, carries.ipDestMin, carries.ipDestMax, carries.lowFits,
      carries.highFits, nextFlow_lt carries.lowFits carries.daddrFits⟩

theorem zeros_split {n k : Nat} (enough : k ≤ n) : zeros n = zeros k ++ zeros (n - k) := by
  rw [zeros, zeros, zeros, List.replicate_append_replicate, Nat.add_sub_cancel' enough]

@[simp] theorem zeros_length (n : Nat) : (zeros n).length = n := List.length_replicate

/-- An address field that got at most six octets. -/
def macField (octets : List UInt8) : List UInt8 := octets ++ zeros (6 - octets.length)

theorem macField_length {octets : List UInt8} (short : octets.length ≤ 6) :
    (macField octets).length = 6 := by
  rw [macField, List.length_append, zeros_length, Nat.add_sub_cancel' short]

/-- The tag control bytes that the bit-field assignment leaves. -/
def tci (det : TrafGenDet) : List UInt8 := leBytes 2 (htons det.vlan.toNat / 2 ^ 4 % 2 ^ 12 * 16)

def etherType (det : TrafGenDet) : List UInt8 :=
  if isTagged det then [0x81, 0] ++ tci det ++ [0x08, 0] else [0x08, 0]

def etherHeader (det : TrafGenDet) : List UInt8 :=
  macField (readMacAddr det.macDst).1 ++ (macField (readMacAddr det.macSrc).1 ++ etherType det)

def headerSize (det : TrafGenDet) : Nat := if isTagged det then 18 else 14

def firstProbe (det : TrafGenDet) : Probe where
  ether := etherHeader det
  totLen := det.pktSize.toNat - headerSize det
  saddr := ntohl (inetAddr det.srcIp)
  daddr := ntohl (inetAddr det.dstIpMin)
  sport := det.udpSrcPort.toNat
  dport := det.udpDstPort.toNat
  udpLen := det.pktSize.toNat - headerSize det - 20
  seqNum := 0
  tvSec := 0
  tvUsec := 0
  padding := det.pktSize.toNat - headerSize det - 44

theorem writeAt_mac (before : List UInt8) {octets : List UInt8} {n : Nat}
    (short : octets.length ≤ 6) (room : 6 ≤ n) : writeAt (before ++ zeros n) before.length octets =
      some (before ++ (macField octets ++ zeros (n - 6))) := by
  have written : writeAt (before ++ (zeros 6 ++ zeros (n - 6))) (before.length + 0) octets =
      some (before ++ (patch (zeros 6) 0 octets ++ zeros (n - 6))) :=
    writeAt_part rfl (by simpa using short)
  rw [← zeros_split room, Nat.add_zero] at written
  rw [written, patch]
  simp only [zeros, List.take_zero, List.nil_append, Nat.zero_add, List.drop_replicate, macField]

theorem writeEtherType_zeros {macs : List UInt8} {det : TrafGenDet} {n : Nat}
    (place : macs.length = 12) (room : 6 ≤ n) :
    writeEtherType (macs ++ zeros n) det =
      some (macs ++ (etherType det ++ zeros (n - (etherType det).length))) := by
  have type : leBytes 2 (htons 0x0800) = [0x08, 0] := leBytes_swapBytes 2 _
  have tag : leBytes 2 (htons 0x8100) = [0x81, 0] := leBytes_swapBytes 2 _
  unfold writeEtherType etherType
  rw [type, tag]
  split_ifs with tagged
  · rw [zeros_split room]
    change (writeAt (macs ++ (zeros 6 ++ zeros (n - 6))) (12 + 0) [0x81, 0]).bind _ = _
    rw [writeAt_part place (by decide)]
    change (setVid (macs ++ ([0x81, 0, 0, 0, 0, 0] ++ zeros (n - 6))) (12 + 2) _).bind _ = _
    rw [setVid, readAt_part place (by decide)]
    change (writeAt (macs ++ ([0x81, 0, 0, 0, 0, 0] ++ zeros (n - 6))) (12 + 2)
      (leBytes 2 (0 + htons det.vlan.toNat / 2 ^ 4 % 2 ^ 12 * 16))).bind _ = _
    rw [Nat.zero_add, writeAt_part place (by simp)]
    change writeAt (macs ++ (([0x81, 0] ++ (tci det ++ [0, 0])) ++ zeros (n - 6)))
      (12 + 4) [0x08, 0] = _
    rw [writeAt_part place (by simp [tci])]
    rfl
  · rw [zeros_split (show 2 ≤ n by omega)]
    change writeAt (macs ++ (zeros 2 ++ zeros (n - 2))) (12 + 0) [0x08, 0] = _
    rw [writeAt_part place (by decide)]
    rfl

theorem writeIp_zeros {ether : List UInt8} {det : TrafGenDet} {n : Nat} (room : 20 ≤ n)
    {probe : Probe} (totLen : probe.totLen = n) (saddr : probe.saddr = ntohl (inetAddr det.srcIp))
    (daddr : probe.daddr = ntohl (inetAddr det.dstIpMin)) :
    writeIp (ether ++ zeros n) ether.length det =
      some (ether ++ ((probe.ipBefore ++ ([0, 0] ++ probe.ipAfter)) ++ zeros (n - 20))) := by
  have length : (ether ++ zeros n).length - ether.length = n := by simp
  have size : leBytes 2 (htons n) = beBytes 2 n := leBytes_swapBytes 2 n
  have source : leBytes 4 (inetAddr det.srcIp) = beBytes 4 probe.saddr := by
    rw [saddr]
    exact (beBytes_swapBytes 4 _).symm
  have target : leBytes 4 (inetAddr det.dstIpMin) = beBytes 4 probe.daddr := by
    rw [daddr]
    exact (beBytes_swapBytes 4 _).symm
  unfold writeIp
  rw [length, size, source, target, zeros_split room]
  change (writeAt (ether ++ (zeros 20 ++ zeros (n - 20))) (ether.length + 2)
    (beBytes 2 n)).bind _ = _
  rw [writeAt_part rfl (by simp)]
  change (readAt (ether ++ (([0, 0] ++ (beBytes 2 n ++ zeros 16)) ++ zeros (n - 20)))
    (ether.length + 0) 1).bind _ = _
  rw [readAt_part rfl (by simp)]
  change (writeAt (ether ++ (([0, 0] ++ (beBytes 2 n ++ zeros 16)) ++ zeros (n - 20)))
    (ether.length + 0) [0x45]).bind _ = _
  rw [writeAt_part rfl (by simp)]
  change (writeAt (ether ++ (([0x45, 0] ++ (beBytes 2 n ++ zeros 16)) ++ zeros (n - 20)))
    (ether.length + 8) [100]).bind _ = _
  rw [writeAt_part rfl (by simp)]
  change (writeAt (ether ++ (([0x45, 0] ++ (beBytes 2 n ++ ([0, 0, 0, 0, 100] ++ zeros 11))) ++
    zeros (n - 20))) (ether.length + 9) [17]).bind _ = _
  rw [writeAt_part rfl (by simp)]
  change (writeAt (ether ++ (([0x45, 0] ++ (beBytes 2 n ++ ([0, 0, 0, 0, 100, 17] ++ zeros 10))) ++
    zeros (n - 20))) (ether.length + 12) (beBytes 4 probe.saddr)).bind _ = _
  rw [writeAt_part rfl (by simp)]
  change writeAt (ether ++ (([0x45, 0] ++ (beBytes 2 n ++ ([0, 0, 0, 0, 100, 17] ++
    ([0, 0] ++ (beBytes 4 probe.saddr ++ zeros 4))))) ++ zeros (n - 20))) (ether.length + 16)
    (beBytes 4 probe.daddr) = _
  rw [writeAt_part rfl (by simp), ← totLen]
  rfl

theorem writeUdp_zeros (probe : Probe) {before : List UInt8} {det : TrafGenDet} {ip n : Nat}
    (place : before.length = ip + 20) (room : 24 ≤ n) (sport : probe.sport = det.udpSrcPort.toNat)
    (dport : probe.dport = det.udpDstPort.toNat) (udpLen : probe.udpLen = n)
    (seqNum : probe.seqNum = 0) (tvSec : probe.tvSec = 0) (tvUsec : probe.tvUsec = 0) :
    writeUdp (before ++ zeros n) ip det =
      some (before ++ ((probe.udpHeader ++ probe.pktgenHeader) ++ zeros (n - 24))) := by
  have length : (before ++ ((beBytes 2 probe.sport ++ (beBytes 2 probe.dport ++ zeros 20)) ++
      zeros (n - 24))).length - ip - iphdrSize = n := by
    simp only [List.length_append, place, zeros_length, beBytes_length, iphdrSize]
    omega
  have source : leBytes 2 (htons det.udpSrcPort.toNat) = beBytes 2 probe.sport := by
    rw [sport]
    exact leBytes_swapBytes 2 _
  have target : leBytes 2 (htons det.udpDstPort.toNat) = beBytes 2 probe.dport := by
    rw [dport]
    exact leBytes_swapBytes 2 _
  have size : leBytes 2 (htons n) = beBytes 2 n := leBytes_swapBytes 2 n
  have magic : leBytes 4 (htonl 0xbe9be955) = beBytes 4 0xbe9be955 := leBytes_swapBytes 4 _
  unfold writeUdp
  rw [source, target, magic, zeros_split room]
  change (writeAt (before ++ (zeros 24 ++ zeros (n - 24))) (ip + 20 + 0)
    (beBytes 2 probe.sport)).bind _ = _
  rw [writeAt_part place (by simp)]
  change (writeAt (before ++ ((beBytes 2 probe.sport ++ zeros 22) ++ zeros (n - 24))) (ip + 20 + 2)
    (beBytes 2 probe.dport)).bind _ = _
  rw [writeAt_part place (by simp)]
  change (writeAt (before ++ ((beBytes 2 probe.sport ++ (beBytes 2 probe.dport ++ zeros 20)) ++
    zeros (n - 24))) (ip + 20 + 4) (leBytes 2 (htons ((before ++ ((beBytes 2 probe.sport ++
    (beBytes 2 probe.dport ++ zeros 20)) ++ zeros (n - 24))).length - ip - iphdrSize)))).bind _ = _
  rw [length, size, writeAt_part place (by simp)]
  change writeAt (before ++ ((beBytes 2 probe.sport ++ (beBytes 2 probe.dport ++ (beBytes 2 n ++
    zeros 18))) ++ zeros (n - 24))) (ip + 20 + 8) (beBytes 4 0xbe9be955) = _
  rw [writeAt_part place (by simp), Probe.udpHeader, Probe.pktgenHeader, udpLen, seqNum,
    tvSec, tvUsec]
  rfl

/-- The details a caller fills in: the address strings spell at most six octets. -/
structure WellFormed (det : TrafGenDet) : Prop where
  macDst : (readMacAddr det.macDst).1.length ≤ 6
  macSrc : (readMacAddr det.macSrc).1.length ≤ 6

theorem le_headerSize (det : TrafGenDet) : 14 ≤ headerSize det := by
  unfold headerSize
  split_ifs <;> decide

theorem etherType_length (det : TrafGenDet) : (etherType det).length = headerSize det - 12 := by
  unfold etherType headerSize
  split_ifs
  · simp [tci]
  · rfl

theorem etherHeader_length {det : TrafGenDet} (wellFormed : WellFormed det) :
    (etherHeader det).length = headerSize det := by
  have least := le_headerSize det
  rw [etherHeader, List.length_append, List.length_append, macField_length wellFormed.macDst,
    macField_length wellFormed.macSrc, etherType_length]
  omega

/-- Details of which a packet can be built: its length is an `int`, it passes the check of
`innitialize_generator_packet`, and the headers fit. -/
structure Buildable (det : TrafGenDet) : Prop where
  wellFormed : WellFormed det
  small : det.pktSize.toNat < 2 ^ 31
  checked : 58 ≤ det.pktSize.toNat
  room : headerSize det + 44 ≤ det.pktSize.toNat

/-! The writes of `innitialize_generator_packet`, one after the other into an array of zeros. -/

section Writes
variable {det : TrafGenDet} (buildable : Buildable det)
include buildable

theorem writeMacDst_zeros :
    writeAt (zeros det.pktSize.toNat) 0 (readMacAddr det.macDst).1 =
      some (macField (readMacAddr det.macDst).1 ++ zeros (det.pktSize.toNat - 6)) := by
  have room := buildable.room
  exact writeAt_mac [] buildable.wellFormed.macDst (by omega)

theorem writeMacSrc_zeros :
    writeAt (macField (readMacAddr det.macDst).1 ++ zeros (det.pktSize.toNat - 6)) 6
        (readMacAddr det.macSrc).1 =
      some ((macField (readMacAddr det.macDst).1 ++ macField (readMacAddr det.macSrc).1) ++
        zeros (det.pktSize.toNat - 12)) := by
  have checked := buildable.checked
  have written := writeAt_mac (macField (readMacAddr det.macDst).1) buildable.wellFormed.macSrc
    (n := det.pktSize.toNat - 6) (by omega)
  rwa [macField_length buildable.wellFormed.macDst, ← List.append_assoc, Nat.sub_sub] at written

theorem writeEtherType_header :
    writeEtherType ((macField (readMacAddr det.macDst).1 ++ macField (readMacAddr det.macSrc).1) ++
        zeros (det.pktSize.toNat - 12)) det =
      some (etherHeader det ++ zeros (det.pktSize.toNat - headerSize det)) := by
  have checked := buildable.checked
  have least := le_headerSize det
  have macs :
      (macField (readMacAddr det.macDst).1 ++ macField (readMacAddr det.macSrc).1).length = 12 := by
    rw [List.length_append, macField_length buildable.wellFormed.macDst,
      macField_length buildable.wellFormed.macSrc]
  have rest : det.pktSize.toNat - 12 - (etherType det).length = det.pktSize.toNat -
      headerSize det := by
    rw [etherType_length]
    omega
  rw [writeEtherType_zeros macs (by omega), rest]
  simp only [etherHeader, List.append_assoc]

theorem writeIp_header :
    writeIp (etherHeader det ++ zeros (det.pktSize.toNat - headerSize det)) (headerSize det) det =
      some (etherHeader det ++
        (((firstProbe det).ipBefore ++ ([0, 0] ++ (firstProbe det).ipAfter)) ++
        zeros (det.pktSize.toNat - headerSize det - 20))) := by
  have room := buildable.room
  have ether := etherHeader_length buildable.wellFormed
  rw [← ether]
  exact writeIp_zeros (by omega) (congrArg (det.pktSize.toNat - ·) ether.symm) rfl rfl

theorem writeCheck_header (tail : List UInt8) :
    writeCheck (etherHeader det ++ (((firstProbe det).ipBefore ++
        ([0, 0] ++ (firstProbe det).ipAfter)) ++ tail)) (headerSize det) =
      some ((etherHeader det ++ (firstProbe det).ipHeader) ++ tail) := by
  rw [List.append_assoc (etherHeader det), ← etherHeader_length buildable.wellFormed]
  exact writeCheck_probe (firstProbe det) _

theorem writeUdp_header :
    writeUdp ((etherHeader det ++ (firstProbe det).ipHeader) ++
        zeros (det.pktSize.toNat - headerSize det - 20)) (headerSize det) det =
      some (firstProbe det).encode := by
  have room := buildable.room
  have place : (etherHeader det ++ (firstProbe det).ipHeader).length = headerSize det + 20 := by
    rw [List.length_append, etherHeader_length buildable.wellFormed, Probe.ipHeader_length]
  have enough : 24 ≤ det.pktSize.toNat - headerSize det - 20 := by omega
  have padding : det.pktSize.toNat - headerSize det - 20 - 24 = (firstProbe det).padding :=
    Nat.sub_sub _ 20 24
  rw [writeUdp_zeros (firstProbe det) place enough rfl rfl rfl rfl rfl rfl, padding]
  simp only [Probe.encode, List.append_assoc]
  rfl

end Writes

theorem innitialize_probe (state : PktDetails) {det : TrafGenDet} (buildable : Buildable det) :
    innitializeGeneratorPacket state det = some (1,
      { state with
        data := (firstProbe det).encode
        ip := some (headerSize det)
        ipDestMin := inetAddr det.dstIpMin
        ipDestMax := inetAddr det.dstIpMax
        pktgen := some (headerSize det + 28) },
      { det with
        macDst := (readMacAddr det.macDst).2
        macSrc := (readMacAddr det.macSrc).2 }) := by
  have small := buildable.small
  have checked := buildable.checked
  have dataLen : int32 det.pktSize.toNat = det.pktSize.toNat := int32_of_range (by omega) (by omega)
  unfold innitializeGeneratorPacket
  dsimp only
  rw [dataLen, if_neg (by omega), Int.toNat_natCast, List.length_replicate,
    if_neg (by simp only [etherVlanHeaderSize, iphdrSize, tcphdrSize]; omega)]
  change (writeAt (zeros _) 0 _).bind _ = _
  rw [writeMacDst_zeros buildable]
  change (writeAt (macField _ ++ zeros _) 6 _).bind _ = _
  rw [writeMacSrc_zeros buildable]
  change (writeEtherType _ det).bind _ = _
  rw [writeEtherType_header buildable]
  change (writeIp _ (headerSize det) det).bind _ = _
  rw [writeIp_header buildable]
  change (writeCheck _ (headerSize det)).bind _ = _
  rw [writeCheck_header buildable]
  change (writeUdp _ (headerSize det) det).bind _ = _
  rw [writeUdp_header buildable]
  rfl

theorem inetAddr_lt (s : List Char) : inetAddr s < 2 ^ 32 := by
  unfold inetAddr
  split
  · exact htonl_lt _
  · decide

def lowFlow (det : TrafGenDet) : Nat := ntohl (inetAddr det.dstIpMin)
def highFlow (det : TrafGenDet) : Nat := ntohl (inetAddr det.dstIpMax)

theorem fresh_carries (state : PktDetails) {det : TrafGenDet} (buildable : Buildable det) :
    ∃ fresh det', innitializeGeneratorPacket state det = some (1, fresh, det') ∧
      Carries fresh (firstProbe det) (lowFlow det) (highFlow det) ∧
      fresh.seqNum = state.seqNum ∧ fresh.trafficGen = state.trafficGen := by
  have back : ∀ s, inetAddr s = htonl (ntohl (inetAddr s)) := by
    intro s
    rw [htonl, ntohl, swapBytes_swapBytes]
    exact (Nat.mod_eq_of_lt (inetAddr_lt s)).symm
  have ether := etherHeader_length buildable.wellFormed
  refine ⟨_, _, innitialize_probe state buildable, ?_, rfl, rfl⟩
  exact ⟨rfl, congrArg some ether.symm, congrArg (fun n => some (n + 28)) ether.symm,
    back det.dstIpMin, back det.dstIpMax, ntohl_lt _, ntohl_lt _, ntohl_lt _⟩

end Oflops.Traffic.Wire
