import Oflops.Traffic.Schedule

/-! The stream of packets of one generator: sequence numbers, times, lengths, intact headers, and
destinations that go round the range of flows. -/

namespace Oflops.Traffic.Flows
open Lib.Bytes Lib.Record Time Packet Checksum Wire UserLoop Schedule

def field (frame : List UInt8) (offset width : Nat) : Nat := beValue (slice frame offset width)

def flowCount (det : TrafGenDet) : Nat := highFlow det - lowFlow det + 1

/-- What the `k`-th packet of a generator looks like; `base` is where its IP header starts. -/
structure KthPacket (det : TrafGenDet) (base k : Nat) (now : Timeval) (frame : List UInt8) :
    Prop where
  size : frame.length = det.pktSize.toNat
  seqNum : field frame (base + 32) 4 = k % 2 ^ 32
  tvSec : field frame (base + 36) 4 = (now.tvSec % 2 ^ 32).toNat
  tvUsec : field frame (base + 40) 4 = (now.tvUsec % 2 ^ 32).toNat
  version : slice frame base 1 = [0x45]
  intact : Intact (slice frame base 20)
  totLen : field frame (base + 2) 2 = det.pktSize.toNat - base
  udpLen : field frame (base + 24) 2 = det.pktSize.toNat - base - 20
  dest : field frame (base + 16) 4 =
    if flowCount det = 1 then lowFlow det else lowFlow det + (k + 1) % flowCount det

def probeAt (det : TrafGenDet) (k seqNum tvSec tvUsec : Nat) : Probe :=
  { firstProbe det with seqNum, tvSec, tvUsec, daddr := lowFlow det + k % flowCount det }

/-- The frame that is sent after `k` others, at this reading of the clock. -/
def kthFrame (det : TrafGenDet) (k : Nat) (now : Timeval) : List UInt8 :=
  (probeAt det (k + 1) (k % 2 ^ 32) (now.tvSec % 2 ^ 32).toNat
    (now.tvUsec % 2 ^ 32).toNat).encode

/-- A generator that has sent `k` packets. -/
structure At (det : TrafGenDet) (k : Nat) (state : PktDetails) : Prop where
  carries : ∃ seqNum tvSec tvUsec,
    Carries state (probeAt det k seqNum tvSec tvUsec) (lowFlow det) (highFlow det)
  seqNum : state.seqNum = UInt32.ofNat k

theorem nextFlow_eq {low high : Nat} (ordered : low ≤ high) (fits : high < 2 ^ 32) (k : Nat) :
    nextFlow low high (low + k % (high - low + 1)) = low + (k + 1) % (high - low + 1) := by
  have inside := Nat.mod_lt k (show 0 < high - low + 1 by omega)
  unfold nextFlow
  split_ifs with single last
  · subst single
    simp [Nat.mod_one]
  · have wraps : k % (high - low + 1) + 1 = high - low + 1 := by omega
    rw [← Nat.mod_add_mod, wraps, Nat.mod_self, Nat.add_zero]
  · have goes : (k + 1) % (high - low + 1) = k % (high - low + 1) + 1 := by
      rw [← Nat.mod_add_mod]
      exact Nat.mod_eq_of_lt (by omega)
    rw [goes]
    exact Nat.mod_eq_of_lt (by omega)

/-- The conditions on the details under which a generator works: among them that the MAC strings
spell at most six octets, since a longer `mac_src` is written over the headers behind it, as far as
the checksum. -/
structure Usable (det : TrafGenDet) : Prop where
  wellFormed : WellFormed det
  least : 64 ≤ det.pktSize.toNat
  greatest : det.pktSize.toNat ≤ 1500
  ordered : lowFlow det ≤ highFlow det

theorem Usable.buildable {det : TrafGenDet} (usable : Usable det) : Buildable det := by
  have large := usable.least
  have small := usable.greatest
  have header : headerSize det ≤ 18 := by
    unfold headerSize
    split_ifs <;> decide
  exact ⟨usable.wellFormed, by omega, by omega, by omega⟩

theorem kthFrame_kthPacket {det : TrafGenDet} (usable : Usable det) (k : Nat) (now : Timeval) :
    KthPacket det (headerSize det) k now (kthFrame det k now) := by
  have ether := etherHeader_length usable.wellFormed
  have bounds : 14 ≤ headerSize det ∧ headerSize det ≤ 18 := by
    unfold headerSize
    split_ifs <;> decide
  have large := usable.least
  have smallSize := usable.greatest
  unfold kthFrame
  set probe := probeAt det (k + 1) (k % 2 ^ 32) (now.tvSec % 2 ^ 32).toNat
    (now.tvUsec % 2 ^ 32).toNat
  have place : probe.ether.length = headerSize det := ether
  have inRange := Nat.mod_lt (k + 1) (show 0 < flowCount det from Nat.succ_pos _)
  have top : highFlow det < 2 ^ 32 := ntohl_lt _
  have count : flowCount det = highFlow det - lowFlow det + 1 := rfl
  have ordered := usable.ordered
  have total : probe.totLen = det.pktSize.toNat - headerSize det := rfl
  have udp : probe.udpLen = det.pktSize.toNat - headerSize det - 20 := rfl
  have dest : probe.daddr = lowFlow det + (k + 1) % flowCount det := rfl
  have seq : probe.seqNum = k % 2 ^ 32 := rfl
  have sec : probe.tvSec = (now.tvSec % 2 ^ 32).toNat := rfl
  have usec : probe.tvUsec = (now.tvUsec % 2 ^ 32).toNat := rfl
  rw [← place]
  constructor
  · rw [Probe.encode_length, place]
    change headerSize det + 44 + (det.pktSize.toNat - headerSize det - 44) = _
    omega
  · rw [field, probe.encode_seqNum, beValue_beBytes_of_lt (by omega), seq]
  · rw [field, probe.encode_tvSec, beValue_beBytes_of_lt (by omega), sec]
  · rw [field, probe.encode_tvUsec, beValue_beBytes_of_lt (by omega), usec]
  · exact probe.encode_version
  · rw [probe.encode_ipHeader]
    exact probe.ipHeader_intact
  · rw [field, probe.encode_totLen, beValue_beBytes_of_lt (by omega), total, place]
  · rw [field, probe.encode_udpLen, beValue_beBytes_of_lt (by omega), udp, place]
  · rw [field, probe.encode_daddr, beValue_beBytes_of_lt (by omega), dest]
    split_ifs with single
    · rw [single, Nat.mod_one, Nat.add_zero]
    · rfl

theorem fresh_at {det : TrafGenDet} (usable : Usable det) (ix : Nat) (timestamp : Timespec) :
    ∃ fresh det', innitializeGeneratorPacket (blank ix timestamp) det = some (1, fresh, det') ∧
      At det 0 fresh := by
  obtain ⟨fresh, det', built, carries, seqNum, -⟩ :=
    fresh_carries (blank ix timestamp) usable.buildable
  refine ⟨fresh, det', built, ⟨⟨0, 0, 0, ?_⟩, seqNum⟩⟩
  have same : probeAt det 0 0 0 0 = firstProbe det := by
    unfold probeAt
    rw [Nat.zero_mod, Nat.add_zero]
    rfl
  rwa [same]

theorem At.send {det : TrafGenDet} (usable : Usable det) {k : Nat} {state : PktDetails}
    (here : At det k state) (wait : UInt32) (now : Timeval) :
    ∃ after, sendPkt state wait now = some (kthFrame det k now, after) ∧ At det (k + 1) after := by
  obtain ⟨⟨seqNum, tvSec, tvUsec, carries⟩, number⟩ := here
  obtain ⟨after, sent, carries', number', -, -⟩ := sendPkt_probe carries wait now
  have next : sentProbe (probeAt det k seqNum tvSec tvUsec) state.seqNum now (lowFlow det)
      (highFlow det) = probeAt det (k + 1) (k % 2 ^ 32) (now.tvSec % 2 ^ 32).toNat
        (now.tvUsec % 2 ^ 32).toNat := by
    have rotated := nextFlow_eq usable.ordered carries.highFits k
    unfold sentProbe probeAt
    rw [number, UInt32.toNat_ofNat']
    dsimp only
    rw [show flowCount det = highFlow det - lowFlow det + 1 from rfl, rotated]
  rw [next] at sent carries'
  refine ⟨after, sent, ⟨_, _, _, carries'⟩, ?_⟩
  rw [number', number]
  simp

/-- The packets of a generator that is asked to send at the given readings of the clock. -/
def sendAll (wait : UInt32) (state : PktDetails) :
    List Timeval → Option (List (List UInt8) × PktDetails)
  | [] => some ([], state)
  | now :: nows => do
    let (frame, state) ← sendPkt state wait now
    let (frames, state) ← sendAll wait state nows
    some (frame :: frames, state)

theorem At.sendAll {det : TrafGenDet} (usable : Usable det) {k : Nat} {state : PktDetails}
    (here : At det k state) (wait : UInt32) (nows : List Timeval) :
    ∃ frames after, sendAll wait state nows = some (frames, after) ∧ frames.length = nows.length ∧
      ∀ i now frame, nows[i]? = some now → frames[i]? = some frame →
        frame = kthFrame det (k + i) now := by
  induction nows generalizing k state with
  | nil => exact ⟨[], state, rfl, rfl, by simp⟩
  | cons now nows ih =>
    obtain ⟨next, sent, here'⟩ := here.send usable wait now
    obtain ⟨frames, after, rest, length, packets⟩ := ih here'
    refine ⟨kthFrame det k now :: frames, after, ?_, by simp [length], ?_⟩
    · simp only [Flows.sendAll, sent, rest, Option.bind_eq_bind, Option.bind_some]
    · intro i now' frame' read found
      cases i with
      | zero =>
        cases read
        cases found
        rfl
      | succ i =>
        rw [Nat.add_comm i 1, ← Nat.add_assoc]
        exact packets i now' frame' read found

/-- Whatever the other generators do, the packets of one generator come in its own order. -/
theorem userLoop_packets {channels : List Channel} {generators after : List PktDetails}
    {readings : List Timeval} {sent : List Sent}
    (ran : userLoop channels generators readings = some (sent, after)) {det : TrafGenDet}
    (usable : Usable det) {g k : Nat} {state : PktDetails} (found : generators[g]? = some state)
    (here : At det k state) :
    ∀ i packet, (sent.filter (fun packet => packet.generator = g))[i]? = some packet →
      packet.frame = kthFrame det (k + i) packet.now := by
  induction readings generalizing generators sent k state with
  | nil =>
    cases ran
    simp
  | cons now readings ih =>
    rcases userLoop_cases ran with rest |
      ⟨nr, chosen, chosenDet, frame, state', later, -, own, -, done, rest, rfl⟩
    · exact ih rest found here
    · by_cases mine : nr = g
      · subst mine
        cases own.symm.trans found
        obtain ⟨next, sent', here'⟩ := here.send usable chosenDet.delay now
        cases done.symm.trans sent'
        have inside : nr < generators.length := (List.getElem?_eq_some_iff.mp found).1
        have later' := ih rest (List.getElem?_set_self inside) here'
        intro i packet' member
        simp only [decide_true, List.filter_cons_of_pos] at member
        cases i with
        | zero =>
          cases member
          rfl
        | succ i =>
          rw [Nat.add_comm i 1, ← Nat.add_assoc]
          exact later' i packet' member
      · have later' := ih rest ((List.getElem?_set_ne mine).trans found) here
        intro i packet' member
        simp only [mine, decide_false, Bool.false_eq_true, not_false_eq_true,
          List.filter_cons_of_neg] at member
        exact later' i packet' member

theorem existsUnique_round {n r : Nat} (inside : r < n) (start : Nat) :
    ∃! i, i < n ∧ (start + i) % n = r := by
  have positive : 0 < n := by omega
  have low := Nat.mod_lt start positive
  have split := Nat.mod_add_div start n
  have hit : (start + (r + (n - start % n)) % n) % n = r := by
    calc (start + (r + (n - start % n)) % n) % n
        = (start + (r + (n - start % n))) % n := Nat.add_mod_mod _ _ _
      _ = (r + n * (start / n + 1)) % n := by
        congr 1
        rw [Nat.mul_add, Nat.mul_one]
        omega
      _ = r := by rw [Nat.add_mul_mod_self_left, Nat.mod_eq_of_lt inside]
  refine ⟨(r + (n - start % n)) % n, ⟨Nat.mod_lt _ positive, hit⟩, ?_⟩
  intro other ⟨small, place⟩
  have same : start + other ≡ start + (r + (n - start % n)) % n [MOD n] := place.trans hit.symm
  exact (Nat.ModEq.add_left_cancel' start same).eq_of_lt_of_lt small (Nat.mod_lt _ positive)

/-- A generator's packets follow its details: each packet on its own, a whole round of flows in
every window of that many packets, and all of it however the loop interleaves the generators. -/
theorem packets_follow_details {det : TrafGenDet} (usable : Usable det) (ix : Nat)
    (timestamp : Timespec) :
    ∃ fresh det', innitializeGeneratorPacket (blank ix timestamp) det = some (1, fresh, det') ∧
      (∀ nows, ∃ frames after, sendAll det.delay fresh nows = some (frames, after) ∧
        frames.length = nows.length ∧
        (∀ k now frame, nows[k]? = some now → frames[k]? = some frame →
          KthPacket det (headerSize det) k now frame) ∧
        ∀ start, start + flowCount det ≤ frames.length →
          ∀ address, lowFlow det ≤ address → address ≤ highFlow det →
            ∃! i, i < flowCount det ∧ ∃ frame, frames[start + i]? = some frame ∧
              field frame (headerSize det + 16) 4 = address) ∧
      ∀ channels generators readings sent after g, generators[g]? = some fresh →
        userLoop channels generators readings = some (sent, after) →
        ∀ k packet, (sent.filter (fun packet => packet.generator = g))[k]? = some packet →
          KthPacket det (headerSize det) k packet.now packet.frame := by
  obtain ⟨fresh, det', built, here⟩ := fresh_at usable ix timestamp
  refine ⟨fresh, det', built, ?_, ?_⟩
  · intro nows
    obtain ⟨frames, after, sent, length, packets⟩ := here.sendAll usable det.delay nows
    have packets : ∀ k now frame, nows[k]? = some now → frames[k]? = some frame →
        KthPacket det (headerSize det) k now frame := by
      intro k now frame read found
      rw [packets k now frame read found, Nat.zero_add]
      exact kthFrame_kthPacket usable k now
    refine ⟨frames, after, sent, length, packets, ?_⟩
    intro start window address low high
    have count : flowCount det = highFlow det - lowFlow det + 1 := rfl
    have dest : ∀ i, i < flowCount det → ((∃ frame, frames[start + i]? = some frame ∧
        field frame (headerSize det + 16) 4 = address) ↔
          (start + 1 + i) % flowCount det = address - lowFlow det) := by
      intro i inside
      have present : start + i < nows.length := by omega
      have found : frames[start + i]? = some frames[start + i] :=
        List.getElem?_eq_getElem (by omega)
      have packet := packets (start + i) nows[start + i] frames[start + i]
        (List.getElem?_eq_getElem present) found
      have value : field frames[start + i] (headerSize det + 16) 4 =
          lowFlow det + (start + 1 + i) % flowCount det := by
        rw [packet.dest, Nat.add_right_comm]
        split_ifs with single
        · rw [single, Nat.mod_one, Nat.add_zero]
        · rfl
      rw [found]
      simp only [Option.some.injEq, exists_eq_left', value]
      omega
    obtain ⟨i, ⟨inside, place⟩, unique⟩ :=
      existsUnique_round (show address - lowFlow det < flowCount det by omega) (start + 1)
    refine ⟨i, ⟨inside, (dest i inside).mpr place⟩, ?_⟩
    intro other ⟨inside', hit⟩
    exact unique other ⟨inside', (dest other inside').mp hit⟩
  · intro channels generators readings sent after g found ran k packet member
    rw [userLoop_packets ran usable found here k packet member, Nat.zero_add]
    exact kthFrame_kthPacket usable k packet.now

theorem packets_follow_details_three_flows :
    let det : TrafGenDet :=
      { srcIp := ['1', '0', '.', '1'], dstIpMax := ['1', '0', '.', '4'],
        dstIpMin := ['1', '0', '.', '2'], macDst := ['0', '0', ':', '1', '5'],
        macSrc := ['0', '0', ':', '1', 'e'],
        udpSrcPort := 8080, udpDstPort := 8080, pktSize := 64, vlan := 0xffff, delay := 1000 }
    flowCount det = 3 ∧ ∃ fresh det' frames after,
      innitializeGeneratorPacket (blank 0 ⟨0, 0⟩) det = some (1, fresh, det') ∧
        sendAll 1000 fresh [⟨5, 7⟩, ⟨5, 8⟩] = some (frames, after) ∧
        ∀ frame, frames[1]? = some frame → KthPacket det 14 1 ⟨5, 8⟩ frame := by
  intro det
  have usable : Usable det := ⟨⟨by decide, by decide⟩, by decide, by decide, by decide⟩
  obtain ⟨fresh, det', built, alone, -⟩ := packets_follow_details usable 0 ⟨0, 0⟩
  obtain ⟨frames, after, sent, -, packets, -⟩ := alone [⟨5, 7⟩, ⟨5, 8⟩]
  exact ⟨by decide, fresh, det', frames, after, built, sent,
    fun frame => packets 1 ⟨5, 8⟩ frame rfl⟩

end Oflops.Traffic.Flows
