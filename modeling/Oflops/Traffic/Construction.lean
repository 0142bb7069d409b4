import Oflops.Traffic.Due
import Oflops.Traffic.RoundTrip

/-! Whether the user-space generator stays inside its packets, from `init_traffic_gen` through
every `send_pkt`: `init_traffic_gen` ignores what `innitialize_generator_packet` returns. -/

namespace Oflops.Traffic.Construction
open Lib.Bytes Lib.MachineInt Lib.Record Lib.Schedule Time Packet Wire UserLoop Schedule Due
  RoundTrip

theorem setVid_length {data after : List UInt8} {offset value : Nat}
    (done : setVid data offset value = some after) : after.length = data.length := by
  obtain ⟨unit, -, written⟩ := Option.bind_eq_some_iff.mp done
  exact (writeAt_some written).2

theorem writeEtherType_length {data after : List UInt8} {det : TrafGenDet}
    (done : writeEtherType data det = some after) : after.length = data.length := by
  unfold writeEtherType at done
  split_ifs at done
  · obtain ⟨first, tpid, done⟩ := Option.bind_eq_some_iff.mp done
    obtain ⟨second, vid, type⟩ := Option.bind_eq_some_iff.mp done
    rw [(writeAt_some type).2, setVid_length vid, (writeAt_some tpid).2]
  · exact (writeAt_some done).2

theorem writeIp_length {data after : List UInt8} {ip : Nat} {det : TrafGenDet}
    (done : writeIp data ip det = some after) : after.length = data.length := by
  obtain ⟨_, totLen, done⟩ := Option.bind_eq_some_iff.mp done
  obtain ⟨_, -, done⟩ := Option.bind_eq_some_iff.mp done
  obtain ⟨_, version, done⟩ := Option.bind_eq_some_iff.mp done
  obtain ⟨_, ttl, done⟩ := Option.bind_eq_some_iff.mp done
  obtain ⟨_, protocol, done⟩ := Option.bind_eq_some_iff.mp done
  obtain ⟨_, saddr, daddr⟩ := Option.bind_eq_some_iff.mp done
  rw [(writeAt_some daddr).2, (writeAt_some saddr).2, (writeAt_some protocol).2,
    (writeAt_some ttl).2, (writeAt_some version).2, (writeAt_some totLen).2]

theorem writeUdp_length {data after : List UInt8} {ip : Nat} {det : TrafGenDet}
    (done : writeUdp data ip det = some after) : after.length = data.length := by
  obtain ⟨_, source, done⟩ := Option.bind_eq_some_iff.mp done
  obtain ⟨_, dest, done⟩ := Option.bind_eq_some_iff.mp done
  obtain ⟨_, len, magic⟩ := Option.bind_eq_some_iff.mp done
  rw [(writeAt_some magic).2, (writeAt_some len).2, (writeAt_some dest).2, (writeAt_some source).2]

/-- The headers fit, and the length is an `int`. -/
def Roomy (det : TrafGenDet) : Prop :=
  headerSize det + 44 ≤ det.pktSize.toNat ∧ det.pktSize.toNat < 2 ^ 31

instance (det : TrafGenDet) : Decidable (Roomy det) := inferInstanceAs (Decidable (_ ∧ _))

/-- A generator made of these details: its place in the packet is set unless the packet was
found too small. -/
structure Made (state : PktDetails) (det : TrafGenDet) : Prop where
  small : det.pktSize.toNat < 2 ^ 31
  size : state.data.length = det.pktSize.toNat
  place : ∀ pktgen, state.pktgen = some pktgen → pktgen = headerSize det + 28

/-- What a packet that is built makes of the generator and of the details: it is found too small, or
all headers are placed. -/
theorem innitialize_cases {state after : PktDetails} {det det' : TrafGenDet} {code : Nat}
    (built : innitializeGeneratorPacket state det = some (code, after, det')) :
    det.pktSize.toNat < 2 ^ 31 ∧ ∃ data : List UInt8, data.length = det.pktSize.toNat ∧
      (det.pktSize.toNat < 58 ∧ code = 0 ∧ after = { state with data } ∧ det' = det ∨
        58 ≤ det.pktSize.toNat ∧ code = 1 ∧
          after = { state with
            data
            ip := some (headerSize det)
            ipDestMin := inetAddr det.dstIpMin
            ipDestMax := inetAddr det.dstIpMax
            pktgen := some (headerSize det + 28) } ∧
          det' = { det with
            macDst := (readMacAddr det.macDst).2
            macSrc := (readMacAddr det.macSrc).2 }) := by
  have small : det.pktSize.toNat < 2 ^ 31 := by
    by_contra large
    rw [innitialize_oversized (not_lt.mp large)] at built
    cases built
  have dataLen : int32 det.pktSize.toNat = det.pktSize.toNat := int32_of_range (by omega) (by omega)
  have least : etherVlanHeaderSize + iphdrSize + tcphdrSize = 58 := rfl
  unfold innitializeGeneratorPacket at built
  dsimp only at built
  rw [dataLen, if_neg (by omega), Int.toNat_natCast, List.length_replicate, least] at built
  refine ⟨small, ?_⟩
  by_cases short : det.pktSize.toNat < 58
  · rw [if_pos short] at built
    cases built
    exact ⟨_, List.length_replicate, Or.inl ⟨short, rfl, rfl, rfl⟩⟩
  · rw [if_neg short] at built
    obtain ⟨_, dst, built⟩ := Option.bind_eq_some_iff.mp built
    obtain ⟨_, src, built⟩ := Option.bind_eq_some_iff.mp built
    obtain ⟨_, type, built⟩ := Option.bind_eq_some_iff.mp built
    obtain ⟨_, ip, built⟩ := Option.bind_eq_some_iff.mp built
    obtain ⟨_, check, built⟩ := Option.bind_eq_some_iff.mp built
    obtain ⟨data, udp, built⟩ := Option.bind_eq_some_iff.mp built
    cases built
    have size : data.length = det.pktSize.toNat := by
      rw [writeUdp_length udp, writeCheck_length check, writeIp_length ip,
        writeEtherType_length type, (writeAt_some src).2, (writeAt_some dst).2,
        List.length_replicate]
    exact ⟨data, size, Or.inr ⟨not_lt.mp short, rfl, rfl, rfl⟩⟩

theorem innitialize_made {state after : PktDetails} {det det' : TrafGenDet} {code : Nat}
    (empty : state.pktgen = none)
    (built : innitializeGeneratorPacket state det = some (code, after, det')) :
    Made after det ∧ after.timestamp = state.timestamp ∧ after.trafficGen = state.trafficGen := by
  obtain ⟨small, data, size, ⟨-, -, rfl, -⟩ | ⟨-, -, rfl, -⟩⟩ := innitialize_cases built
  · exact ⟨⟨small, size, fun pktgen set => by cases empty.symm.trans set⟩, rfl, rfl⟩
  · exact ⟨⟨small, size, fun pktgen set => (Option.some.inj set).symm⟩, rfl, rfl⟩

theorem innitialize_isSome (state other : PktDetails) (det : TrafGenDet) :
    (innitializeGeneratorPacket state det).isSome =
      (innitializeGeneratorPacket other det).isSome := by
  simp only [innitializeGeneratorPacket, apply_ite Option.isSome, Option.bind_eq_bind,
    Option.isSome_bind, Option.isSome_some]

theorem Made.roomy {state after : PktDetails} {det : TrafGenDet} {wait : UInt32} {now : Timeval}
    {frame : List UInt8} (made : Made state det)
    (done : sendPkt state wait now = some (frame, after)) : Roomy det := by
  obtain ⟨pktgen, set, inside, -⟩ := sendPkt_cases done
  rw [made.place pktgen set, made.size] at inside
  exact ⟨by omega, made.small⟩

section Start

variable (clock : Nat → Timeval) (random : Nat → Nat)

def startTime (ix : Nat) : Timespec :=
  addTimespec (tvToTs (clock ix)) 0 (random ix % 1000000000 : Nat)

/-- A generator of one of the channels from number `ix` on, before its first packet. -/
structure Started (ix : Nat) (channels : List Channel) (state : PktDetails) (k : Nat)
    (det : TrafGenDet) :
    Prop where
  own : state.trafficGen = ix + k
  given : channels[k]?.bind Channel.det = some det
  made : Made state det
  time : state.timestamp = startTime clock random (ix + k)

variable {clock random}

/-- A generator as it was made for channel `k` of those from number `ix` on; `after` are the
channels with the address strings used up. -/
structure BuiltFor (clock : Nat → Timeval) (random : Nat → Nat) (ix : Nat)
    (channels after : List Channel) (state : PktDetails) (k : Nat) (det det' : TrafGenDet) :
    Prop where
  given : channels[k]?.bind Channel.det = some det
  built : ∃ code, innitializeGeneratorPacket
    (blank (ix + k) (startTime clock random (ix + k))) det =
    some (code, state, det')
  left : after[k]?.bind Channel.det = some det'

theorem BuiltFor.cons {ix : Nat} {channels after : List Channel} {state : PktDetails} {k : Nat}
    {det det' : TrafGenDet}
    (builtFor : BuiltFor clock random (ix + 1) channels after state k det det')
    (channel channel' : Channel) :
    BuiltFor clock random ix (channel :: channels) (channel' :: after) state (k + 1) det det' := by
  have place : ix + 1 + k = ix + (k + 1) := by omega
  exact ⟨builtFor.given, place ▸ builtFor.built, builtFor.left⟩

theorem BuiltFor.started {ix : Nat} {channels after : List Channel} {state : PktDetails} {k : Nat}
    {det det' : TrafGenDet} (builtFor : BuiltFor clock random ix channels after state k det det') :
    Started clock random ix channels state k det := by
  obtain ⟨code, built⟩ := builtFor.built
  obtain ⟨made, time, own⟩ := innitialize_made rfl built
  exact ⟨own, builtFor.given, made, time⟩

theorem initTrafficGen_built {channels after : List Channel} {generators : List PktDetails}
    {ix : Nat} (loaded : initTrafficGen clock random ix channels = some (generators, after)) :
    (∀ state ∈ generators, ∃ k det det', BuiltFor clock random ix channels after state k det det') ∧
      ∀ k det, channels[k]?.bind Channel.det = some det →
        ∃ state ∈ generators, ∃ det', BuiltFor clock random ix channels after state k det det' := by
  induction channels generalizing ix generators after with
  | nil =>
    cases loaded
    simp
  | cons channel channels ih =>
    unfold initTrafficGen at loaded
    split at loaded
    · rename_i none
      obtain ⟨⟨generators', after'⟩, rest, loaded⟩ := Option.bind_eq_some_iff.mp loaded
      cases loaded
      obtain ⟨all, each⟩ := ih rest
      constructor
      · intro state member
        obtain ⟨k, det, det', builtFor⟩ := all state member
        exact ⟨k + 1, det, det', builtFor.cons channel channel⟩
      · rintro (_ | k) det given
        · exact absurd (none.symm.trans given) (by simp)
        · obtain ⟨state, member, det', builtFor⟩ := each k det given
          exact ⟨state, member, det', builtFor.cons channel channel⟩
    · rename_i det own
      obtain ⟨⟨code, fresh, det'⟩, built, loaded⟩ := Option.bind_eq_some_iff.mp loaded
      obtain ⟨⟨generators', after'⟩, rest, loaded⟩ := Option.bind_eq_some_iff.mp loaded
      cases loaded
      have first : BuiltFor clock random ix (channel :: channels)
          ({ channel with det := some det' } :: after') fresh 0 det det' :=
        ⟨own, ⟨code, built⟩, rfl⟩
      obtain ⟨all, each⟩ := ih rest
      constructor
      · intro state member
        rcases List.mem_cons.mp member with rfl | later
        · exact ⟨0, det, det', first⟩
        · obtain ⟨k, other, other', builtFor⟩ := all state later
          exact ⟨k + 1, other, other', builtFor.cons _ _⟩
      · rintro (_ | k) other given
        · cases own.symm.trans given
          exact ⟨fresh, List.mem_cons_self, det', first⟩
        · obtain ⟨state, member, other', builtFor⟩ := each k other given
          exact ⟨state, List.mem_cons_of_mem _ member, other', builtFor.cons _ _⟩

theorem initTrafficGen_isSome (clock' : Nat → Timeval) (random' : Nat → Nat)
    {channels : List Channel} {ix : Nat}
    (started : (initTrafficGen clock random ix channels).isSome) :
    (initTrafficGen clock' random' ix channels).isSome := by
  induction channels generalizing ix with
  | nil => rfl
  | cons channel channels ih =>
    obtain ⟨result, started⟩ := Option.isSome_iff_exists.mp started
    unfold initTrafficGen at started ⊢
    split at started
    · obtain ⟨_, rest, -⟩ := Option.bind_eq_some_iff.mp started
      obtain ⟨_, rest'⟩ := Option.isSome_iff_exists.mp (ih (Option.isSome_of_eq_some rest))
      rw [rest']
      rfl
    · obtain ⟨_, built, started⟩ := Option.bind_eq_some_iff.mp started
      obtain ⟨_, rest, -⟩ := Option.bind_eq_some_iff.mp started
      have builds := Option.isSome_of_eq_some built
      rw [innitialize_isSome
        _ (blank ix (addTimespec (tvToTs (clock' ix)) 0 (random' ix % 1000000000 : Nat)))]
        at builds
      obtain ⟨_, built'⟩ := Option.isSome_iff_exists.mp builds
      obtain ⟨_, rest'⟩ := Option.isSome_iff_exists.mp (ih (Option.isSome_of_eq_some rest))
      simp only [built', rest', Option.bind_eq_bind, Option.bind_some, Option.isSome_some]

theorem getMinGenerator_alone {channels after : List Channel} {generators : List PktDetails}
    {k : Nat} {det : TrafGenDet}
    (loaded : initTrafficGen clock random 0 channels = some (generators, after))
    (given : channels[k]?.bind Channel.det = some det)
    (alone : ∀ ix, ix ≠ k → (startTime clock random k).nanos < (startTime clock random ix).nanos) :
    ∃ nr state det', getMinGenerator generators = some nr ∧ generators[nr]? = some state ∧
      BuiltFor clock random 0 channels after state k det det' := by
  obtain ⟨all, each⟩ := initTrafficGen_built loaded
  obtain ⟨own, member, _, ownBuilt⟩ := each k det given
  obtain ⟨i, found⟩ := List.getElem?_of_mem member
  have inside : i < generators.length := (List.getElem?_eq_some_iff.mp found).1
  obtain ⟨nr, chosen⟩ : ∃ nr, getMinGenerator generators = some nr := by
    cases generators with
    | nil => cases member
    | cons state others => exact ⟨_, rfl⟩
  have first := getMinGenerator_first chosen
  obtain ⟨state, there⟩ : ∃ state, generators[nr]? = some state :=
    ⟨_, List.getElem?_eq_getElem first.known⟩
  obtain ⟨j, other, det', builtFor⟩ := all state (List.mem_of_getElem? there)
  have least := first.least i inside
  rw [due_eq there, due_eq found, builtFor.started.time, ownBuilt.started.time, Nat.zero_add,
    Nat.zero_add] at least
  have same : j = k := by
    by_contra different
    exact absurd (alone j different) (not_lt.mpr least)
  subst same
  cases builtFor.given.symm.trans given
  exact ⟨nr, state, det', chosen, there, builtFor⟩

end Start

/-- Whatever the clock and `rand` return, no access of the generator thread falls outside the
packet it is for. -/
def StaysInside (channels : List Channel) : Prop :=
  ∀ clock random readings, (startUserTrafficGenerator clock random channels readings).isSome

/-- At time 0 the generator of channel `k` alone is due. -/
def alone (k : Nat) (ix : Nat) : Nat := if ix = k then 0 else 1

theorem startTime_alone (k ix : Nat) :
    (startTime (fun _ => ⟨0, 0⟩) (alone k) ix).nanos = alone k ix := by
  rw [startTime, addTimespec_nanos]
  unfold alone
  split_ifs <;> decide

theorem startTime_own (k : Nat) : startTime (fun _ => ⟨0, 0⟩) (alone k) k = ⟨0, 0⟩ := by
  rw [startTime, alone, if_pos rfl]
  decide

theorem turn_alone {channels after : List Channel} {generators next : List PktDetails} {k : Nat}
    {det : TrafGenDet} {sent : Option Sent}
    (loaded : initTrafficGen (fun _ => ⟨0, 0⟩) (alone k) 0 channels = some (generators, after))
    (given : channels[k]?.bind Channel.det = some det)
    (taken : turn after generators ⟨0, 0⟩ = some (sent, next)) : Roomy det := by
  have first : ∀ ix, ix ≠ k → (startTime (fun _ => ⟨0, 0⟩) (alone k) k).nanos <
      (startTime (fun _ => ⟨0, 0⟩) (alone k) ix).nanos := by
    intro ix other
    rw [startTime_alone, startTime_alone, alone, alone, if_pos rfl, if_neg other]
    decide
  obtain ⟨nr, state, _, chosen, there, builtFor⟩ := getMinGenerator_alone loaded given first
  have started := builtFor.started
  have now : state.timestamp = ⟨0, 0⟩ := by
    rw [started.time, Nat.zero_add, startTime_own]
  have sends : action generators ⟨0, 0⟩ = some (.send nr) := by
    rw [action_chosen chosen there, now]
    rfl
  rw [turn_eq, sends, Option.bind_some] at taken
  obtain ⟨_, _, _, _, same, -, done, -, -⟩ := perform_cases taken
  cases same.symm.trans there
  exact started.made.roomy done

/-- The thread stays inside its packets exactly when every configured packet has room for the
headers that are written into it. -/
theorem stays_inside_iff {channels : List Channel}
    (wellFormed : ∀ channel ∈ channels, ∀ det, channel.det = some det → WellFormed det) :
    StaysInside channels ↔ ∀ channel ∈ channels, ∀ det, channel.det = some det → Roomy det := by
  constructor
  · intro inside channel member det given
    obtain ⟨k, place⟩ := List.getElem?_of_mem member
    have known : channels[k]?.bind Channel.det = some det := by
      rw [place, Option.bind_some, given]
    obtain ⟨result, ran⟩ :=
      Option.isSome_iff_exists.mp (inside (fun _ => ⟨0, 0⟩) (alone k) [⟨0, 0⟩])
    obtain ⟨⟨generators, after⟩, loaded, ran⟩ := Option.bind_eq_some_iff.mp ran
    obtain ⟨⟨sent, next⟩, taken, -⟩ := Option.bind_eq_some_iff.mp ran
    exact turn_alone loaded known taken
  · intro roomy clock random readings
    have buildable : ∀ channel ∈ channels, ∀ det, channel.det = some det → Buildable det := by
      intro channel member det given
      obtain ⟨room, small⟩ := roomy channel member det given
      have least := le_headerSize det
      exact ⟨wellFormed channel member det given, small, by omega, room⟩
    obtain ⟨generators, after, loaded, runs⟩ :=
      startUserTrafficGenerator_loaded clock random buildable
    obtain ⟨sent, final, ran⟩ := userLoop_loaded loaded readings
    rw [runs, ran]
    rfl

def sized (pktSize : UInt32) (vlan : UInt16) : TrafGenDet :=
  { srcIp := ['1', '0', '.', '1'], dstIpMax := ['1', '0', '.', '4'],
    dstIpMin := ['1', '0', '.', '2'], macDst := macString [0, 21, 23, 0xab, 5, 6],
    macSrc := macString [0, 30, 0x68, 0x9a, 0xc6, 0xff],
    udpSrcPort := 8080, udpDstPort := 53, pktSize, vlan, delay := 1000 }

theorem stays_inside_iff_untagged : StaysInside [⟨some (sized 58 0xffff), .pcap⟩] := by
  have wellFormed : ∀ channel ∈ [Channel.mk (some (sized 58 0xffff)) .pcap],
      ∀ det, channel.det = some det → WellFormed det := by
    intro channel member det given
    cases List.mem_singleton.mp member
    cases given
    exact ⟨by decide, by decide⟩
  refine (stays_inside_iff wellFormed).mpr ?_
  intro channel member det given
  cases List.mem_singleton.mp member
  cases given
  decide

/-- A 40-byte packet is found too small and is then handed to `send_pkt` all the same; a tagged
60-byte packet is found large enough, but its last field lies behind its end. -/
theorem small_packets_overrun :
    (innitializeGeneratorPacket (blank 0 ⟨0, 0⟩) (sized 40 0xffff)).map Prod.fst = some 0 ∧
      ¬StaysInside [⟨some (sized 40 0xffff), .pcap⟩] ∧
      (innitializeGeneratorPacket (blank 0 ⟨0, 0⟩) (sized 60 5)).map Prod.fst = some 1 ∧
      ¬StaysInside [⟨some (sized 60 5), .pcap⟩] := by
  refine ⟨by decide +kernel, ?_, by decide +kernel, ?_⟩
  · intro inside
    exact absurd (inside (fun _ => ⟨0, 0⟩) (fun _ => 0) [⟨0, 0⟩]) (by decide +kernel)
  · intro inside
    exact absurd (inside (fun _ => ⟨0, 0⟩) (fun _ => 0) [⟨0, 0⟩]) (by decide +kernel)

end Oflops.Traffic.Construction
