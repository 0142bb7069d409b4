import Oflops.Traffic.CardGenerator
import Oflops.Traffic.Construction
import Oflops.Traffic.Flows

/-! What the card is told to send, over a whole run of `start_nf_traffic_generator`, and that it is
what the user-space generator sends for the same channels. -/

namespace Oflops.Traffic.CardSchedule
open Lib.Bytes Lib.MachineInt Lib.Record Time Packet Wire UserLoop Schedule Flows Construction
open CardGenerator

/-- The packets that are loaded into a queue, in their order. -/
def loadedFrames (queue : Nat) (calls : List NfCall) : List (List UInt8) :=
  calls.filterMap fun
    | .loadPacket frame own _ => if own = queue then some frame else none
    | _ => none

def iterationsSet (queue : Nat) (calls : List NfCall) : List Nat :=
  calls.filterMap fun
    | .setNumberIterations iterations own => if own = queue then some iterations.toNat else none
    | _ => none

def starts (calls : List NfCall) : Nat := calls.count .start

theorem loadedFrames_append (queue : Nat) (calls more : List NfCall) :
    loadedFrames queue (calls ++ more) = loadedFrames queue calls ++ loadedFrames queue more :=
  List.filterMap_append

theorem iterationsSet_append (queue : Nat) (calls more : List NfCall) :
    iterationsSet queue (calls ++ more) = iterationsSet queue calls ++ iterationsSet queue more :=
  List.filterMap_append

/-- What the calls tell a queue about its channel, which has details or not. -/
structure Told (rand : Nat → Nat) (queue : Nat) (det : Option CardDet) (calls : List NfCall) :
    Prop where
  loaded : loadedFrames queue calls = (det.map (roundFrames rand)).getD []
  iterations : iterationsSet queue calls =
    (det.map fun det => (maxPackets det).toNat / roundSize det).toList

theorem Told.append {rand : Nat → Nat} {queue : Nat} {det : Option CardDet}
    {calls more : List NfCall} (told : Told rand queue det calls)
    (rest : Told rand queue none more) : Told rand queue det (calls ++ more) := by
  constructor
  · rw [loadedFrames_append, told.loaded, rest.loaded]
    exact List.append_nil _
  · rw [iterationsSet_append, told.iterations, rest.iterations]
    exact List.append_nil _

theorem Told.prepend {rand : Nat → Nat} {queue : Nat} {det : Option CardDet}
    {calls more : List NfCall} (first : Told rand queue none calls)
    (told : Told rand queue det more) : Told rand queue det (calls ++ more) := by
  constructor
  · rw [loadedFrames_append, told.loaded, first.loaded]
    rfl
  · rw [iterationsSet_append, told.iterations, first.iterations]
    rfl

theorem told_channelCalls (rand : Nat → Nat) {iterations : UInt32} (queue : Nat) {det : CardDet}
    (value : iterations.toNat = (maxPackets det).toNat / roundSize det) :
    Told rand queue (some det) (channelCalls rand iterations queue det) := by
  constructor
  · simp [channelCalls, loadedFrames, List.filterMap_map]
  · simp [channelCalls, iterationsSet, List.filterMap_map, value]

theorem told_channelCalls_other (rand rand' : Nat → Nat) (iterations : UInt32) {queue other : Nat}
    (det : CardDet) (apart : queue ≠ other) :
    Told rand other none (channelCalls rand' iterations queue det) := by
  constructor
  · simp [channelCalls, loadedFrames, List.filterMap_map, apart]
  · simp [channelCalls, iterationsSet, List.filterMap_map, apart]

theorem told_waits (rand : Nat → Nat) (queue : Nat) {calls : List NfCall}
    (only : ∀ call ∈ calls, call = .start ∨ call = .finish) : Told rand queue none calls := by
  constructor
  · refine List.filterMap_eq_nil_iff.mpr fun call member => ?_
    rcases only call member with rfl | rfl <;> rfl
  · refine List.filterMap_eq_nil_iff.mpr fun call member => ?_
    rcases only call member with rfl | rfl <;> rfl

theorem countIterations_eq {channels : List (Option CardDet)} {iteration : List UInt32}
    {queue : Nat} (loadable : ∀ det, some det ∈ channels → Loadable det)
    (room : queue + channels.length ≤ iteration.length) :
    ∃ after, countIterations (queue + 1) channels iteration = some after ∧
      after.length = iteration.length ∧
      (∀ q, q < queue → after[q]? = iteration[q]?) ∧
      ∀ (i : Nat) det, channels[i]? = some (some det) → ∃ iterations, after[queue + i]? =
        some iterations ∧
        iterations.toNat = (maxPackets det).toNat / roundSize det := by
  induction channels generalizing iteration queue with
  | nil => exact ⟨iteration, rfl, rfl, fun _ _ => rfl, by simp⟩
  | cons channel channels ih =>
    rw [List.length_cons] at room
    have later (iteration' : List UInt32) (same : iteration'.length = iteration.length) :=
      @ih iteration' (queue + 1) (fun det member => loadable det (List.mem_cons_of_mem _ member))
        (by omega)
    cases channel with
    | none =>
      obtain ⟨after, counted, size, before, own⟩ := later iteration rfl
      refine ⟨after, counted, size, fun q low => before q (by omega), ?_⟩
      rintro (_ | i) det given
      · cases given
      · rw [← Nat.succ_add_eq_add_succ]
        exact own i det given
    | some det =>
      obtain ⟨iterations, counts, value⟩ := (loadable det List.mem_cons_self).iterationsOf_eq
      obtain ⟨after, counted, size, before, own⟩ :=
        later (iteration.set queue iterations) List.length_set
      rw [List.length_set] at size
      refine ⟨after, ?_, size, ?_, ?_⟩
      · rw [countIterations, counts, Option.bind_eq_bind, Option.bind_some, Nat.add_sub_cancel,
          if_pos (by omega)]
        exact counted
      · intro q low
        rw [before q (by omega), List.getElem?_set_ne (by omega)]
      · rintro (_ | i) other given
        · cases given
          refine ⟨iterations, ?_, value⟩
          rw [Nat.add_zero, before queue (Nat.lt_succ_self queue),
            List.getElem?_set_self (by omega)]
        · rw [← Nat.succ_add_eq_add_succ]
          exact own i other given

theorem loadChannels_told (rand : Nat → Nat → Nat) {channels : List (Option CardDet)}
    {iteration : List UInt32} {queue : Nat} (loadable : ∀ det, some det ∈ channels → Loadable det)
    (counted : ∀ (i : Nat) det, channels[i]? = some (some det) → ∃ iterations,
      iteration[queue + i]? = some iterations ∧
        iterations.toNat = (maxPackets det).toNat / roundSize det)
    (state : PktDetails) :
    ∃ calls, loadChannels rand iteration (queue + 1) state channels = some calls ∧ .start ∉ calls ∧
      (∀ q < queue, Told (rand (q + 1)) q none calls) ∧
      ∀ i, Told (rand (queue + i + 1)) (queue + i) channels[i]?.join calls := by
  induction channels generalizing queue state with
  | nil => exact ⟨[], rfl, by simp, fun q low => ⟨rfl, rfl⟩, fun i => ⟨rfl, rfl⟩⟩
  | cons channel channels ih =>
    have later (state : PktDetails) :=
      @ih (queue + 1) (fun det member => loadable det (List.mem_cons_of_mem _ member))
        (fun i det given => by
          rw [Nat.succ_add_eq_add_succ]
          exact counted (i + 1) det given) state
    cases channel with
    | none =>
      obtain ⟨calls, loaded, unstarted, before, own⟩ := later state
      refine ⟨calls, loaded, unstarted, fun q low => before q (by omega), ?_⟩
      rintro (_ | i)
      · exact before queue (Nat.lt_succ_self queue)
      · have place := own i
        rwa [Nat.succ_add_eq_add_succ] at place
    | some det =>
      obtain ⟨iterations, found, value⟩ := counted 0 det rfl
      rw [Nat.add_zero] at found
      obtain ⟨next, first⟩ :=
        (loadable det List.mem_cons_self).loadChannel_eq (rand (queue + 1)) found state
      obtain ⟨calls, loaded, unstarted, before, own⟩ := later next
      refine ⟨channelCalls (rand (queue + 1)) iterations queue det ++ calls, ?_, ?_, ?_, ?_⟩
      · simp only [loadChannels, first, loaded, Option.bind_eq_bind, Option.bind_some]
      · rw [List.mem_append, not_or]
        exact ⟨by simp [channelCalls], unstarted⟩
      · intro q low
        exact (told_channelCalls_other _ _ iterations det (by omega)).append (before q (by omega))
      · rintro (_ | i)
        · exact (told_channelCalls _ queue value).append (before queue (Nat.lt_succ_self queue))
        · have place := own i
          rw [Nat.succ_add_eq_add_succ] at place
          exact (told_channelCalls_other _ _ iterations det (by omega)).prepend place

theorem waitLoop_only (dataToSend limited : Bool) (polls : List Poll) :
    ∀ call ∈ waitLoop dataToSend limited polls, call = .start ∨ call = .finish := by
  induction polls with
  | nil => simp [waitLoop]
  | cons poll polls ih =>
    unfold waitLoop
    split_ifs
    · simp
    · simp
    · simpa using ih
    · exact ih

theorem start_limited (dataToSend : Bool) (polls : List Poll) :
    .start ∉ waitLoop dataToSend true polls := by
  induction polls with
  | nil => simp [waitLoop]
  | cons poll polls ih =>
    rw [waitLoop, if_pos rfl]
    split_ifs
    · simp
    · simp
    · exact ih

/-- What a queue is told to play for a channel: one round of packets, each of them that of a flow of
the channel, and in the order of the flows unless they are drawn at random; and as many iterations
as whole rounds fit into the number of packets. -/
structure Schedules (det : CardDet) (queue : Nat) (calls : List NfCall) : Prop where
  length : (loadedFrames queue calls).length = roundSize det
  inRange : ∀ frame ∈ loadedFrames queue calls,
    ∃ flow < flowCount det.toTrafGenDet, frame = (blankProbe det flow).encode
  inOrder : isRandom det = false →
    ∀ k frame, (loadedFrames queue calls)[k]? = some frame → frame = (blankProbe det k).encode
  iterations : ∃ n, iterationsSet queue calls = [n] ∧
    n * (loadedFrames queue calls).length ≤ (maxPackets det).toNat ∧
    (maxPackets det).toNat < (n + 1) * (loadedFrames queue calls).length

theorem Told.schedules {rand : Nat → Nat} {queue : Nat} {det : CardDet} {calls : List NfCall}
    (told : Told rand queue (some det) calls) : Schedules det queue calls := by
  have loaded : loadedFrames queue calls = roundFrames rand det := told.loaded
  have length : (loadedFrames queue calls).length = roundSize det := by simp [loaded, roundFrames]
  refine ⟨length, ?_, ?_, (maxPackets det).toNat / roundSize det, told.iterations, ?_, ?_⟩
  · intro frame member
    rw [loaded] at member
    obtain ⟨i, low, rfl⟩ := List.mem_map.mp member
    exact ⟨flowAt rand det i, Loadable.flowAt_lt rand (List.mem_range.mp low), rfl⟩
  · intro plain k frame found
    rw [loaded, roundFrames, List.getElem?_map] at found
    obtain ⟨i, place, rfl⟩ := Option.map_eq_some_iff.mp found
    obtain ⟨-, rfl⟩ := List.getElem?_eq_some_iff.mp place
    rw [List.getElem_range, flowAt, if_neg (by simp [plain])]
  · rw [length]
    exact Nat.div_mul_le_self _ _
  · rw [length, Nat.mul_comm]
    exact Nat.lt_mul_div_succ _ (roundSize_pos det)

/-- A run gets through: everything is loaded before the first start, and after it there are only
starts and stops. -/
theorem startNf_calls (rand : Nat → Nat → Nat) {channels : List (Option CardDet)}
    (polls : List Poll) (few : channels.length ≤ 4)
    (loadable : ∀ det, some det ∈ channels → Loadable det) :
    ∃ loads waits, startNfTrafficGenerator rand (none :: channels) polls =
        some (loads ++ .start :: waits) ∧
      .start ∉ loads ∧ (∀ call ∈ waits, call = .start ∨ call = .finish) ∧
      (limitedBy channels = true → .start ∉ waits) ∧
      ∀ q, Told (rand (q + 1)) q channels[q]?.join (loads ++ .start :: waits) := by
  have room : 0 + channels.length ≤ [(0 : UInt32), 0, 0, 0].length := by
    rw [Nat.zero_add]
    exact few
  obtain ⟨iteration, counts, -, -, counted⟩ := countIterations_eq loadable room
  obtain ⟨calls, loaded, unstarted, -, own⟩ :=
    loadChannels_told rand loadable counted (blank 0 ⟨0, 0⟩)
  simp only [Nat.zero_add] at own
  have only := waitLoop_only (channels.any Option.isSome) (limitedBy (none :: channels)) polls
  refine ⟨.init :: (List.range 4).map .rateLimiterDisable ++ calls, _, ?_, ?_, only,
    ?_, fun q => ?_⟩
  · rw [startNfTrafficGenerator, List.drop_one, List.tail_cons, counts]
    change (loadChannels rand iteration 1 (blank 0 ⟨0, 0⟩) channels).bind _ = _
    rw [loaded]
    rfl
  · rw [List.mem_append, not_or]
    exact ⟨by simp, unstarted⟩
  · intro limited
    rw [show limitedBy (none :: channels) = true from limited]
    exact start_limited _ polls
  · have restarts : ∀ call ∈ NfCall.start ::
        waitLoop (channels.any Option.isSome) (limitedBy (none :: channels)) polls,
        call = .start ∨ call = .finish := List.forall_mem_cons.mpr ⟨.inl rfl, only⟩
    have settings : Told (rand (q + 1)) q none (.init :: (List.range 4).map .rateLimiterDisable) :=
      ⟨rfl, rfl⟩
    exact (settings.prepend (own q)).append (told_waits _ q restarts)

def fiveFlows : CardDet where
  srcIp := ['1', '0', '.', '1']
  dstIpMax := ['1', '0', '.', '6']
  dstIpMin := ['1', '0', '.', '2']
  macDst := ['0', '0', ':', '1', '5']
  macSrc := ['0', '0', ':', '1', 'e']
  udpSrcPort := 8080
  udpDstPort := 8080
  pktSize := 64
  vlan := 0xffff
  delay := 1000
  pktCount := 13
  flags := []

theorem fiveFlows_loadable : Loadable fiveFlows :=
  ⟨⟨⟨by decide, by decide⟩, by decide, by decide, by decide⟩, by decide⟩

/-- A packet with its number and its times erased; `base` is where the IP header starts. -/
def unstamped (base : Nat) (frame : List UInt8) : List UInt8 := patch frame (base + 32) (zeros 12)

theorem unstamped_encode (probe : Probe) :
    unstamped probe.ether.length probe.encode = { probe with
      seqNum := 0, tvSec := 0, tvUsec := 0 }.encode := by
  have place : probe.ether.length + 32 = probe.front.length + 4 := by rw [probe.front_length]
  have header : patch probe.pktgenHeader 4 (zeros 12) =
      { probe with seqNum := 0, tvSec := 0, tvUsec := 0 }.pktgenHeader := by
    rw [show zeros 12 = beBytes 4 0 ++ beBytes 4 0 ++ beBytes 4 0 by decide]
    rfl
  rw [unstamped, place, probe.encode_eq, patch_append_right (Nat.le_add_right _ _),
    Nat.add_sub_cancel_left, patch_append_left (by simp [zeros]), header]
  exact (Probe.encode_eq { probe with seqNum := 0, tvSec := 0, tvUsec := 0 }).symm

/-- The channels as the user-space generator sees them. -/
def userChannels (channels : List (Option CardDet)) : List Channel :=
  channels.map fun det => ⟨det.map CardDet.toTrafGenDet, .nf2⟩

theorem initTrafficGen_at {clock : Nat → Timeval} {random : Nat → Nat}
    {channels : List (Option CardDet)} {generators : List PktDetails} {used : List Channel}
    {state : PktDetails} {q : Nat} {det : CardDet}
    (made : initTrafficGen clock random 0 (userChannels (none :: channels)) =
      some (generators, used))
    (member : state ∈ generators) (own : state.trafficGen = q + 1)
    (given : channels[q]? = some (some det)) (usable : Usable det.toTrafGenDet) :
    At det.toTrafGenDet 0 state := by
  obtain ⟨k, det', _, builtFor⟩ := (initTrafficGen_built made).1 state member
  obtain rfl : k = q + 1 := by
    have place := builtFor.started.own
    omega
  obtain rfl : det' = det.toTrafGenDet := by
    have details := builtFor.given
    rw [userChannels, List.map_cons, List.getElem?_cons_succ, List.getElem?_map, given] at details
    exact (Option.some.inj details).symm
  obtain ⟨code, built⟩ := builtFor.built
  obtain ⟨fresh, _, built', here⟩ :=
    fresh_at usable (0 + (q + 1)) (startTime clock random (0 + (q + 1)))
  cases built.symm.trans built'
  exact here

theorem userChannels_loaded (clock : Nat → Timeval) (random : Nat → Nat)
    {channels : List (Option CardDet)} (loadable : ∀ det, some det ∈ channels → Loadable det) :
    ∃ generators used, initTrafficGen clock random 0 (userChannels (none :: channels)) =
      some (generators, used) ∧ Loaded used generators := by
  have buildable : ∀ channel ∈ userChannels (none :: channels), ∀ det, channel.det = some det →
      Buildable det := by
    intro channel member det given
    obtain ⟨details, inside, rfl⟩ := List.mem_map.mp member
    obtain ⟨card, rfl, rfl⟩ := Option.map_eq_some_iff.mp given
    rcases List.mem_cons.mp inside with absent | present
    · cases absent
    · exact (loadable card present).usable.buildable
  obtain ⟨generators, used, made, all⟩ := initTrafficGen_loaded clock random buildable 0
  refine ⟨generators, used, made, fun state member => ?_⟩
  obtain ⟨carries, k, det, place, known⟩ := all state member
  exact ⟨carries, det, by rwa [detOf, place, Nat.zero_add]⟩

/-- For the same channels the card is loaded with what the user-space generator sends: the packets
of a channel go round through those loaded into its queue, beginning with the second one, except
that only they carry numbers and times. -/
theorem card_agrees_with_user_space (rand : Nat → Nat → Nat) (clock : Nat → Timeval)
    (random : Nat → Nat) {channels : List (Option CardDet)} (polls : List Poll)
    (few : channels.length ≤ 4) (loadable : ∀ det, some det ∈ channels → Loadable det) :
    ∃ calls generators used, startNfTrafficGenerator rand (none :: channels) polls = some calls ∧
      initTrafficGen clock random 0 (userChannels (none :: channels)) = some (generators, used) ∧
      ∀ readings, ∃ sent after, userLoop used generators readings = some (sent, after) ∧
        ∀ (g q : Nat) state det, generators[g]? = some state → state.trafficGen = q + 1 →
          channels[q]? = some (some det) → isRandom det = false →
          ∀ (k : Nat) packet, (sent.filter (fun packet => packet.generator = g))[k]? = some packet →
            (loadedFrames q calls)[(k + 1) % (loadedFrames q calls).length]? =
              some (unstamped (headerSize det.toTrafGenDet) packet.frame) := by
  obtain ⟨loads, waits, ran, -, -, -, told⟩ := startNf_calls rand polls few loadable
  obtain ⟨generators, used, made, loaded⟩ := userChannels_loaded clock random loadable
  refine ⟨_, generators, used, ran, made, fun readings => ?_⟩
  obtain ⟨sent, after, looped⟩ := userLoop_loaded loaded readings
  refine ⟨sent, after, looped, ?_⟩
  intro g q state det found own given plain k packet sent'
  have usable := (loadable det (List.mem_of_getElem? given)).usable
  have here := initTrafficGen_at made (List.mem_of_getElem? found) own given usable
  have bytes := userLoop_packets looped usable found here k packet sent'
  have schedules : Schedules det q (loads ++ .start :: waits) := by
    have queue := told q
    rw [given] at queue
    exact queue.schedules
  have flows : (loadedFrames q (loads ++ .start :: waits)).length = flowCount det.toTrafGenDet :=
    schedules.length.trans (if_neg (by simp [plain]))
  have inside : (k + 1) % (loadedFrames q (loads ++ .start :: waits)).length <
      (loadedFrames q (loads ++ .start :: waits)).length :=
    Nat.mod_lt _ (by rw [schedules.length]; exact roundSize_pos det)
  have ether : ∀ seqNum tvSec tvUsec,
      (probeAt det.toTrafGenDet (k + 1) seqNum tvSec tvUsec).ether.length =
        headerSize det.toTrafGenDet := fun _ _ _ => etherHeader_length usable.wellFormed
  have place := List.getElem?_eq_getElem inside
  rw [place, schedules.inOrder plain _ _ place, bytes, Nat.zero_add, kthFrame, ← ether,
    unstamped_encode, flows, blankProbe, probeAt, Nat.mod_mod]
  rfl

theorem card_agrees_with_user_space_five_flows :
    ∃ calls generators used, startNfTrafficGenerator (fun _ i => i) [none, some fiveFlows]
      [] = some calls ∧
      initTrafficGen (fun _ => ⟨0, 0⟩) (fun _ => 0) 0 (userChannels [none, some fiveFlows]) =
        some (generators, used) ∧
      ∀ readings, ∃ sent after, userLoop used generators readings = some (sent, after) ∧
        ∀ state, generators[0]? = some state → state.trafficGen = 1 → ∀ (k : Nat) packet,
          (sent.filter (fun packet => packet.generator = 0))[k]? = some packet →
            (loadedFrames 0 calls)[(k + 1) % (loadedFrames 0 calls).length]? =
              some (unstamped 14 packet.frame) := by
  have loadable : ∀ det, some det ∈ [some fiveFlows] → Loadable det := by
    intro det member
    cases List.mem_singleton.mp member
    exact fiveFlows_loadable
  obtain ⟨calls, generators, used, ran, made, loops⟩ := card_agrees_with_user_space (fun _ i => i)
    (fun _ => ⟨0, 0⟩) (fun _ => 0) [] (by decide) loadable
  refine ⟨calls, generators, used, ran, made, fun readings => ?_⟩
  obtain ⟨sent, after, looped, agrees⟩ := loops readings
  exact ⟨sent, after, looped, fun state found own k packet =>
    agrees 0 0 state fiveFlows found own rfl (by decide) k packet⟩

end Oflops.Traffic.CardSchedule
