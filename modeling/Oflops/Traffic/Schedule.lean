import Oflops.Lib.Schedule
import Oflops.Traffic.Wire
import Oflops.Traffic.UserLoop

/-! The loop of the user-space generator is a scheduler that serves the generator that is due
first: the packets come out as the sorted merge of the generators' own schedules. -/

namespace Oflops.Traffic.Schedule
open Time Packet Wire UserLoop
open Lib.Schedule (First Run advance served)

def due (generators : List PktDetails) (g : Nat) : Int :=
  match generators[g]? with
  | some state => state.timestamp.nanos
  | none => 0

def delay (channels : List Channel) (generators : List PktDetails) (g : Nat) : Int :=
  match generators[g]?.bind (detOf channels) with
  | some det => det.delay.toNat
  | none => 0

theorem due_eq {generators : List PktDetails} {g : Nat} {state : PktDetails}
    (found : generators[g]? = some state) : due generators g = state.timestamp.nanos := by
  rw [due, found]

theorem delay_nonneg (channels : List Channel) (generators : List PktDetails) (g : Nat) :
    0 ≤ delay channels generators g := by
  unfold delay
  split
  · exact Int.natCast_nonneg _
  · exact le_refl _

theorem minLoop_first {time : Nat → Int} {rest : List PktDetails} {i minGen : Nat}
    (minTv : Timespec)
    (ahead : ∀ k state, rest[k]? = some state → time (i + k) = state.timestamp.nanos)
    (candidate : time minGen = minTv.nanos) (first : First (· < i) time minGen) :
    First (· < i + rest.length) time (minLoop rest i minGen minTv) := by
  induction rest generalizing i minGen minTv with
  | nil => exact first
  | cons state rest ih =>
    have here : time i = state.timestamp.nanos := ahead 0 state rfl
    have further : ∀ k other, rest[k]? = some other → time (i + 1 + k) = other.timestamp.nanos := by
      intro k other found
      rw [Nat.add_right_comm, Nat.add_assoc]
      exact ahead (k + 1) other found
    rw [List.length_cons, ← Nat.add_assoc, Nat.add_right_comm, minLoop, timespecDiff_eq]
    split_ifs with earlier
    · refine ih _ further here ⟨Nat.lt_succ_self i, ?_, ?_⟩
      · intro j before
        rcases Nat.lt_succ_iff_lt_or_eq.mp before with old | rfl
        · have bound := first.least j old
          omega
        · exact le_refl _
      · intro j before lower
        have bound := first.least j lower
        omega
    · refine ih _ further candidate ⟨Nat.lt_succ_of_lt first.known, ?_, ?_⟩
      · intro j before
        rcases Nat.lt_succ_iff_lt_or_eq.mp before with old | rfl
        · exact first.least j old
        · omega
      · intro j before lower
        exact first.lowest j (Nat.lt_trans lower first.known) lower

theorem getMinGenerator_first {generators : List PktDetails} {nr : Nat}
    (chosen : getMinGenerator generators = some nr) :
    First (· < generators.length) (due generators) nr := by
  cases generators with
  | nil => cases chosen
  | cons state generators =>
    have start : First (· < 1) (due (state :: generators)) 0 := by
      refine ⟨Nat.zero_lt_one, ?_, ?_⟩
      · intro j only
        rw [Nat.lt_one_iff.mp only]
      · intro j _ lower
        exact absurd lower (Nat.not_lt_zero j)
    have ahead : ∀ k other, generators[k]? = some other →
        due (state :: generators) (1 + k) = other.timestamp.nanos := by
      intro k other found
      rw [Nat.add_comm]
      exact due_eq found
    have found := minLoop_first state.timestamp ahead rfl start
    rw [Nat.add_comm] at found
    exact Option.some.inj chosen ▸ found

theorem sendPkt_timestamp {state after : PktDetails} {wait : UInt32} {now : Timeval}
    {frame : List UInt8} (done : sendPkt state wait now = some (frame, after)) :
    after.timestamp = addTimespec state.timestamp 0 wait.toNat ∧
      after.trafficGen = state.trafficGen := by
  obtain ⟨_, -, -, -, rfl⟩ := sendPkt_cases done
  exact ⟨rfl, rfl⟩

theorem set_sent {channels : List Channel} {generators : List PktDetails} {nr : Nat}
    {state after : PktDetails} {det : TrafGenDet} {now : Timeval} {frame : List UInt8}
    (found : generators[nr]? = some state) (known : detOf channels state = some det)
    (done : sendPkt state det.delay now = some (frame, after)) :
    due (generators.set nr after) = advance (delay channels generators) (due generators) nr ∧
      delay channels (generators.set nr after) = delay channels generators := by
  obtain ⟨time, channel⟩ := sendPkt_timestamp done
  have inside : nr < generators.length := (List.getElem?_eq_some_iff.mp found).1
  constructor
  · funext g
    by_cases same : g = nr
    · subst same
      have wait : delay channels generators g = det.delay.toNat := by
        rw [delay, found, Option.bind_some, known]
      rw [advance, Function.update_self, due_eq found, wait,
        due_eq (List.getElem?_set_self inside), time, addTimespec_nanos]
      ring
    · rw [advance, Function.update_of_ne same, due, due, List.getElem?_set_ne (Ne.symm same)]
  · funext g
    by_cases same : g = nr
    · subst same
      rw [delay, delay, List.getElem?_set_self inside, found, Option.bind_some, Option.bind_some,
        detOf, detOf, channel]
    · rw [delay, delay, List.getElem?_set_ne (Ne.symm same)]

def entry (packet : Sent) : Nat × Int := (packet.generator, packet.scheduled.nanos)

/-- The loop follows the abstract scheduler. -/
theorem userLoop_run {channels : List Channel} {generators after : List PktDetails}
    {readings : List Timeval} {sent : List Sent}
    (ran : userLoop channels generators readings = some (sent, after)) :
    Run (· < generators.length) (delay channels generators) (due generators) (sent.map entry)
      (due after) := by
  induction readings generalizing generators sent with
  | nil =>
    cases ran
    exact Run.done _
  | cons now readings ih =>
    rcases userLoop_cases ran with rest |
      ⟨nr, state, det, frame, state', later, chosen, found, known, done, rest, rfl⟩
    · exact ih rest
    · obtain ⟨moved, kept⟩ := set_sent found known done
      have run := ih rest
      rw [moved, kept, List.length_set] at run
      have first := getMinGenerator_first chosen
      have time := due_eq found
      change Run _ _ _ ((nr, state.timestamp.nanos) :: later.map entry) _
      rw [← time]
      exact Run.serve first run

/-- Every generator has a packet and a channel with details. -/
def Loaded (channels : List Channel) (generators : List PktDetails) : Prop :=
  ∀ state ∈ generators, (∃ probe low high, Carries state probe low high) ∧
    ∃ det, detOf channels state = some det

theorem turn_loaded {channels : List Channel} {generators : List PktDetails}
    (loaded : Loaded channels generators) (now : Timeval) :
    ∃ sent after, turn channels generators now = some (sent, after) ∧ Loaded channels after := by
  unfold turn
  cases chosen : getMinGenerator generators with
  | none => exact ⟨none, generators, rfl, loaded⟩
  | some nr =>
    have inside := (getMinGenerator_first chosen).known
    have found : generators[nr]? = some generators[nr] := List.getElem?_eq_getElem inside
    obtain ⟨⟨probe, low, high, carries⟩, det, known⟩ :=
      loaded generators[nr] (List.getElem_mem inside)
    obtain ⟨after, done, carries', -, -, sameChannel⟩ := sendPkt_probe carries det.delay now
    obtain ⟨channel, given, details⟩ := Option.bind_eq_some_iff.mp known
    simp only [found, Option.bind_eq_bind, Option.bind_some]
    split_ifs
    · exact ⟨none, generators, rfl, loaded⟩
    · simp only [given, details, done, Option.bind_some]
      refine ⟨_, _, rfl, ?_⟩
      intro state member
      rcases List.mem_or_eq_of_mem_set member with old | rfl
      · exact loaded state old
      · refine ⟨⟨_, low, high, carries'⟩, det, ?_⟩
        rw [detOf, sameChannel]
        exact known

theorem userLoop_loaded {channels : List Channel} {generators : List PktDetails}
    (loaded : Loaded channels generators) (readings : List Timeval) :
    ∃ sent after, userLoop channels generators readings = some (sent, after) := by
  induction readings generalizing generators with
  | nil => exact ⟨[], generators, rfl⟩
  | cons now readings ih =>
    obtain ⟨packet, next, taken, loaded'⟩ := turn_loaded loaded now
    obtain ⟨later, after, ran⟩ := ih loaded'
    refine ⟨packet.toList ++ later, after, ?_⟩
    simp only [userLoop, taken, ran, Option.bind_eq_bind, Option.bind_some]

theorem initTrafficGen_loaded (clock : Nat → Timeval) (random : Nat → Nat) {channels : List Channel}
    (buildable : ∀ channel ∈ channels, ∀ det, channel.det = some det → Buildable det) (ix : Nat) :
    ∃ generators after, initTrafficGen clock random ix channels = some (generators, after) ∧
      ∀ state ∈ generators, (∃ probe low high, Carries state probe low high) ∧
        ∃ k det, state.trafficGen = ix + k ∧ after[k]?.bind Channel.det = some det := by
  induction channels generalizing ix with
  | nil => exact ⟨[], [], rfl, by simp⟩
  | cons channel channels ih =>
    obtain ⟨generators, after, loaded, all⟩ :=
      ih (fun other member => buildable other (List.mem_cons_of_mem _ member)) (ix + 1)
    have later : ∀ (first : Channel), ∀ state ∈ generators,
        (∃ probe low high, Carries state probe low high) ∧
          ∃ k det, state.trafficGen = ix + k ∧
            (first :: after)[k]?.bind Channel.det = some det := by
      intro first state member
      obtain ⟨carries, k, det, place, known⟩ := all state member
      exact ⟨carries, k + 1, det, by omega, known⟩
    cases given : channel.det with
    | none =>
      refine ⟨generators, channel :: after, ?_, later channel⟩
      simp only [initTrafficGen, given, loaded, Option.bind_eq_bind, Option.bind_some]
    | some det =>
      obtain ⟨fresh, det', built, carries, -, own⟩ := fresh_carries
        (blank ix (addTimespec (tvToTs (clock ix)) 0 (random ix % 1000000000 : Nat)))
        (buildable channel List.mem_cons_self det given)
      refine ⟨fresh :: generators, { channel with det := some det' } :: after, ?_, ?_⟩
      · simp only [initTrafficGen, given, built, loaded, Option.bind_eq_bind, Option.bind_some]
      · intro state member
        rcases List.mem_cons.mp member with rfl | member
        · exact ⟨⟨_, _, _, carries⟩, 0, det', own, rfl⟩
        · exact later _ state member

theorem startUserTrafficGenerator_loaded (clock : Nat → Timeval) (random : Nat → Nat)
    {channels : List Channel}
    (buildable : ∀ channel ∈ channels, ∀ det, channel.det = some det → Buildable det) :
    ∃ generators after, Loaded after generators ∧
      ∀ readings, startUserTrafficGenerator clock random channels readings =
        userLoop after generators readings := by
  obtain ⟨generators, after, started, all⟩ := initTrafficGen_loaded clock random buildable 0
  refine ⟨generators, after, ?_, ?_⟩
  · intro state member
    obtain ⟨carries, k, det, place, known⟩ := all state member
    refine ⟨carries, det, ?_⟩
    rwa [detOf, place, Nat.zero_add]
  · intro readings
    simp only [startUserTrafficGenerator, started, Option.bind_eq_bind, Option.bind_some]

/-- The loop gets through when the generators were loaded, and whenever it gets through the packets
are sent in the order of their times. The one sent after `before` is scheduled exactly as many
delays after its generator's start as `before` has packets of that generator; and for every
generator, the next packet it has not sent yet is not scheduled earlier, nor at the same time if
the generator is a lower one. -/
theorem user_loop_is_sorted_merge (channels : List Channel) (generators : List PktDetails)
    (readings : List Timeval) :
    (Loaded channels generators → (userLoop channels generators readings).isSome) ∧
    ∀ sent after, userLoop channels generators readings = some (sent, after) →
      (sent.map (fun packet => packet.scheduled.nanos)).Pairwise (· ≤ ·) ∧
      ∀ before packet later, sent = before ++ packet :: later →
        let next := fun g => due generators g +
          before.countP (fun earlier => earlier.generator = g) * delay channels generators g
        packet.generator < generators.length ∧ packet.scheduled.nanos = next packet.generator ∧
          ∀ g < generators.length, packet.scheduled.nanos ≤ next g ∧
            (g < packet.generator → packet.scheduled.nanos < next g) := by
  refine ⟨fun loaded => ?_, fun sent after ran => ?_⟩
  · obtain ⟨sent, after, ran⟩ := userLoop_loaded loaded readings
    rw [ran]
    rfl
  have run := userLoop_run ran
  refine ⟨?_, ?_⟩
  · have sorted := run.sorted (fun g _ => delay_nonneg channels generators g)
    rwa [List.map_map] at sorted
  · intro before packet later split next
    rw [split, List.map_append, List.map_cons] at run
    have count : ∀ g, due generators g + served g (before.map entry) • delay channels generators g =
        next g := by
      intro g
      rw [served, List.countP_map, nsmul_eq_mul]
      rfl
    obtain ⟨mid, -, first, -⟩ := Run.before run
    obtain ⟨time, others⟩ := Run.entry run
    refine ⟨first.known, time.trans (count _), fun g inside => ?_⟩
    rw [← count g]
    exact others g inside

theorem user_loop_is_sorted_merge_two :
    let det : TrafGenDet :=
      { srcIp := ['1'], dstIpMax := ['2'], dstIpMin := ['2'], macDst := ['1'], macSrc := ['2'],
        udpSrcPort := 8080, udpDstPort := 8080, pktSize := 64, vlan := 0, delay := 1000 }
    let channels : List Channel := [⟨some det, .pcap⟩, ⟨some det, .pcap⟩]
    ∃ generators : List PktDetails, generators.length = 2 ∧ ∃ sent after,
      userLoop channels generators [⟨10, 0⟩, ⟨10, 1⟩] = some (sent, after) ∧
        (sent.map (fun packet => packet.scheduled.nanos)).Pairwise (· ≤ ·) := by
  intro det channels
  have buildable : Buildable det := ⟨⟨by decide, by decide⟩, by decide, by decide, by decide⟩
  obtain ⟨low, -, -, carries, -, lowChannel⟩ :=
    fresh_carries (blank 0 ⟨10, 0⟩) buildable
  obtain ⟨high, -, -, carries', -, highChannel⟩ :=
    fresh_carries (blank 1 ⟨9, 5⟩) buildable
  have loaded : Loaded channels [low, high] := by
    intro state member
    rcases List.mem_cons.mp member with rfl | member
    · exact ⟨⟨_, _, _, carries⟩, det, by rw [detOf, lowChannel]; rfl⟩
    · rw [List.mem_singleton.mp member]
      exact ⟨⟨_, _, _, carries'⟩, det, by rw [detOf, highChannel]; rfl⟩
  obtain ⟨through, merged⟩ :=
    user_loop_is_sorted_merge channels [low, high] [⟨10, 0⟩, ⟨10, 1⟩]
  obtain ⟨⟨sent, after⟩, ran⟩ := Option.isSome_iff_exists.mp (through loaded)
  exact ⟨[low, high], rfl, sent, after, ran, (merged sent after ran).1⟩

end Oflops.Traffic.Schedule
