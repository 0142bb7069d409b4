import Oflops.Lib.Machine
import Oflops.Traffic.Construction

/-! The times of the user-space generators, from `init_traffic_gen` through any number of calls of
`send_pkt`: `add_timespec` carries one second at most, while a delay can be more than four. -/

namespace Oflops.Traffic.Timestamps
open Lib.Machine Time Packet Wire UserLoop Schedule Due Construction

/-- The nanoseconds of a time and the microseconds that `ts_to_tv` makes of them are below one
second. -/
structure InRange (ts : Timespec) : Prop where
  low : 0 ≤ ts.tvNsec
  high : ts.tvNsec < 1000000000
  usec : (tsToTv ts).Normalized

theorem inRange_of_bounds {ts : Timespec} (bounds : 0 ≤ ts.tvNsec ∧ ts.tvNsec < 1000000000) :
    InRange ts := ⟨bounds.1, bounds.2, tsToTv_normalized bounds.1 bounds.2⟩

theorem InRange.add {ts : Timespec} (inRange : InRange ts) {nsecs : Nat}
    (short : nsecs ≤ 1000000000) : InRange (addTimespec ts 0 nsecs) := by
  obtain ⟨low, high, -⟩ :=
    addTimespec_normalized inRange.low inRange.high (Int.natCast_nonneg nsecs)
    (by omega)
  exact inRange_of_bounds ⟨low, high⟩

theorem startTime_inRange {clock : Nat → Timeval} (normalized : ∀ ix, (clock ix).Normalized)
    (random : Nat → Nat) (ix : Nat) : InRange (startTime clock random ix) := by
  have offset := Nat.mod_lt (random ix) (show 0 < 1000000000 by decide)
  exact (inRange_of_bounds (tvToTs_normalized (normalized ix))).add offset.le

def call (channels : List Channel) (generators : List PktDetails) (event : Nat × Timeval) :
    Option (List PktDetails × Option Sent) :=
  (perform channels generators event.2 (.send event.1)).map Prod.swap

section Call
variable {channels : List Channel} {generators : List PktDetails} {ix : Nat} {now : Timeval}

theorem call_eq {state after : PktDetails} {det : TrafGenDet} {frame : List UInt8}
    (found : generators[ix]? = some state) (known : detOf channels state = some det)
    (done : sendPkt state det.delay now = some (frame, after)) :
    call channels generators (ix, now) =
      some (generators.set ix after, some ⟨ix, state.timestamp, now, frame⟩) := by
  rw [call, perform_send found known done]
  rfl

theorem call_cases {next : List PktDetails} {sent : Option Sent}
    (called : call channels generators (ix, now) = some (next, sent)) :
    ∃ state det frame after, generators[ix]? = some state ∧ detOf channels state = some det ∧
      sendPkt state det.delay now = some (frame, after) ∧ next = generators.set ix after := by
  obtain ⟨⟨_, _⟩, performed, called⟩ := Option.map_eq_some_iff.mp called
  cases called
  obtain ⟨state, det, frame, after, found, known, done, -, moved⟩ := perform_cases performed
  exact ⟨state, det, frame, after, found, known, done, moved⟩

end Call

theorem userLoop_calls {channels : List Channel} {generators final : List PktDetails}
    {readings : List Timeval} {sent : List Sent}
    (ran : userLoop channels generators readings = some (sent, final)) :
    run (call channels) generators (sent.map fun packet => (packet.generator, packet.now)) =
      some (final, sent) := by
  induction readings generalizing generators sent with
  | nil =>
    cases ran
    rfl
  | cons now readings ih =>
    rcases userLoop_cases ran with rest |
      ⟨nr, state, det, frame, after, later, -, found, known, done, rest, rfl⟩
    · exact ih rest
    · exact run_of_step (call_eq found known done) (ih rest)

theorem sendPkt_made {state after : PktDetails} {det : TrafGenDet} {wait : UInt32} {now : Timeval}
    {frame : List UInt8} (made : Made state det)
    (done : sendPkt state wait now = some (frame, after)) : Made after det := by
  obtain ⟨_, -, -, size, rfl⟩ := sendPkt_cases done
  exact ⟨made.small, size.trans made.size, made.place⟩

/-- A generator whose time is in range and stays there when it sends: if its packet has room, so
that it can send at all, its delay is at most one second. -/
structure Sound (channels : List Channel) (state : PktDetails) : Prop where
  inRange : InRange state.timestamp
  short : ∀ det, detOf channels state = some det →
    Made state det ∧ (Roomy det → det.delay.toNat ≤ 1000000000)

theorem Sound.send {channels : List Channel} {state after : PktDetails} {det : TrafGenDet}
    {now : Timeval} {frame : List UInt8} (sound : Sound channels state)
    (known : detOf channels state = some det)
    (done : sendPkt state det.delay now = some (frame, after)) : Sound channels after := by
  obtain ⟨time, own⟩ := sendPkt_timestamp done
  obtain ⟨made, short⟩ := sound.short det known
  constructor
  · rw [time]
    exact sound.inRange.add (short (made.roomy done))
  · intro other known'
    rw [detOf, own] at known'
    cases known'.symm.trans known
    exact ⟨sendPkt_made made done, short⟩

theorem call_sound {channels : List Channel} {generators next : List PktDetails}
    {event : Nat × Timeval} {sent : Option Sent}
    (sound : ∀ state ∈ generators, Sound channels state)
    (called : call channels generators event = some (next, sent)) :
    ∀ state ∈ next, Sound channels state := by
  obtain ⟨state, det, frame, after, found, known, done, rfl⟩ := call_cases called
  intro other member
  rcases List.mem_or_eq_of_mem_set member with old | rfl
  · exact sound other old
  · exact (sound state (List.mem_of_getElem? found)).send known done

theorem run_sound {channels : List Channel} {generators final : List PktDetails}
    {calls : List (Nat × Timeval)} {log : List Sent}
    (sound : ∀ state ∈ generators, Sound channels state)
    (ran : run (call channels) generators calls = some (final, log)) :
    ∀ state ∈ final, Sound channels state :=
  run_state_invariant (fun generators => ∀ state ∈ generators, Sound channels state)
    call_sound sound ran

/-- Generator `g` began with `nsec` nanoseconds, and every packet of the calls so far has added at
least what its delay is above one second. -/
def Drifts (channels : List Channel) (g : Nat) (det : TrafGenDet) (nsec : Int)
    (generators : List PktDetails) (calls : List (Nat × Timeval)) : Prop :=
  ∃ state, generators[g]? = some state ∧ detOf channels state = some det ∧
    nsec + calls.countP (fun event => event.1 = g) * ((det.delay.toNat : Int) - 1000000000) ≤
      state.timestamp.tvNsec

theorem Drifts.call {channels : List Channel} {g : Nat} {det : TrafGenDet} {nsec : Int}
    {generators next : List PktDetails} {calls : List (Nat × Timeval)} {event : Nat × Timeval}
    {sent : Option Sent} (drifts : Drifts channels g det nsec generators calls)
    (called : call channels generators event = some (next, sent)) :
    Drifts channels g det nsec next (calls ++ [event]) := by
  obtain ⟨ix, now⟩ := event
  obtain ⟨state, own, known, bound⟩ := drifts
  obtain ⟨state', det', frame, after, found, known', done, rfl⟩ := call_cases called
  unfold Drifts
  rw [List.countP_append]
  by_cases mine : ix = g
  · subst mine
    cases found.symm.trans own
    cases known'.symm.trans known
    obtain ⟨time, channel⟩ := sendPkt_timestamp done
    have inside : ix < generators.length := (List.getElem?_eq_some_iff.mp own).1
    have carried := le_addTimespec_tvNsec state.timestamp 0 det.delay.toNat
    refine ⟨after, List.getElem?_set_self inside, by rw [detOf, channel]; exact known, ?_⟩
    rw [time, List.countP_singleton, if_pos (decide_eq_true rfl), Nat.cast_add,
      Nat.cast_one, add_mul, one_mul]
    omega
  · refine ⟨state, by rw [List.getElem?_set_ne mine]; exact own, known, ?_⟩
    rw [List.countP_singleton, if_neg (by simpa using mine), Nat.add_zero]
    exact bound

/-- An excess is never repaired: with a delay above one second the nanoseconds of a generator grow
with every packet it sends, whatever the others do. -/
theorem run_drifts {channels : List Channel} {generators final : List PktDetails}
    {calls : List (Nat × Timeval)} {log : List Sent} {g : Nat} {state : PktDetails}
    {det : TrafGenDet} (found : generators[g]? = some state)
    (known : detOf channels state = some det)
    (ran : run (call channels) generators calls = some (final, log)) :
    Drifts channels g det state.timestamp.tvNsec final calls := by
  have start : Drifts channels g det state.timestamp.tvNsec generators [] :=
    ⟨state, found, known, by simp⟩
  exact run_invariant (fun drifts called => drifts.call called) start ran

/-- `init_traffic_gen` gets through. -/
def Starts (channels : List Channel) : Prop :=
  (initTrafficGen (fun _ => ⟨0, 0⟩) (fun _ => 0) 0 channels).isSome

instance (channels : List Channel) : Decidable (Starts channels) :=
  inferInstanceAs (Decidable (_ = _))

/-- Every generator that gets to send waits for at most one second between two packets. -/
def DelaysShort (channels : List Channel) : Prop :=
  Starts channels → ∀ det ∈ channels.filterMap Channel.det, Roomy det → det.delay.toNat ≤ 1000000000

instance (channels : List Channel) : Decidable (DelaysShort channels) :=
  inferInstanceAs (Decidable (_ → _))

/-- Whatever `gettimeofday` and `rand` return, and however often and in whatever order `send_pkt` is
called, all times are in range. -/
def StaysInRange (channels : List Channel) : Prop :=
  ∀ clock random, (∀ ix, (clock ix).Normalized) →
    ∀ generators after, initTrafficGen clock random 0 channels = some (generators, after) →
      ∀ calls final log, run (call after) generators calls = some (final, log) →
        ∀ state ∈ final, InRange state.timestamp

/-- The same of the calls that the loop of the thread makes. -/
def LoopStaysInRange (channels : List Channel) : Prop :=
  ∀ clock random, (∀ ix, (clock ix).Normalized) →
    ∀ readings sent final, startUserTrafficGenerator clock random channels readings =
      some (sent, final) →
      ∀ state ∈ final, InRange state.timestamp

theorem mem_details {channels : List Channel} {det : TrafGenDet} :
    det ∈ channels.filterMap Channel.det ↔ ∃ k : Nat, channels[k]?.bind Channel.det = some det := by
  rw [List.mem_filterMap]
  constructor
  · rintro ⟨channel, member, given⟩
    obtain ⟨k, place⟩ := List.getElem?_of_mem member
    exact ⟨k, by rw [place, Option.bind_some, given]⟩
  · rintro ⟨k, given⟩
    obtain ⟨channel, place, given⟩ := Option.bind_eq_some_iff.mp given
    exact ⟨channel, List.mem_of_getElem? place, given⟩

section Start
variable {clock : Nat → Timeval} {random : Nat → Nat} {channels after : List Channel}
  {state : PktDetails} {k : Nat} {det det' : TrafGenDet}

theorem left_details (builtFor : BuiltFor clock random 0 channels after state k det det') :
    detOf after state = some det' ∧ Made state det' ∧ det'.delay = det.delay ∧
      (Roomy det' ↔ Roomy det) := by
  have started := builtFor.started
  obtain ⟨code, built⟩ := builtFor.built
  have own : detOf after state = some det' := by
    rw [detOf, started.own, Nat.zero_add]
    exact builtFor.left
  obtain ⟨-, data, -, ⟨-, -, -, rfl⟩ | ⟨-, -, -, rfl⟩⟩ := innitialize_cases built
  · exact ⟨own, started.made, rfl, Iff.rfl⟩
  · exact ⟨own, ⟨started.made.small, started.made.size, started.made.place⟩, rfl, Iff.rfl⟩

theorem builtFor_sound (normalized : ∀ ix, (clock ix).Normalized)
    (builtFor : BuiltFor clock random 0 channels after state k det det')
    (short : Roomy det → det.delay.toNat ≤ 1000000000) : Sound after state := by
  obtain ⟨known, made, delay, roomy⟩ := left_details builtFor
  constructor
  · rw [builtFor.started.time]
    exact startTime_inRange normalized random _
  · intro other known'
    cases known'.symm.trans known
    rw [delay, roomy]
    exact ⟨made, short⟩

theorem builtFor_sends (builtFor : BuiltFor clock random 0 channels after state k det det')
    (roomy : Roomy det) (wait : UInt32) (now : Timeval) : (sendPkt state wait now).isSome := by
  obtain ⟨code, built⟩ := builtFor.built
  have least := le_headerSize det
  obtain ⟨room, -⟩ := roomy
  obtain ⟨-, data, size, ⟨small, -⟩ | ⟨-, -, rfl, -⟩⟩ := innitialize_cases built
  · omega
  · exact sendPkt_fits rfl rfl (size ▸ room) wait now

end Start

theorem staysInRange_of_delaysShort {channels : List Channel} (short : DelaysShort channels) :
    StaysInRange channels := by
  intro clock random normalized generators after loaded calls final log ran
  have starts : Starts channels := initTrafficGen_isSome _ _ (Option.isSome_of_eq_some loaded)
  have sound : ∀ state ∈ generators, Sound after state := by
    intro state member
    obtain ⟨k, det, det', builtFor⟩ := (initTrafficGen_built loaded).1 state member
    exact builtFor_sound normalized builtFor
      (short starts det (mem_details.mpr ⟨k, builtFor.given⟩))
  intro state member
  exact (run_sound sound ran state member).inRange

theorem loopStaysInRange_of_staysInRange {channels : List Channel}
    (inRange : StaysInRange channels) : LoopStaysInRange channels := by
  intro clock random normalized readings sent final ran
  obtain ⟨⟨generators, after⟩, loaded, ran⟩ := Option.bind_eq_some_iff.mp ran
  exact inRange clock random normalized generators after loaded _ final sent (userLoop_calls ran)

/-- With the clock at one microsecond, the generator of channel `k` starts in the last nanosecond of
a second and all others later. -/
def latest (k ix : Nat) : Nat := if ix = k then 999998999 else 999999999

theorem startTime_latest (k : Nat) : startTime (fun _ => ⟨0, 1⟩) (latest k) k = ⟨0, 999999999⟩ := by
  rw [startTime, latest, if_pos rfl]
  decide

theorem latest_first (k ix : Nat) (other : ix ≠ k) :
    (startTime (fun _ => ⟨0, 1⟩) (latest k) k).nanos <
      (startTime (fun _ => ⟨0, 1⟩) (latest k) ix).nanos := by
  rw [startTime_latest, startTime, latest, if_neg other]
  decide

theorem delaysShort_of_loopStaysInRange {channels : List Channel}
    (inRange : LoopStaysInRange channels) : DelaysShort channels := by
  intro starts det member roomy
  obtain ⟨k, given⟩ := mem_details.mp member
  obtain ⟨⟨generators, after⟩, loaded⟩ := Option.isSome_iff_exists.mp
    (initTrafficGen_isSome (fun _ => ⟨0, 1⟩) (latest k) starts)
  obtain ⟨nr, state, det', chosen, found, builtFor⟩ :=
    getMinGenerator_alone loaded given (latest_first k)
  obtain ⟨known, -, delay, -⟩ := left_details builtFor
  have time : state.timestamp = ⟨0, 999999999⟩ := by
    rw [builtFor.started.time, Nat.zero_add, startTime_latest]
  have sends : action generators ⟨1, 0⟩ = some (.send nr) := by
    rw [action_chosen chosen found, time]
    rfl
  obtain ⟨⟨frame, next⟩, done⟩ :=
    Option.isSome_iff_exists.mp (builtFor_sends builtFor roomy det'.delay ⟨1, 0⟩)
  have taken : turn after generators ⟨1, 0⟩ =
      some (some ⟨nr, state.timestamp, ⟨1, 0⟩, frame⟩, generators.set nr next) := by
    rw [turn_eq, sends, Option.bind_some, perform_send found known done]
  have ran : userLoop after generators [⟨1, 0⟩] =
      some ([⟨nr, state.timestamp, ⟨1, 0⟩, frame⟩], generators.set nr next) := by
    simp only [userLoop, taken, Option.bind_eq_bind, Option.bind_some, Option.toList_some,
      List.append_nil]
  have started : startUserTrafficGenerator (fun _ => ⟨0, 1⟩) (latest k) channels [⟨1, 0⟩] =
      userLoop after generators [⟨1, 0⟩] := by
    rw [startUserTrafficGenerator, loaded, Option.bind_eq_bind, Option.bind_some]
  obtain ⟨last, there, -, drifted⟩ := run_drifts found known (userLoop_calls ran)
  have high := (inRange _ _ (fun _ => by decide) _ _ _ (started.trans ran) last
    (List.mem_of_getElem? there)).high
  -- one packet is enough: the start leaves a single nanosecond below the carry that is made
  rw [time, List.map_singleton, List.countP_singleton, if_pos (decide_eq_true rfl),
    delay] at drifted
  dsimp only at drifted
  omega

/-- All times stay in range, for the calls of the loop as for any others, exactly when no generator
that gets to send has a delay above one second. -/
theorem stays_in_range_iff (channels : List Channel) :
    (StaysInRange channels ↔ DelaysShort channels) ∧
      (LoopStaysInRange channels ↔ DelaysShort channels) := by
  have general : StaysInRange channels ↔ DelaysShort channels := by
    constructor
    · intro inRange
      exact delaysShort_of_loopStaysInRange (loopStaysInRange_of_staysInRange inRange)
    · exact staysInRange_of_delaysShort
  refine ⟨general, delaysShort_of_loopStaysInRange, ?_⟩
  intro short
  exact loopStaysInRange_of_staysInRange (general.mpr short)

def spaced (delay : UInt32) : List Channel := [⟨some { sized 64 0xffff with delay }, .pcap⟩]

/-- With a delay of two seconds the first packet leaves a full second in the nanoseconds, the second
packet two of them. -/
theorem two_seconds_out_of_range :
    (startUserTrafficGenerator (fun _ => ⟨1400000000, 0⟩) (fun _ => 0) (spaced 2000000000)
        [⟨1400000000, 0⟩]).map (fun result => result.2.map PktDetails.timestamp) =
      some [⟨1400000001, 1000000000⟩] ∧
    (startUserTrafficGenerator (fun _ => ⟨1400000000, 0⟩) (fun _ => 0) (spaced 2000000000)
        [⟨1400000000, 0⟩, ⟨1400000002, 0⟩]).map (fun result => result.2.map PktDetails.timestamp) =
      some [⟨1400000002, 2000000000⟩] ∧
    ¬LoopStaysInRange (spaced 2000000000) ∧ ¬StaysInRange (spaced 2000000000) := by
  have first : (startUserTrafficGenerator (fun _ => ⟨1400000000, 0⟩) (fun _ => 0)
      (spaced 2000000000)
      [⟨1400000000, 0⟩]).map (fun result => result.2.map PktDetails.timestamp) =
        some [⟨1400000001, 1000000000⟩] := by decide +kernel
  have breaks : ¬LoopStaysInRange (spaced 2000000000) := by
    intro inRange
    obtain ⟨⟨sent, final⟩, ran, times⟩ := Option.map_eq_some_iff.mp first
    obtain ⟨state, member, time⟩ := List.mem_map.mp (times ▸ List.mem_singleton_self _)
    have high := (inRange _ _ (fun _ => by decide) _ _ _ ran state member).high
    rw [time] at high
    exact absurd high (by decide)
  refine ⟨first, by decide +kernel, breaks, ?_⟩
  intro inRange
  exact breaks (loopStaysInRange_of_staysInRange inRange)

end Oflops.Traffic.Timestamps
