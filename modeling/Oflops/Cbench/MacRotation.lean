import Mathlib.Data.Int.ModEq
import Oflops.Cbench.Session

/-! The source addresses of the probes. A fake switch counts its probes modulo the number of
addresses that `-M` asks for, and writes the count and its own id into the address. -/

namespace Oflops.Cbench.MacRotation
open Lib.Bytes Lib.Loop Lib.Machine Lib.Record Stream.Buffer Time Protocol Switch HandleRead Session

/-- The value of `-M`: `main` takes whatever `atoi` returns. -/
structure MacAddresses where
  value : Int
  low : -2 ^ 31 ≤ value
  high : value < 2 ^ 31

structure Setup where
  id : Int
  bufsize : Nat
  positive : 0 < bufsize
  delay : Int
  mode : TestMode
  delayStart : Timeval
  buffer : Nat → UInt8
  clock : Nat → Timeval

def Setup.start (setup : Setup) (totalMacAddresses : Int) : Timed :=
  ⟨fakeswitchInit setup.id setup.bufsize setup.positive setup.delay setup.mode totalMacAddresses
    setup.delayStart setup.buffer, setup.clock⟩

/-- The `ether_shost` of the frame in a PACKET_IN message. -/
def sourceAddress (message : List UInt8) : List UInt8 := slice message 24 6

def queuedBy (state : Timed) : Event → List (List UInt8)
  | .write _ =>
    if state.fs.readyToSend = 1 then (sendCount state.fs).elim [] (packets · state.fs) else []
  | _ => []

def probes (state : Timed) : List Event → List (List UInt8)
  | [] => []
  | event :: events =>
    queuedBy state event ++ (step state event).elim [] fun next => probes next.1 events

/-- No division by zero, and the promised addresses in turn. -/
structure Rotates (totalMacAddresses : Int) : Prop where
  logged : ∀ (setup : Setup) (events : List Event) {final : Timed} {log : List (List Act)},
    run step (setup.start totalMacAddresses) events = some (final, log) →
      probes (setup.start totalMacAddresses) events = log.flatten.filterMap probeOf
  divides : ∀ (setup : Setup) (events : List Event) {final : Timed} {log : List (List Act)},
    run step (setup.start totalMacAddresses) events = some (final, log) →
      ∀ room, (fakeswitchHandleWrite final room).isSome
  distinct : ∀ (setup : Setup) (events : List Event) {final : Timed} {log : List (List Act)},
    run step (setup.start totalMacAddresses) events = some (final, log) →
      ∀ {i j : Nat} {first second : List UInt8}, i < j → j < i + totalMacAddresses.natAbs →
        (probes (setup.start totalMacAddresses) events)[i]? = some first →
        (probes (setup.start totalMacAddresses) events)[j]? = some second →
          sourceAddress first ≠ sourceAddress second
  periodic : ∀ (setup : Setup) (events : List Event) {final : Timed} {log : List (List Act)},
    run step (setup.start totalMacAddresses) events = some (final, log) →
      ∀ {k : Nat} {first second : List UInt8},
        (probes (setup.start totalMacAddresses) events)[k]? = some first →
        (probes (setup.start totalMacAddresses) events)[k + totalMacAddresses.natAbs]? =
          some second →
          sourceAddress first = sourceAddress second
  apart : ∀ (setup other : Setup), 0 ≤ setup.id → setup.id < 256 → 0 ≤ other.id → other.id < 256 →
    setup.id ≠ other.id →
    ∀ (events events' : List Event) {final final' : Timed} {log log' : List (List Act)},
    run step (setup.start totalMacAddresses) events = some (final, log) →
    run step (other.start totalMacAddresses) events' = some (final', log') →
      ∀ first ∈ probes (setup.start totalMacAddresses) events,
        ∀ second ∈ probes (other.start totalMacAddresses) events',
          sourceAddress first ≠ sourceAddress second

/-! The address. -/

theorem sourceAddress_eq (id : Int) (bufferId : Nat) (macAddress : Int) :
    sourceAddress (makePacketIn id bufferId macAddress) =
      0 :: (leBytes 4 (macAddress % 2 ^ 32).toNat ++ leBytes 1 (id % 256).toNat) := rfl

theorem sourceAddress_count {id id' : Int} {x y : Nat} (first : x < 2 ^ 32) (second : y < 2 ^ 32)
    (same : sourceAddress (makePacketIn id 0 x) = sourceAddress (makePacketIn id' 0 y)) :
    x = y ∧ id % 256 = id' % 256 := by
  rw [sourceAddress_eq, sourceAddress_eq, List.cons.injEq] at same
  obtain ⟨count, ids⟩ := List.append_inj same.2 (by rw [leBytes_length, leBytes_length])
  have left := leBytes_inj (by omega) (by omega) count
  have right := leBytes_inj (by omega) (by omega) ids
  omega

/-! The counter. -/

def probeAt (id : Int) (m k : Nat) : List UInt8 := makePacketIn id 0 (k % m : Nat)

structure Turning (id total : Int) (fs : Fakeswitch) (past : List (List UInt8)) : Prop where
  own : fs.id = id
  totalMacAddresses : fs.totalMacAddresses = total
  probeSize : fs.probeSize = 82
  currentMacAddress : fs.currentMacAddress = (past.length % total.natAbs : Nat)
  sent : past = (List.range past.length).map (probeAt id total.natAbs)

def macFields (fs : Fakeswitch) : Int × Int × Int × Int :=
  (fs.id, fs.totalMacAddresses, fs.probeSize, fs.currentMacAddress)

section Turns

variable {id total : Int} {fs next : Fakeswitch} {past : List (List UInt8)}

theorem Turning.congr (turning : Turning id total fs past) (same : macFields next = macFields fs) :
    Turning id total next past := by
  obtain ⟨sameId, sameTotal, sameSize, sameCurrent⟩ :
      next.id = fs.id ∧ next.totalMacAddresses = fs.totalMacAddresses ∧
        next.probeSize = fs.probeSize ∧
        next.currentMacAddress = fs.currentMacAddress := by
    simpa [macFields] using same
  exact ⟨sameId.trans turning.own, sameTotal.trans turning.totalMacAddresses,
    sameSize.trans turning.probeSize, sameCurrent.trans turning.currentMacAddress, turning.sent⟩

theorem next_count (total : Int) (k : Nat) :
    (((k % total.natAbs : Nat) : Int) + 1).tmod total = ((k + 1) % total.natAbs : Nat) := by
  obtain ⟨m, rfl | rfl⟩ := Int.eq_nat_or_neg total
  · rw [Int.natAbs_natCast, Int.tmod_eq_emod_of_nonneg (by omega)]
    exact_mod_cast Nat.mod_add_mod k m 1
  · rw [Int.natAbs_neg, Int.natAbs_natCast, Int.tmod_neg, Int.tmod_eq_emod_of_nonneg (by omega)]
    exact_mod_cast Nat.mod_add_mod k m 1

theorem Turning.probe (turning : Turning id total fs past) (some' : total ≠ 0) :
    ∃ next, queueProbe fs = some next ∧
      Turning id total next (past ++ [makePacketIn fs.id 0 fs.currentMacAddress]) := by
  have queued : queueProbe fs = some _ := if_neg (by rwa [turning.totalMacAddresses])
  refine ⟨_, queued, turning.own, turning.totalMacAddresses, turning.probeSize, ?_, ?_⟩
  · rw [List.length_append, List.length_singleton, ← next_count, ← turning.currentMacAddress,
      ← turning.totalMacAddresses]
  · rw [List.length_append, List.length_singleton, List.range_succ, List.map_append, ← turning.sent,
      List.map_singleton, turning.own, turning.currentMacAddress]
    rfl

theorem Turning.burst (turning : Turning id total fs past) (some' : total ≠ 0) (n : Nat) :
    ∃ next, queueProbes n fs = some next ∧ Turning id total next (past ++ packets n fs) := by
  induction n generalizing fs past with
  | zero =>
    rw [packets, List.append_nil]
    exact ⟨fs, rfl, turning⟩
  | succ n ih =>
    obtain ⟨mid, one, turned⟩ := turning.probe some'
    obtain ⟨next, rest, done⟩ := ih turned
    refine ⟨next, ?_, ?_⟩
    · rw [queueProbes, one, Option.bind_some, rest]
    · rw [packets, one, Option.elim_some]
      rwa [List.append_assoc] at done

theorem sendCount_some (turning : Turning id total fs past) : ∃ n, sendCount fs = some n := by
  unfold sendCount
  dsimp only
  split_ifs with latency throughput zero
  · exact ⟨_, rfl⟩
  · rw [turning.probeSize] at zero
    exact absurd zero (by decide)
  · exact ⟨_, rfl⟩
  · exact ⟨_, rfl⟩

end Turns

/-! The handlers. -/

theorem dispatch_mac (state : Timed) (ofph : Nat) :
    macFields (clampProbes (dispatch state ofph)).fs = macFields state.fs := by
  have clamped (next : Timed) : macFields (clampProbes next).fs = macFields next.fs := by
    unfold clampProbes
    split_ifs <;> rfl
  rw [clamped]
  unfold dispatch
  dsimp only
  split <;> try split_ifs
  all_goals rfl

theorem handleMessage_mac {state next : Timed} (taken : handleMessage state = some (.again next)) :
    macFields next.fs = macFields state.fs := by
  rw [handleMessage_pulled taken]
  exact dispatch_mac _ _

theorem handleRead_mac {fuel : Nat} {state next : Timed} {result : ReadResult}
    (returned : fakeswitchHandleRead fuel state result = some (.ok next)) :
    macFields next.fs = macFields state.fs := by
  have start : macFields (received state result).fs = macFields state.fs := rfl
  refine loop_invariant (fun other : Timed => macFields other.fs = macFields state.fs)
    (fun other : Timed => macFields other.fs = macFields state.fs) ?_ ?_ start
    (handleRead_ended returned).2
  · intro before after held taken
    exact (handleMessage_mac taken).trans held
  · intro before after held taken
    exact handleMessage_leave taken ▸ held

section Handlers

variable {id total : Int} {state : Timed} {past : List (List UInt8)}

theorem Turning.prepare (turning : Turning id total state.fs past) (some' : total ≠ 0)
    (room : Int) :
    ∃ n started next, prepareWrite state = some (n, started, next) ∧
      Turning id total next.fs (past ++ queuedBy state (.write room)) := by
  unfold prepareWrite queuedBy
  split_ifs with ready waiting
  · obtain ⟨n, due⟩ := sendCount_some turning
    obtain ⟨fs, queued, turned⟩ := turning.burst some' n
    rw [due, Option.bind_eq_bind, Option.bind_some, queued, Option.bind_eq_bind, Option.bind_some,
      Option.elim_some]
    exact ⟨_, _, _, rfl, turned⟩
  · rw [List.append_nil]
    dsimp only
    split_ifs
    · exact ⟨_, _, _, rfl, turning.congr rfl⟩
    · exact ⟨_, _, _, rfl, turning⟩
  · rw [List.append_nil]
    exact ⟨_, _, _, rfl, turning⟩

theorem Turning.write (turning : Turning id total state.fs past) (some' : total ≠ 0) (room : Int) :
    ∃ written next, fakeswitchHandleWrite state room = some (written, next) ∧
      Turning id total next.fs (past ++ queuedBy state (.write room)) := by
  obtain ⟨n, started, mid, prepared, turned⟩ := turning.prepare some' room
  unfold fakeswitchHandleWrite
  rw [prepared, Option.bind_eq_bind, Option.bind_some]
  dsimp only
  split_ifs
  · exact ⟨_, _, rfl, turned.congr rfl⟩
  · exact ⟨_, _, rfl, turned⟩

theorem Turning.step (turning : Turning id total state.fs past) (some' : total ≠ 0) {event : Event}
    {next : Timed} {output : Option (List Act)}
    (stepped : Session.step state event = some (next, output)) :
    Turning id total next.fs (past ++ queuedBy state event) := by
  cases event with
  | read fuel result =>
    change Turning id total next.fs (past ++ [])
    rw [List.append_nil]
    exact turning.congr (handleRead_mac (step_read stepped).1)
  | write room =>
    obtain ⟨written, after, wrote, turned⟩ := turning.write some' room
    rw [Session.step, wrote, Option.map_some] at stepped
    cases stepped
    exact turned
  | getCount fuel results =>
    obtain ⟨inbuf, after, -⟩ := step_getCount stepped
    change Turning id total next.fs (past ++ [])
    rw [List.append_nil, after]
    exact turning.congr rfl

theorem Turning.run (turning : Turning id total state.fs past) (some' : total ≠ 0)
    {events : List Event} {final : Timed} {log : List (List Act)}
    (ran : Lib.Machine.run Session.step state events = some (final, log)) :
    Turning id total final.fs (past ++ probes state events) := by
  induction events generalizing state past log with
  | nil =>
    cases ran
    rwa [probes, List.append_nil]
  | cons event events ih =>
    obtain ⟨next, output, rest, stepped, later, -⟩ := run_cons ran
    rw [probes, stepped, Option.elim_some, ← List.append_assoc]
    exact ih (turning.step some' stepped) later

end Handlers

theorem queuedBy_logged {state next : Timed} {event : Event} {output : Option (List Act)}
    (stepped : step state event = some (next, output)) :
    queuedBy state event = output.toList.flatten.filterMap probeOf := by
  cases event with
  | read fuel result =>
    obtain ⟨-, rfl⟩ := step_read stepped
    rw [Option.toList_some, List.flatten_singleton, List.filterMap_map]
    exact (List.filterMap_eq_nil_iff.mpr fun _ _ => rfl).symm
  | getCount fuel results =>
    obtain ⟨inbuf, -, rfl⟩ := step_getCount stepped
    rfl
  | write room =>
    obtain ⟨⟨written, after⟩, wrote, same⟩ := Option.map_eq_some_iff.mp stepped
    cases same
    have packed : (Written.acts state.fs written).filterMap probeOf =
        packets written.probes state.fs := by
      have started : (written.started.toList.map Act.started).filterMap probeOf = [] := by
        rw [List.filterMap_map]
        exact List.filterMap_eq_nil_iff.mpr fun _ _ => rfl
      have own : ((packets written.probes state.fs).map Act.probe).filterMap probeOf =
          packets written.probes state.fs := by
        rw [List.filterMap_map]
        exact List.filterMap_some
      rw [Written.acts, List.filterMap_append, List.filterMap_append, started, own, List.append_nil]
      exact List.append_nil _
    rw [Option.toList_some, List.flatten_singleton, packed, queuedBy]
    obtain ⟨⟨n, started, mid⟩, prepared, rest⟩ := Option.bind_eq_some_iff.mp wrote
    have number : written.probes = n := by
      dsimp only at rest
      split_ifs at rest
      all_goals
        cases rest
        rfl
    unfold prepareWrite at prepared
    dsimp only at prepared
    rw [number]
    split_ifs at prepared ⊢
    · obtain ⟨m, due, prepared⟩ := Option.bind_eq_some_iff.mp prepared
      obtain ⟨fs, -, prepared⟩ := Option.bind_eq_some_iff.mp prepared
      cases prepared
      rw [due, Option.elim_some]
    all_goals
      cases prepared
      rfl

theorem probes_logged {state final : Timed} {events : List Event} {log : List (List Act)}
    (ran : run step state events = some (final, log)) :
    probes state events = log.flatten.filterMap probeOf := by
  induction events generalizing state log with
  | nil =>
    cases ran
    rfl
  | cons event events ih =>
    obtain ⟨next, output, rest, stepped, later, rfl⟩ := run_cons ran
    rw [probes, stepped, Option.elim_some, ih later, queuedBy_logged stepped, List.flatten_append,
      List.filterMap_append]

theorem Setup.turning (setup : Setup) (total : Int) :
    Turning setup.id total (setup.start total).fs [] where
  own := rfl
  totalMacAddresses := rfl
  probeSize := rfl
  currentMacAddress := by
    rw [List.length_nil, Nat.zero_mod]
    rfl
  sent := rfl

theorem probes_eq (setup : Setup) {total : Int} (some' : total ≠ 0) {events : List Event}
    {final : Timed} {log : List (List Act)}
    (ran : run step (setup.start total) events = some (final, log)) {k : Nat} {probe : List UInt8}
    (sent : (probes (setup.start total) events)[k]? = some probe) :
    probe = probeAt setup.id total.natAbs k := by
  have turned := (setup.turning total).run some' ran
  rw [List.nil_append] at turned
  have inside := (List.getElem?_eq_some_iff.mp sent).1
  rw [turned.sent, List.getElem?_map, List.getElem?_range inside] at sent
  exact (Option.some.inj sent).symm

theorem mem_probes (setup : Setup) {total : Int} (some' : total ≠ 0) {events : List Event}
    {final : Timed} {log : List (List Act)}
    (ran : run step (setup.start total) events = some (final, log)) {probe : List UInt8}
    (member : probe ∈ probes (setup.start total) events) :
    ∃ k, probe = probeAt setup.id total.natAbs k := by
  obtain ⟨k, there⟩ := List.mem_iff_getElem?.mp member
  exact ⟨k, probes_eq setup some' ran there⟩

def halted : Setup := ⟨1, 32, Nat.succ_pos 31, 0, .latency, ⟨0, 0⟩, fun _ => 0, fun _ => ⟨0, 0⟩⟩

theorem halted_divides : ∃ final log,
    run step (halted.start 0) [.read 2 (.data [1, 5, 0, 8, 0, 0, 0, 7])] = some (final, log) ∧
      fakeswitchHandleWrite final 1000 = none := by
  have fails : (run step (halted.start 0) [.read 2 (.data [1, 5, 0, 8, 0, 0, 0, 7])]).any
      (fun result => (fakeswitchHandleWrite result.1 1000).isNone) := by decide +kernel
  obtain ⟨⟨final, log⟩, ran⟩ : ∃ result,
      run step (halted.start 0) [.read 2 (.data [1, 5, 0, 8, 0, 0, 0, 7])] = some result :=
    Option.isSome_iff_exists.mp (Option.isSome_of_any fails)
  rw [ran, Option.any_some] at fails
  exact ⟨final, log, ran, Option.isNone_iff_eq_none.mp fails⟩

theorem not_rotates_zero : ¬Rotates 0 := by
  intro rotates
  obtain ⟨final, log, ran, fails⟩ := halted_divides
  have works := rotates.divides halted _ ran 1000
  rw [fails] at works
  cases works

/-- The probes take turns as promised for every value of `-M` but zero. -/
theorem rotates_iff (macAddresses : MacAddresses) :
    Rotates macAddresses.value ↔ macAddresses.value ≠ 0 := by
  have low := macAddresses.low
  have high := macAddresses.high
  constructor
  · intro rotates zero
    exact not_rotates_zero (zero ▸ rotates)
  · intro some'
    have fits (k : Nat) : k % macAddresses.value.natAbs < 2 ^ 32 := by
      have below := Nat.mod_lt k (Int.natAbs_pos.mpr some')
      omega
    constructor
    · intro setup events final log ran
      exact probes_logged ran
    · intro setup events final log ran room
      have turned := (setup.turning macAddresses.value).run some' ran
      obtain ⟨written, next, wrote, -⟩ := turned.write some' room
      rw [wrote]
      rfl
    · intro setup events final log ran i j first second before near there there' same
      rw [probes_eq setup some' ran there, probes_eq setup some' ran there'] at same
      have counts : i ≡ j [MOD macAddresses.value.natAbs] :=
        (sourceAddress_count (fits i) (fits j) same).1
      have multiple := (Nat.modEq_iff_dvd' before.le).mp counts
      have large := Nat.le_of_dvd (Nat.sub_pos_of_lt before) multiple
      omega
    · intro setup events final log ran k first second there there'
      rw [probes_eq setup some' ran there, probes_eq setup some' ran there', probeAt, probeAt,
        Nat.add_mod_right]
    · intro setup other low high low' high' different events events' final final' log log' ran
        ran' first member
        second member' same
      obtain ⟨i, rfl⟩ := mem_probes setup some' ran member
      obtain ⟨j, rfl⟩ := mem_probes other some' ran' member'
      have ids := (sourceAddress_count (fits i) (fits j) same).2
      omega

/-- With `-M 0` the first probe after the features request divides by zero. -/
theorem no_addresses_divide_by_zero :
    (∃ final log, run step (halted.start 0) [.read 2 (.data [1, 5, 0, 8, 0, 0, 0, 7])] =
      some (final, log) ∧
      fakeswitchHandleWrite final 1000 = none) ∧ ¬Rotates 0 :=
  ⟨halted_divides, not_rotates_zero⟩

end Oflops.Cbench.MacRotation
