import Oflops.Lib.Bytes
import Oflops.Lib.Loop
import Oflops.PacketOut.Module

/-! The pace of the packet-out module: the handling of one `SND_PKT` event as a loop over the
readings of the clock, and a sequence of such handlings. -/

namespace Oflops.PacketOut.Pacing
open Lib.Bytes Lib.Loop Time PacketOut.Module

/-- What `generate_pkt_out` writes into a packet each time. -/
structure PktOut where
  xid : Nat
  tvSec : Nat
  tvUsec : Nat
  seqNum : Nat
  deriving DecidableEq, Repr

def pktOut (pktCounter : Nat) (now : Timeval) : PktOut where
  xid := pktCounter % 2 ^ 32
  tvSec := htonl (now.tvSec % 2 ^ 32).toNat
  tvUsec := htonl (now.tvUsec % 2 ^ 32).toNat
  seqNum := htonl pktCounter

structure Pacer where
  shared : Shared
  reads : Nat
  created : List PktOut

section Handling
variable (config : Config) (clock : Nat → Timeval) (backlog : Nat → Bool)

def turn (pacer : Pacer) : Option (Iter Pacer (Pacer × Timeval)) :=
  let now := clock pacer.reads
  let (shared, nextTv) := sendTurn config pacer.shared now (backlog pacer.reads)
  let next := ⟨shared, pacer.reads + 1, pacer.created ++ [pktOut pacer.shared.pktCounter now]⟩
  some (if behind nextTv now then .again next else .leave (next, nextTv))

/-- The `SND_PKT` branch of `handle_timer_event`, and the time it schedules. -/
def handleSndPkt (fuel : Nat) (pacer : Pacer) : Option (Pacer × Timeval) := do
  let (pacer, nextTv) ← loop (turn config clock backlog) fuel pacer
  some ({ pacer with shared := scheduleTimerEvent pacer.shared nextTv .sndPkt }, nextTv)

/-- What the rest of the program does after the handling with a given number: of the module it
leaves alone the static variables of the branch and `pkt_counter`. -/
structure Elsewhere where
  act : Nat → Shared → Shared
  intervalNs : ∀ k shared, (act k shared).intervalNs = shared.intervalNs
  nextTs : ∀ k shared, (act k shared).nextTs = shared.nextTs
  pktCounter : ∀ k shared, (act k shared).pktCounter = shared.pktCounter

/-- Handlings one after the other, and the time that the last one schedules. -/
def handleEach (elsewhere : Elsewhere) (fuel : Nat) : Nat → Pacer → Option (Pacer × Timeval)
  | 0, pacer => handleSndPkt config clock backlog fuel pacer
  | more + 1, pacer => do
    let (pacer, _) ← handleEach elsewhere fuel more pacer
    handleSndPkt config clock backlog fuel
      { pacer with shared := elsewhere.act more pacer.shared }

end Handling

/-- The schedule has not drifted: it is `pkt_counter` intervals behind its start. -/
structure Paced (start : Timespec) (interval : Nat) (shared : Shared) : Prop where
  intervalNs : shared.intervalNs = interval
  low : 0 ≤ shared.nextTs.tvNsec
  high : shared.nextTs.tvNsec < 1000000000
  begun : 0 < shared.nextTs.tvSec
  exact : shared.nextTs.nanos = start.nanos + shared.pktCounter * interval

structure Fresh (pacer : Pacer) : Prop where
  nextTs : pacer.shared.nextTs.tvSec = 0
  pktCounter : pacer.shared.pktCounter = 0
  created : pacer.created = []
  reads : pacer.reads = 0

section Turn
variable (config : Config) {start : Timespec} {interval : Nat} (shared : Shared) (now : Timeval)
  (backlog : Bool)

theorem initPace_paced (paced : Paced start interval shared) :
    initPace config shared now = shared :=
  if_neg (by have := paced.begun; omega)

theorem initPace_fresh (unset : shared.nextTs.tvSec = 0) (none' : shared.pktCounter = 0)
    (normalized : now.Normalized) (positive : 0 < now.tvSec) :
    Paced (tvToTs now) (1000000000 / config.probeSndRate) (initPace config shared now) := by
  have set : initPace config shared now =
      { shared with intervalNs := 1000000000 / config.probeSndRate, nextTs := tvToTs now } :=
    if_pos unset
  unfold Timeval.Normalized at normalized
  rw [set]
  constructor
  · rfl
  · change 0 ≤ now.tvUsec * 1000
    omega
  · change now.tvUsec * 1000 < 1000000000
    omega
  · exact positive
  · simp [none']

theorem sendTurn_fields :
    ∃ after, sendTurn config shared now backlog = (after, tsToTv after.nextTs) ∧
      after.intervalNs = (initPace config shared now).intervalNs ∧
      after.pktCounter = (initPace config shared now).pktCounter + 1 ∧
      after.nextTs = addTimespec (initPace config shared now).nextTs 0
        (initPace config shared now).intervalNs := by
  refine ⟨_, rfl, ?_⟩
  unfold generatePktOut
  split_ifs <;> exact ⟨rfl, rfl, rfl⟩

theorem sendTurn_paced (short : interval ≤ 1000000000)
    (paced : Paced start interval (initPace config shared now)) :
    ∃ after, sendTurn config shared now backlog = (after, tsToTv after.nextTs) ∧
      Paced start interval after ∧
      after.pktCounter = (initPace config shared now).pktCounter + 1 ∧
      after.nextTs.nanos = (initPace config shared now).nextTs.nanos + interval := by
  obtain ⟨after, turned, intervalNs, counted, moved⟩ := sendTurn_fields config shared now backlog
  have nanos := addTimespec_nanos (initPace config shared now).nextTs 0 interval
  obtain ⟨low, high, later⟩ := addTimespec_normalized paced.low paced.high
    (Int.natCast_nonneg interval) (by omega)
  rw [paced.intervalNs] at moved intervalNs
  rw [← moved] at nanos low high later
  rw [zero_mul, add_zero] at nanos
  refine ⟨after, turned, ⟨intervalNs, low, high, lt_of_lt_of_le paced.begun later, ?_⟩,
    counted, nanos⟩
  rw [nanos, paced.exact, counted]
  push_cast
  ring

end Turn

section Run
variable (config : Config) {clock : Nat → Timeval} (backlog : Nat → Bool) {start : Timespec}
  {interval : Nat}

def Numbered (pacer : Pacer) : Prop :=
  pacer.created.map PktOut.seqNum = (List.range pacer.shared.pktCounter).map htonl

structure Running (start : Timespec) (interval : Nat) (config : Config) (clock : Nat → Timeval)
    (pacer : Pacer) : Prop where
  paced : Paced start interval (initPace config pacer.shared (clock pacer.reads))
  numbered : Numbered pacer

theorem initPace_pktCounter (shared : Shared) (now : Timeval) :
    (initPace config shared now).pktCounter = shared.pktCounter := by
  unfold initPace
  split_ifs <;> rfl

theorem turn_running (short : interval ≤ 1000000000) {pacer : Pacer}
    (running : Running start interval config clock pacer) :
    ∃ next, Running start interval config clock next ∧ next.reads = pacer.reads + 1 ∧
      Paced start interval next.shared ∧
      next.shared.nextTs.nanos =
        (initPace config pacer.shared (clock pacer.reads)).nextTs.nanos + interval ∧
      turn config clock backlog pacer = some (
        if behind (tsToTv next.shared.nextTs) (clock pacer.reads) then .again next
        else .leave (next, tsToTv next.shared.nextTs)) := by
  obtain ⟨after, turned, paced, counted, moved⟩ :=
    sendTurn_paced config pacer.shared (clock pacer.reads) (backlog pacer.reads) short running.paced
  rw [initPace_pktCounter] at counted
  refine ⟨⟨after, pacer.reads + 1,
    pacer.created ++ [pktOut pacer.shared.pktCounter (clock pacer.reads)]⟩, ⟨?_, ?_⟩, rfl,
    paced, moved, ?_⟩
  · rw [initPace_paced config after _ paced]
    exact paced
  · rw [Numbered, counted, List.range_succ, List.map_append, List.map_append, running.numbered]
    rfl
  · rw [turn, turned]

theorem nanos_of_behind {ts : Timespec} {now bound : Timeval} (high : ts.tvNsec < 1000000000)
    (late : behind (tsToTv ts) now = true) (bounded : now ≤ bound) :
    ts.nanos < (bound.tvSec + 1) * 1000000000 := by
  have latest := Timeval.tvSec_mono bounded
  have order : ts.tvSec < now.tvSec ∨ ts.tvSec = now.tvSec ∧ _ := of_decide_eq_true late
  unfold Timespec.nanos
  omega

theorem lt_of_not_behind {nextTv now : Timeval} (ahead : ¬ behind nextTv now = true) :
    now < nextTv := by
  have order : ¬ (nextTv.tvSec < now.tvSec ∨
      nextTv.tvSec = now.tvSec ∧ nextTv.tvUsec ≤ now.tvUsec) :=
    fun late => ahead (decide_eq_true late)
  rw [Timeval.lt_def]
  omega

theorem loop_ends (positive : 0 < interval) (short : interval ≤ 1000000000) {bound : Timeval}
    (bounded : ∀ k, clock k ≤ bound) (left : Nat) (pacer : Pacer)
    (running : Running start interval config clock pacer)
    (near : ((bound.tvSec + 1) * 1000000000 -
      (initPace config pacer.shared (clock pacer.reads)).nextTs.nanos).toNat ≤ left) :
    ∃ last nextTv, loop (turn config clock backlog) (left + 1) pacer = some (last, nextTv) ∧
      Running start interval config clock last ∧ Paced start interval last.shared ∧
      ∃ k, last.reads = k + 1 ∧ clock k < nextTv := by
  -- The loop ends: each turn that leaves the schedule behind brings it one interval closer to the
  -- end of the second of the latest reading.
  induction left generalizing pacer with
  | zero =>
    obtain ⟨next, running', reads, paced, moved, turned⟩ :=
      turn_running config backlog short running
    have ahead : ¬ behind (tsToTv next.shared.nextTs) (clock pacer.reads) = true := by
      intro late
      have early := nanos_of_behind paced.high late (bounded _)
      omega
    rw [if_neg ahead] at turned
    exact ⟨next, _, loop_leave turned 0, running', paced, pacer.reads, reads,
      lt_of_not_behind ahead⟩
  | succ left ih =>
    obtain ⟨next, running', reads, paced, moved, turned⟩ :=
      turn_running config backlog short running
    by_cases late : behind (tsToTv next.shared.nextTs) (clock pacer.reads) = true
    · rw [if_pos late] at turned
      rw [loop_again turned]
      apply ih next running'
      rw [initPace_paced config next.shared _ paced]
      omega
    · rw [if_neg late] at turned
      exact ⟨next, _, loop_leave turned _, running', paced, pacer.reads, reads,
        lt_of_not_behind late⟩

theorem Paced.congr {before after : Shared} (paced : Paced start interval before)
    (intervalNs : after.intervalNs = before.intervalNs) (nextTs : after.nextTs = before.nextTs)
    (pktCounter : after.pktCounter = before.pktCounter) : Paced start interval after := by
  constructor
  · rw [intervalNs, paced.intervalNs]
  · rw [nextTs]
    exact paced.low
  · rw [nextTs]
    exact paced.high
  · rw [nextTs]
    exact paced.begun
  · rw [nextTs, pktCounter, paced.exact]

theorem Running.of_paced {pacer : Pacer} {shared : Shared} (numbered : Numbered pacer)
    (paced : Paced start interval shared)
    (pktCounter : shared.pktCounter = pacer.shared.pktCounter) :
    Running start interval config clock { pacer with shared } := by
  constructor
  · rw [initPace_paced config shared _ paced]
    exact paced
  · rw [Numbered, pktCounter]
    exact numbered

theorem handleSndPkt_eq (clock : Nat → Timeval) (fuel : Nat) (pacer : Pacer) :
    handleSndPkt config clock backlog fuel pacer =
      (loop (turn config clock backlog) fuel pacer).map fun (last, nextTv) =>
        ({ last with shared := scheduleTimerEvent last.shared nextTv .sndPkt }, nextTv) := by
  rw [handleSndPkt]
  cases loop (turn config clock backlog) fuel pacer <;> rfl

theorem handleSndPkt_mono {fuel more : Nat} {pacer : Pacer} {result : Pacer × Timeval}
    (handled : handleSndPkt config clock backlog fuel pacer = some result) (enough : fuel ≤ more) :
    handleSndPkt config clock backlog more pacer = some result := by
  rw [handleSndPkt_eq] at handled ⊢
  obtain ⟨last, ended, rfl⟩ := Option.map_eq_some_iff.mp handled
  rw [loop_mono ended enough, Option.map_some]

theorem handleEach_mono {elsewhere : Elsewhere} {fuel more n : Nat} {pacer : Pacer}
    {result : Pacer × Timeval}
    (handled : handleEach config clock backlog elsewhere fuel n pacer = some result)
    (enough : fuel ≤ more) :
    handleEach config clock backlog elsewhere more n pacer = some result := by
  induction n generalizing result with
  | zero => exact handleSndPkt_mono config backlog handled enough
  | succ n ih =>
    obtain ⟨⟨mid, nextTv⟩, before, last⟩ := Option.bind_eq_some_iff.mp handled
    rw [handleEach, ih before]
    exact handleSndPkt_mono config backlog last enough

structure Handled (start : Timespec) (interval : Nat) (config : Config) (clock : Nat → Timeval)
    (pacer : Pacer) (nextTv : Timeval) : Prop where
  running : Running start interval config clock pacer
  paced : Paced start interval pacer.shared
  later : ∃ k, pacer.reads = k + 1 ∧ clock k < nextTv

variable (positive : 0 < interval) (short : interval ≤ 1000000000) {bound : Timeval}
  (bounded : ∀ k, clock k ≤ bound)
include positive short bounded

theorem handle_ends (pacer : Pacer) (running : Running start interval config clock pacer) :
    ∃ fuel last nextTv, handleSndPkt config clock backlog fuel pacer = some (last, nextTv) ∧
      Handled start interval config clock last nextTv := by
  obtain ⟨left, near⟩ : ∃ left, ((bound.tvSec + 1) * 1000000000 -
      (initPace config pacer.shared (clock pacer.reads)).nextTs.nanos).toNat ≤ left :=
    ⟨_, Nat.le_refl _⟩
  obtain ⟨last, nextTv, ended, running', paced, later⟩ :=
    loop_ends config backlog positive short bounded left pacer running near
  have scheduled : Paced start interval (scheduleTimerEvent last.shared nextTv .sndPkt) :=
    paced.congr rfl rfl rfl
  refine ⟨left + 1, _, nextTv, ?_, .of_paced config running'.numbered scheduled rfl,
    scheduled, later⟩
  rw [handleSndPkt_eq, ended]
  rfl

theorem handleEach_ends (elsewhere : Elsewhere) (n : Nat) (pacer : Pacer)
    (running : Running start interval config clock pacer) :
    ∃ fuel last nextTv, handleEach config clock backlog elsewhere fuel n pacer =
      some (last, nextTv) ∧
      Handled start interval config clock last nextTv := by
  induction n with
  | zero => exact handle_ends config backlog positive short bounded pacer running
  | succ n ih =>
    obtain ⟨fuel, mid, nextTv, before, handled⟩ := ih
    have paced := handled.paced.congr (elsewhere.intervalNs n _) (elsewhere.nextTs n _)
      (elsewhere.pktCounter n _)
    obtain ⟨fuel', last, nextTv', after, handled'⟩ :=
      handle_ends config backlog positive short bounded _
        (.of_paced config handled.running.numbered paced (elsewhere.pktCounter n _))
    refine ⟨max fuel fuel', last, nextTv', ?_, handled'⟩
    rw [handleEach, handleEach_mono config backlog before (Nat.le_max_left _ _)]
    exact handleSndPkt_mono config backlog after (Nat.le_max_right _ _)

end Run

/-- Every handling ends. As long as `pkt_counter` is an `int`, the schedule is normalized and stands
`pkt_counter` intervals behind the first reading of the clock, the module is scheduled later than
the last reading, and the packets are numbered without a gap. -/
theorem snd_pkt_pacing (config : Config) (rate : config.probeSndRate ≤ 1000000000)
    (clock : Nat → Timeval) (bound : Timeval) (bounded : ∀ k, clock k ≤ bound)
    (normalized : (clock 0).Normalized) (positive : 0 < (clock 0).tvSec) (backlog : Nat → Bool)
    (elsewhere : Elsewhere) (pacer : Pacer) (fresh : Fresh pacer) (n : Nat) :
    ∃ fuel last nextTv, handleEach config clock backlog elsewhere fuel n pacer =
      some (last, nextTv) ∧
      (last.shared.pktCounter < 2 ^ 31 →
        0 ≤ last.shared.nextTs.tvNsec ∧ last.shared.nextTs.tvNsec < 1000000000 ∧
        last.shared.nextTs.nanos = (tvToTs (clock 0)).nanos +
          last.shared.pktCounter * (1000000000 / config.probeSndRate : Nat) ∧
        clock (last.reads - 1) < nextTv ∧
        last.created.map (fun packet => ntohl packet.seqNum) =
          List.range last.shared.pktCounter) := by
  have start := initPace_fresh config pacer.shared (clock 0) fresh.nextTs fresh.pktCounter
    normalized positive
  have running : Running (tvToTs (clock 0)) (1000000000 / config.probeSndRate) config
      clock pacer := by
    refine ⟨fresh.reads ▸ start, ?_⟩
    rw [Numbered, fresh.created, fresh.pktCounter]
    rfl
  obtain ⟨fuel, last, nextTv, ended, handled⟩ := handleEach_ends config backlog
    (Nat.div_pos rate config.positive) (Nat.div_le_self _ _) bounded elsewhere n pacer running
  refine ⟨fuel, last, nextTv, ended, fun small => ?_⟩
  obtain ⟨k, reads, later⟩ := handled.later
  refine ⟨handled.paced.low, handled.paced.high, handled.paced.exact, ?_, ?_⟩
  · rw [reads]
    exact later
  · have numbered := congrArg (List.map ntohl) handled.running.numbered
    rw [List.map_map, List.map_map] at numbered
    refine numbered.trans ((List.map_congr_left fun i inside => ?_).trans (List.map_id _))
    have fits : i < 2 ^ 32 := by
      have := List.mem_range.mp inside
      omega
    exact (swapBytes_swapBytes 4 i).trans (Nat.mod_eq_of_lt fits)

/-- The rate that `probe_snd_rate` has by default, a clock that stands still and the module as it is
loaded. -/
theorem snd_pkt_pacing_still :
    ∃ fuel last nextTv,
      handleEach ⟨1000, by decide, 10, false⟩ (fun _ => ⟨1400000000, 999999⟩) (fun _ => false)
        ⟨fun _ => id, fun _ _ => rfl, fun _ _ => rfl, fun _ _ => rfl⟩ fuel 2
        ⟨(loaded (fun _ => ⟨-1, ⟨0, 0⟩, ⟨⟨0, 0⟩, (), .unknown⟩⟩) 0).shared, 0, []⟩ =
          some (last, nextTv) ∧
      (last.shared.pktCounter < 2 ^ 31 →
        0 ≤ last.shared.nextTs.tvNsec ∧ last.shared.nextTs.tvNsec < 1000000000 ∧
        last.shared.nextTs.nanos = (tvToTs ⟨1400000000, 999999⟩).nanos +
          last.shared.pktCounter * (1000000000 / 1000 : Nat) ∧
        ⟨1400000000, 999999⟩ < nextTv ∧
        last.created.map (fun packet => ntohl packet.seqNum) = List.range last.shared.pktCounter) :=
  snd_pkt_pacing ⟨1000, by decide, 10, false⟩ (by decide) (fun _ => ⟨1400000000, 999999⟩)
    ⟨1400000000, 999999⟩ (fun _ => le_refl _) (by decide) (by decide) (fun _ => false)
    ⟨fun _ => id, fun _ _ => rfl, fun _ _ => rfl, fun _ _ => rfl⟩ _ ⟨rfl, rfl, rfl, rfl⟩ 2

end Oflops.PacketOut.Pacing
