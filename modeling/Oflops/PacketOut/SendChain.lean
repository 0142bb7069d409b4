import Oflops.PacketOut.Module

/-! How often the packet-out module is sending: the pending `SND_PKT` events, those that a thread
is about to schedule, and the starts of the sending keep in step along every run. -/

namespace Oflops.PacketOut.SendChain
open Lib.Machine Lib.Threads Time Timer.Refinement Timer.EventLoop PacketOut.Module
open Timer.Queue (Qelm)

def pending (arg : TimerArg) (shared : Shared) : Nat :=
  (queued shared.timers.queue).countP (fun element => element.data.arg = arg)

/-- How many events of this kind an operation schedules, then or after further operations. -/
def promised (arg : TimerArg) : Op → Nat
  | .after _ args => args.count arg
  | .schedule _ other => if other = arg then 1 else 0
  | .send => if .sndPkt = arg then 1 else 0
  | _ => 0

def sets : Op → Nat
  | .setStarted => 1
  | _ => 0

/-- Whether a step starts the sending: a `BARRIER_REPLY` is delivered, or the event thread finds
`started` unset. -/
def starts (state : State) : Event → Nat
  | .run thread _ _ =>
    match state.code thread with
    | .check :: _ => if state.shared.started = false then 1 else 0
    | _ => 0
  | .message version type => if barrierReply version = some type then 1 else 0

def launches (shared : Shared) (op : Op) : Nat :=
  if op = .check ∧ shared.started = false then 1 else 0

theorem pending_schedule (shared : Shared) (time : Timeval) (other arg : TimerArg) :
    pending arg (scheduleTimerEvent shared time other) =
      pending arg shared + if other = arg then 1 else 0 := by
  unfold pending scheduleTimerEvent
  rw [wcEventAdd_queued, Multiset.countP_add, ← Multiset.cons_zero, Multiset.countP_cons,
    Multiset.countP_zero, Nat.zero_add]
  rfl

section Exec

variable (config : Config) (shared : Shared) (now : Timeval) (backlog : Bool)

theorem sendTurn_frame :
    (sendTurn config shared now backlog).1.timers = shared.timers ∧
      (sendTurn config shared now backlog).1.started = shared.started := by
  unfold sendTurn generatePktOut initPace
  dsimp only
  split_ifs <;> exact ⟨rfl, rfl⟩

theorem exec_pending (arg : TimerArg) {op : Op} (other : op ≠ .runNext) :
    pending arg (exec config shared now backlog op).1 =
      pending arg shared + (exec config shared now backlog op).2.2.toList.count arg := by
  cases op with
  | runNext => exact absurd rfl other
  | schedule time scheduled =>
    change pending arg (scheduleTimerEvent shared time scheduled) = _ + [scheduled].count arg
    rw [pending_schedule, List.count_singleton']
  | poll =>
    by_cases ready : timerGetNextEvent shared.timers.queue now ≤ 0
    · simp [exec, ready]
    · simp [exec, ready]
  | check =>
    by_cases fresh : shared.started = false
    · simp [exec, fresh]
    · simp [exec, fresh]
  | send =>
    change pending arg (sendTurn config shared now backlog).1 = _
    rw [pending, (sendTurn_frame config shared now backlog).1]
    rfl
  | reset => rfl
  | after secs args => rfl
  | setStarted => rfl
  | endTest => rfl

theorem weigh_schedule (arg : TimerArg) (time : Timeval) (args : List TimerArg) :
    weigh (promised arg) (args.map (.schedule time)) = args.count arg := by
  induction args with
  | nil => rfl
  | cons first args ih =>
    rw [List.map_cons, weigh_cons, ih, List.count_cons, Nat.add_comm]
    simp only [promised, beq_iff_eq]

theorem exec_promised (arg : TimerArg) {op : Op} (other : op ≠ .runNext) :
    (exec config shared now backlog op).2.2.toList.count arg +
        weigh (promised arg) (exec config shared now backlog op).2.1 =
      promised arg op + if arg = .sndPkt ∨ arg = .byestr then launches shared op else 0 := by
  cases op with
  | runNext => exact absurd rfl other
  | reset => simp [exec, promised, launches]
  | after secs args => simp [exec, promised, launches, weigh_schedule]
  | schedule time scheduled => simp [exec, promised, launches, List.count_singleton']
  | poll =>
    by_cases ready : timerGetNextEvent shared.timers.queue now ≤ 0
    · simp [exec, promised, launches, ready]
    · simp [exec, promised, launches, ready]
  | check =>
    by_cases fresh : shared.started = false
    · cases arg <;> simp [exec, promised, launches, handleTimerEvent, fresh]
    · simp [exec, promised, launches, fresh]
  | setStarted => simp [exec, promised, launches]
  | send =>
    by_cases late : behind (sendTurn config shared now backlog).2 now
    · simp [exec, promised, launches, late]
    · simp [exec, promised, launches, late]
  | endTest => simp [exec, promised, launches]

theorem handle_sndPkt (arg : TimerArg) :
    weigh (promised .sndPkt) (handleTimerEvent arg) = if arg = .sndPkt then 1 else 0 := by
  cases arg <;> rfl

theorem handle_byestr (arg : TimerArg) : weigh (promised .byestr) (handleTimerEvent arg) = 0 := by
  cases arg <;> rfl

theorem runNext_sndPkt :
    pending .sndPkt (exec config shared now backlog .runNext).1 +
        weigh (promised .sndPkt) (exec config shared now backlog .runNext).2.1 =
      pending .sndPkt shared := by
  by_cases empty : shared.timers.queue.size < 1
  · simp only [exec, timerRunNextEvent_empty empty]
    rfl
  · have shrunk := taken_queued shared.timers.queue (Nat.le_refl 1) (not_lt.mp empty)
    have taken : pending .sndPkt shared =
        (queued (taken shared.timers.queue 1)).countP (fun element => element.data.arg = .sndPkt) +
          if (shared.timers.queue.array 1).data.arg = .sndPkt then 1 else 0 := by
      rw [pending, ← shrunk, Multiset.countP_add, ← Multiset.cons_zero, Multiset.countP_cons,
        Multiset.countP_zero, Nat.zero_add]
    simp only [exec, timerRunNextEvent_taken empty, Option.map_some, Option.getD_some,
      handle_sndPkt]
    exact taken.symm

theorem runNext_byestr :
    weigh (promised .byestr) (exec config shared now backlog .runNext).2.1 = 0 := by
  by_cases empty : shared.timers.queue.size < 1
  · simp only [exec, timerRunNextEvent_empty empty]
    rfl
  · simp only [exec, timerRunNextEvent_taken empty, Option.map_some, Option.getD_some,
      handle_byestr]

/-- Chains of `SND_PKT` events neither split nor end. -/
theorem exec_sndPkt (op : Op) :
    pending .sndPkt (exec config shared now backlog op).1 +
        weigh (promised .sndPkt) (exec config shared now backlog op).2.1 =
      pending .sndPkt shared + promised .sndPkt op + launches shared op := by
  by_cases other : op = .runNext
  · subst other
    exact runNext_sndPkt config shared now backlog
  · have kept := exec_promised config shared now backlog .sndPkt other
    rw [if_pos (Or.inl rfl)] at kept
    rw [exec_pending config shared now backlog .sndPkt other, Nat.add_assoc, kept, Nat.add_assoc]

theorem exec_byestr (op : Op) :
    (exec config shared now backlog op).2.2.toList.count .byestr +
        weigh (promised .byestr) (exec config shared now backlog op).2.1 =
      promised .byestr op + launches shared op := by
  by_cases other : op = .runNext
  · subst other
    rw [runNext_byestr config shared now backlog]
    rfl
  · have kept := exec_promised config shared now backlog .byestr other
    rwa [if_pos (Or.inr rfl)] at kept

theorem exec_sets (op : Op) :
    (exec config shared now backlog op).1.started.toNat +
        weigh sets (exec config shared now backlog op).2.1 ≤
      shared.started.toNat + sets op + launches shared op := by
  cases op with
  | reset => simp [exec]
  | after secs args =>
    have light : weigh sets (args.map (.schedule (addTime now secs 0))) = 0 := by
      apply weigh_eq_zero
      intro op member
      obtain ⟨arg, -, rfl⟩ := List.mem_map.mp member
      rfl
    simp [exec, light, sets, launches]
  | schedule time scheduled => simp [exec, scheduleTimerEvent, sets]
  | poll =>
    by_cases ready : timerGetNextEvent shared.timers.queue now ≤ 0
    · simp [exec, ready, sets]
    · simp [exec, ready, sets]
  | runNext =>
    have light : ∀ arg, weigh sets (handleTimerEvent arg) = 0 := by
      intro arg
      cases arg <;> rfl
    simp only [exec]
    cases (timerRunNextEvent shared.timers.queue).1 with
    | none => simp [sets]
    | some te => simp [light, sets]
  | check =>
    by_cases fresh : shared.started = false
    · simp [exec, fresh, sets, launches, handleTimerEvent]
    · simp [exec, fresh, sets, launches]
  | setStarted => simp [exec, sets, launches]
  | send =>
    simp only [exec, (sendTurn_frame config shared now backlog).2]
    split_ifs <;> simp [sets]
  | endTest => simp [exec, sets]

end Exec

section Runs

variable {config : Config} {state next : State} {event : Event} {scheduled : Option TimerArg}

theorem step_cases (stepped : step config state event = some (next, scheduled)) :
    (∃ thread now backlog op rest,
      event = .run thread now backlog ∧ state.code thread = op :: rest ∧
      next = ⟨(exec config state.shared now backlog op).1, Function.update state.code thread
        ((exec config state.shared now backlog op).2.1 ++ rest)⟩ ∧
      scheduled = (exec config state.shared now backlog op).2.2) ∨
    ∃ version type code, event = .message version type ∧ state.code .control = [] ∧
      ofMessage config version type = some code ∧
      next = { state with code := Function.update state.code .control code } ∧
      scheduled = none := by
  cases event with
  | run thread now backlog =>
    simp only [step] at stepped
    split_ifs at stepped
    cases code : state.code thread with
    | nil =>
      rw [code] at stepped
      cases stepped
    | cons op rest =>
      rw [code] at stepped
      cases stepped
      exact Or.inl ⟨thread, now, backlog, op, rest, rfl, code, rfl, rfl⟩
  | message version type =>
    simp only [step] at stepped
    split_ifs at stepped with busy
    obtain ⟨code, handled, stepped⟩ := Option.bind_eq_some_iff.mp stepped
    cases stepped
    exact Or.inr ⟨version, type, code, rfl, not_not.mp busy, handled, rfl, rfl⟩

theorem starts_run {thread : Thread} {op : Op} {rest : List Op}
    (code : state.code thread = op :: rest) (now : Timeval) (backlog : Bool) :
    starts state (.run thread now backlog) = launches state.shared op := by
  unfold starts launches
  dsimp only
  rw [code]
  cases op <;> simp

theorem ofMessage_starts (state : State) {version type : UInt8} {code : List Op}
    (handled : ofMessage config version type = some code) :
    weigh (promised .sndPkt) code = starts state (.message version type) ∧
      weigh (promised .byestr) code = starts state (.message version type) ∧
      weigh sets code = starts state (.message version type) := by
  obtain ⟨reply, known, handled⟩ := Option.bind_eq_some_iff.mp handled
  cases handled
  simp only [starts, known]
  by_cases barrier : type = reply
  · simp [barrier, handleTimerEvent, promised, sets]
  · simp [barrier, Ne.symm barrier]

/-- Chains, ends and starts: every start has a chain, pending or in the hands of a thread, and an
end, scheduled or in the hands of a thread. -/
structure Balanced (state : State) (log : List TimerArg) (count : Nat) : Prop where
  chain : pending .sndPkt state.shared + total (promised .sndPkt) state.code = count
  ends : log.count .byestr + total (promised .byestr) state.code = count
  begun : state.shared.started.toNat + total sets state.code ≤ count

theorem Balanced.step {past : List TimerArg} {count : Nat} (balanced : Balanced state past count)
    (stepped : step config state event = some (next, scheduled)) :
    Balanced next (past ++ scheduled.toList) (count + starts state event) := by
  obtain ⟨chain, ends, begun⟩ := balanced
  rcases step_cases stepped with ⟨thread, now, backlog, op, rest, rfl, code, rfl, rfl⟩ |
    ⟨version, type, code, rfl, idle, handled, rfl, rfl⟩
  · -- what the operation promised passes to what it leads to
    have first := exec_sndPkt config state.shared now backlog op
    have second := exec_byestr config state.shared now backlog op
    have third := exec_sets config state.shared now backlog op
    have moved₁ := total_advance (promised .sndPkt) code
      (exec config state.shared now backlog op).2.1
    have moved₂ := total_advance (promised .byestr) code
      (exec config state.shared now backlog op).2.1
    have moved₃ := total_advance sets code (exec config state.shared now backlog op).2.1
    rw [starts_run code]
    refine ⟨?_, ?_, ?_⟩
    · dsimp only
      omega
    · rw [List.count_append]
      dsimp only
      omega
    · dsimp only
      omega
  · obtain ⟨first, second, third⟩ := ofMessage_starts state handled
    refine ⟨?_, ?_, ?_⟩
    · dsimp only
      rw [total_wake _ idle, first, ← Nat.add_assoc, chain]
    · rw [Option.toList_none, List.append_nil]
      dsimp only
      rw [total_wake _ idle, second, ← Nat.add_assoc, ends]
    · dsimp only
      rw [total_wake _ idle, third]
      omega

theorem loaded_balanced (uninitialised : Nat → Qelm Unit TimerArg) (firstId : Int) :
    Balanced (loaded uninitialised firstId) [] 0 := by
  have empty : pending .sndPkt (loaded uninitialised firstId).shared = 0 := by
    rw [pending, queued_eq_zero Nat.zero_lt_one, Multiset.countP_zero]
  exact ⟨by rw [empty]; rfl, rfl, le_refl 0⟩

end Runs

/-- At most one `SND_PKT` is pending, and the end is scheduled exactly once when the handler that
starts the sending has returned, and not before. -/
structure Single (state : State) (log : List TimerArg) : Prop where
  chain : pending .sndPkt state.shared ≤ 1
  once : log.count .byestr ≤ 1
  ends : state.shared.started → total (promised .byestr) state.code = 0 → log.count .byestr = 1

/-- There is a single chain at every moment of a run. -/
def SingleChain (config : Config) (start : State) (events : List Event) : Prop :=
  ∀ before after mid log, events = before ++ after →
    run (step config) start before = some (mid, log) → Single mid log

/-- A run in which at most one step starts the sending has a single chain; and only such a run
has, once no handler is left that has yet to schedule the end. -/
theorem single_chain_of_one_start (config : Config) (uninitialised : Nat → Qelm Unit TimerArg)
    (firstId : Int) {events : List Event} {final : State} {log : List TimerArg}
    (ran : run (step config) (loaded uninitialised firstId) events = some (final, log)) :
    (tally (step config) starts (loaded uninitialised firstId) events ≤ 1 →
      SingleChain config (loaded uninitialised firstId) events) ∧
    (total (promised .byestr) final.code = 0 →
      SingleChain config (loaded uninitialised firstId) events →
        tally (step config) starts (loaded uninitialised firstId) events ≤ 1) := by
  have balanced : ∀ {events mid log},
      run (step config) (loaded uninitialised firstId) events = some (mid, log) →
        Balanced mid log (tally (step config) starts (loaded uninitialised firstId) events) := by
    intro events mid log ran
    have there := run_tally_invariant Balanced Balanced.step
      (loaded_balanced uninitialised firstId) ran
    rwa [List.nil_append, Nat.zero_add] at there
  constructor
  · rintro few before after mid early rfl ran'
    obtain ⟨chain, ends, begun⟩ := balanced ran'
    have part : tally (step config) starts (loaded uninitialised firstId) before ≤
        tally (step config) starts (loaded uninitialised firstId) (before ++ after) :=
      tally_append_le _ _ _ _
    refine ⟨by omega, by omega, ?_⟩
    intro started returned
    rw [started, Bool.toNat_true] at begun
    omega
  · intro returned single
    obtain ⟨-, ends, -⟩ := balanced ran
    have once := (single events [] final log (List.append_nil _).symm ran).once
    omega

def usual : Config where
  probeSndRate := 1000
  positive := by decide
  testDuration := 60
  checkBacklog := false

def unused : Nat → Qelm Unit TimerArg := fun _ => ⟨-1, ⟨0, 0⟩, ⟨⟨0, 0⟩, (), .unknown⟩⟩

def go (thread : Thread) (count : Nat) (now : Timeval) : List Event :=
  List.replicate count (.run thread now false)

/-- `start`, and the switch answers its barrier after 20 ms. -/
def answered : List Event :=
  go .main 4 ⟨1400000000, 0⟩ ++ [.message 4 21] ++ go .control 5 ⟨1400000000, 20000⟩

theorem single_chain_of_one_start_answered : SingleChain usual (loaded unused 0) answered := by
  obtain ⟨⟨final, log⟩, ran⟩ := Option.isSome_iff_exists.mp
    (show (run (step usual) (loaded unused 0) answered).isSome by decide +kernel)
  exact (single_chain_of_one_start usual unused 0 ran).1 (by decide +kernel)

/-- `start`, no answer within a second, so that the event thread starts the sending, and the
answer half a millisecond later. -/
def late : List Event :=
  go .main 4 ⟨1400000000, 0⟩ ++ go .timer 11 ⟨1400000001, 0⟩ ++ [.message 4 21] ++
    go .control 5 ⟨1400000001, 500⟩

/-- After a late answer two `SND_PKT` events are pending and two ends are scheduled. -/
theorem late_answer_doubles_chain :
    (∃ final log, run (step usual) (loaded unused 0) late = some (final, log) ∧
      pending .sndPkt final.shared = 2 ∧ log.count .byestr = 2) ∧
    ¬SingleChain usual (loaded unused 0) late := by
  have doubled : (run (step usual) (loaded unused 0) late).any
      (fun result => pending .sndPkt result.1.shared = 2 ∧ result.2.count .byestr = 2) := by
    decide +kernel
  obtain ⟨⟨final, log⟩, ran⟩ := Option.isSome_iff_exists.mp (Option.isSome_of_any doubled)
  rw [ran, Option.any_some, decide_eq_true_eq] at doubled
  obtain ⟨chain, ends⟩ := doubled
  refine ⟨⟨final, log, ran, chain, ends⟩, ?_⟩
  intro single
  have once := (single late [] final log (List.append_nil _).symm ran).once
  rw [ends] at once
  exact absurd once (by decide)

end Oflops.PacketOut.SendChain
