import Oflops.Lib.Machine

/-! The life cycle of tests: the loop of `main` (`oflops.c`) over the loaded tests, the three
threads it starts for each of them and the flags that end them. Module code may call
`oflops_end_test` from any thread as long as a test lasts. -/

namespace Oflops.Harness.Lifecycle
open Lib.Machine

inductive TrafficGenValues where
  | userSpace
  | pktgen
  | nfPktgen
  deriving DecidableEq, Repr

/-- The fields of `oflops_context` that start and end tests; `currTest` is an index into the
tests, and `closed` are the tests whose library was closed. -/
structure Context where
  nTests : Nat
  trafficGen : TrafficGenValues
  currTest : Option Nat
  closed : List Nat
  started : Bool
  endTrafficGeneration : Bool
  endEvent : Bool
  endModule : Bool
  shouldContinue : Int
  deriving DecidableEq, Repr

def defaultContext (nTests : Nat) (trafficGen : TrafficGenValues) : Context where
  nTests := nTests
  trafficGen := trafficGen
  currTest := none
  closed := []
  started := false
  endTrafficGeneration := false
  endEvent := false
  endModule := false
  shouldContinue := 0

def resetContext (ctx : Context) : Context :=
  match ctx.currTest with
  | some test => { ctx with closed := test :: ctx.closed }
  | none => ctx

inductive Thread where
  | module
  | trafficGen
  | event
  deriving DecidableEq, Repr

inductive Status where
  | idle
  | running
  | cancelled
  | returned
  deriving DecidableEq, Repr

/-- Where `main` is in the body of its loop: before the loop condition, in `setup_test_module`, in
`setup_control_channel` and the module's `start`, between the last two `pthread_create`, or in one
of the three `pthread_join`. -/
inductive Phase where
  | condition
  | setup
  | starting
  | timers
  | joinTraffic
  | joinEvent
  | joinModule
  | finished
  deriving DecidableEq, Repr

structure State where
  ctx : Context
  i : Nat
  phase : Phase
  thread : Status
  trafficGen : Status
  eventThread : Status
  deriving DecidableEq, Repr

def initial (nTests : Nat) (trafficGen : TrafficGenValues) : State where
  ctx := defaultContext nTests trafficGen
  i := 0
  phase := .condition
  thread := .idle
  trafficGen := .idle
  eventThread := .idle

/-- Steps of `main`, of the threads, and of module code. -/
inductive Event where
  | enter
  | createModule
  | createTraffic
  | createEvent
  | joinTraffic
  | joinEvent
  | joinModule
  | endTest (shouldContinue : Int)
  | trafficReturns
  | eventTurn
  | eventReturns
  | moduleTurn
  | moduleReturns
  deriving DecidableEq, Repr

/-- What is observed of a run: threads started, with the context at that moment, calls of
`oflops_end_test`, and turns of the loops of the event and module threads. -/
inductive Entry where
  | start (test : Nat) (thread : Thread) (ctx : Context)
  | ended (test : Nat) (shouldContinue : Int)
  | turn (test : Nat) (thread : Thread)
  deriving DecidableEq, Repr

/-- A cancelled thread still runs up to its next cancellation point. -/
def oflopsEndTest (s : State) (shouldContinue : Int) : State :=
  { s with
    ctx := { s.ctx with endTrafficGeneration := true, shouldContinue }
    trafficGen :=
      if s.ctx.trafficGen = .pktgen ∧ s.trafficGen = .running then .cancelled else s.trafficGen }

def step (s : State) : Event → Option (State × Option Entry)
  | .enter =>
    if s.phase = .condition then
      if s.i < s.ctx.nTests then
        some ({ s with
          ctx := { resetContext s.ctx with currTest := some s.i, started := false }
          phase := .setup }, none)
      else some ({ s with phase := .finished }, none)
    else none
  | .createModule =>
    if s.phase = .setup then
      some ({ s with phase := .starting, thread := .running }, some (.start s.i .module s.ctx))
    else none
  | .createTraffic =>
    if s.phase = .starting then
      let ctx := { s.ctx with started := true }
      some ({ s with ctx, phase := .timers, trafficGen := .running },
        some (.start s.i .trafficGen ctx))
    else none
  | .createEvent =>
    if s.phase = .timers then
      some ({ s with phase := .joinTraffic, eventThread := .running },
        some (.start s.i .event s.ctx))
    else none
  | .joinTraffic =>
    if s.phase = .joinTraffic ∧ s.trafficGen = .returned then
      some ({ s with ctx := { s.ctx with endEvent := true }, phase := .joinEvent }, none)
    else none
  | .joinEvent =>
    if s.phase = .joinEvent ∧ s.eventThread = .returned then
      some ({ s with ctx := { s.ctx with endModule := true }, phase := .joinModule }, none)
    else none
  | .joinModule =>
    if s.phase = .joinModule ∧ s.thread = .returned then
      some ({ s with i := s.i + 1, phase := .condition }, none)
    else none
  | .endTest shouldContinue =>
    if s.phase ≠ .condition ∧ s.phase ≠ .finished then
      some (oflopsEndTest s shouldContinue, some (.ended s.i shouldContinue))
    else none
  | .trafficReturns =>
    if s.trafficGen = .running ∨ s.trafficGen = .cancelled then
      some ({ s with trafficGen := .returned }, none)
    else none
  | .eventTurn =>
    if s.eventThread = .running ∧ s.ctx.endEvent = false then some (s, some (.turn s.i .event))
    else none
  | .eventReturns =>
    if s.eventThread = .running ∧ s.ctx.endEvent = true then
      some ({ s with eventThread := .returned }, none)
    else none
  | .moduleTurn =>
    if s.thread = .running ∧ s.ctx.endModule = false then some (s, some (.turn s.i .module))
    else none
  | .moduleReturns =>
    if s.thread = .running ∧ s.ctx.endModule = true then
      some ({ s with thread := .returned }, none)
    else none

def Phase.eventEnded : Phase → Bool
  | .joinEvent | .joinModule => true
  | _ => false

def Phase.moduleEnded : Phase → Bool
  | .joinModule => true
  | _ => false

def Event.endsTest : Event → Bool
  | .endTest _ => true
  | _ => false

def Event.creates : Event → Bool
  | .createModule | .createTraffic | .createEvent => true
  | _ => false

structure Flags (s : State) (past : List Event) : Prop where
  test : s.i = past.count .joinModule
  traffic : s.ctx.endTrafficGeneration = past.any Event.endsTest
  event : s.ctx.endEvent = (decide (0 < s.i) || s.phase.eventEnded)
  module : s.ctx.endModule = (decide (0 < s.i) || s.phase.moduleEnded)

theorem initial_flags (nTests : Nat) (trafficGen : TrafficGenValues) :
    Flags (initial nTests trafficGen) [] := ⟨rfl, rfl, rfl, rfl⟩

theorem count_joinModule {past : List Event} {event : Event} (other : event ≠ .joinModule) :
    (past ++ [event]).count .joinModule = past.count .joinModule := by
  rw [List.count_append, List.count_singleton, if_neg (by simpa using other), Nat.add_zero]

theorem any_endsTest (past : List Event) (event : Event) :
    (past ++ [event]).any Event.endsTest = (past.any Event.endsTest || event.endsTest) := by
  rw [List.any_append, List.any_cons, List.any_nil, Bool.or_false]

theorem Flags.test_past {s : State} {past : List Event} {event : Event} (flags : Flags s past)
    (other : event ≠ .joinModule) : s.i = (past ++ [event]).count .joinModule :=
  flags.test.trans (count_joinModule other).symm

theorem Flags.traffic_past {s : State} {past : List Event} {event : Event} (flags : Flags s past)
    (quiet : event.endsTest = false) :
    s.ctx.endTrafficGeneration = (past ++ [event]).any Event.endsTest := by
  rw [any_endsTest, quiet, Bool.or_false]
  exact flags.traffic

theorem Flags.frame {s next : State} {past : List Event} {event : Event} (flags : Flags s past)
    (other : event ≠ .joinModule) (quiet : event.endsTest = false) (test : next.i = s.i)
    (traffic : next.ctx.endTrafficGeneration = s.ctx.endTrafficGeneration)
    (event' : next.ctx.endEvent = s.ctx.endEvent) (module : next.ctx.endModule = s.ctx.endModule)
    (eventEnded : next.phase.eventEnded = s.phase.eventEnded)
    (moduleEnded : next.phase.moduleEnded = s.phase.moduleEnded) :
    Flags next (past ++ [event]) := by
  refine ⟨?_, ?_, ?_, ?_⟩
  · exact test.trans (flags.test_past other)
  · exact traffic.trans (flags.traffic_past quiet)
  · rw [event', flags.event, test, eventEnded]
  · rw [module, flags.module, test, moduleEnded]

theorem resetContext_flags (ctx : Context) :
    (resetContext ctx).endTrafficGeneration = ctx.endTrafficGeneration ∧
      (resetContext ctx).endEvent = ctx.endEvent ∧
      (resetContext ctx).endModule = ctx.endModule := by
  unfold resetContext
  split <;> exact ⟨rfl, rfl, rfl⟩

theorem guarded {guard : Prop} [Decidable guard] {result : Option (State × Option Entry)}
    {next : State} {output : Option Entry}
    (stepped : (if guard then result else none) = some (next, output)) :
    guard ∧ result = some (next, output) := Option.ite_none_right_eq_some.mp stepped

theorem step_flags {s next : State} {past : List Event} {event : Event} {output : Option Entry}
    (flags : Flags s past) (stepped : step s event = some (next, output)) :
    Flags next (past ++ [event]) := by
  cases event with
  | enter =>
    obtain ⟨here, stepped⟩ := guarded stepped
    obtain ⟨traffic, event, module⟩ := resetContext_flags s.ctx
    split_ifs at stepped
    · cases stepped
      exact flags.frame (by decide) rfl rfl traffic event module (by rw [here]; rfl)
        (by rw [here]; rfl)
    · cases stepped
      exact flags.frame (by decide) rfl rfl rfl rfl rfl (by rw [here]; rfl) (by rw [here]; rfl)
  | createModule | createTraffic | createEvent =>
    obtain ⟨here, stepped⟩ := guarded stepped
    cases stepped
    exact flags.frame (by decide) rfl rfl rfl rfl rfl (by rw [here]; rfl) (by rw [here]; rfl)
  | joinTraffic =>
    obtain ⟨⟨here, -⟩, stepped⟩ := guarded stepped
    cases stepped
    refine ⟨flags.test_past (by decide), flags.traffic_past rfl, (Bool.or_true _).symm, ?_⟩
    exact flags.module.trans (by rw [here]; rfl)
  | joinEvent =>
    obtain ⟨⟨here, -⟩, stepped⟩ := guarded stepped
    cases stepped
    refine ⟨flags.test_past (by decide), flags.traffic_past rfl, ?_, (Bool.or_true _).symm⟩
    exact flags.event.trans (by rw [here]; rfl)
  | joinModule =>
    obtain ⟨⟨here, -⟩, stepped⟩ := guarded stepped
    cases stepped
    have event := flags.event
    have module := flags.module
    rw [here] at event module
    refine ⟨?_, flags.traffic_past rfl, event.trans (Bool.or_true _), module.trans (Bool.or_true _)⟩
    rw [List.count_append, ← flags.test]
    rfl
  | endTest shouldContinue =>
    obtain ⟨-, stepped⟩ := guarded stepped
    cases stepped
    refine ⟨flags.test_past (by simp), ?_, flags.event, flags.module⟩
    rw [any_endsTest]
    exact (Bool.or_true _).symm
  | trafficReturns | eventTurn | eventReturns | moduleTurn | moduleReturns =>
    obtain ⟨-, stepped⟩ := guarded stepped
    cases stepped
    exact flags.frame (by decide) rfl rfl rfl rfl rfl rfl rfl

theorem run_flags {nTests : Nat} {trafficGen : TrafficGenValues} {events : List Event}
    {final : State} {log : List Entry}
    (ran : run step (initial nTests trafficGen) events = some (final, log)) :
    Flags final events := run_invariant step_flags (initial_flags nTests trafficGen) ran

theorem step_creates {s next : State} {event : Event} {output : Option Entry}
    (stepped : step s event = some (next, output)) (creates : event.creates = true) :
    ∃ thread ctx, output = some (.start s.i thread ctx) ∧
      ctx.endTrafficGeneration = s.ctx.endTrafficGeneration ∧ ctx.endEvent = s.ctx.endEvent ∧
      ctx.endModule = s.ctx.endModule ∧ s.phase.eventEnded = false ∧
      s.phase.moduleEnded = false := by
  cases event with
  | createModule | createTraffic | createEvent =>
    obtain ⟨here, stepped⟩ := guarded stepped
    cases stepped
    exact ⟨_, _, rfl, rfl, rfl, rfl, by rw [here]; rfl, by rw [here]; rfl⟩
  | _ => cases creates

theorem creates_of_start {s next : State} {event : Event} {test : Nat} {thread : Thread}
    {ctx : Context} (stepped : step s event = some (next, some (.start test thread ctx))) :
    event.creates = true := by
  cases event with
  | createModule | createTraffic | createEvent => rfl
  | enter =>
    obtain ⟨-, stepped⟩ := guarded stepped
    split_ifs at stepped
    · cases stepped
    · cases stepped
  | _ =>
    obtain ⟨-, stepped⟩ := guarded stepped
    cases stepped

/-- From the second test on, neither the event loop nor the module's loop makes a turn. -/
theorem later_tests_idle {nTests : Nat} {trafficGen : TrafficGenValues} {events : List Event}
    {final : State} {log : List Entry}
    (ran : run step (initial nTests trafficGen) events = some (final, log)) {test : Nat}
    {thread : Thread} (turned : Entry.turn test thread ∈ log) : test = 0 := by
  obtain ⟨before, event, after, mid, early, next, -, ran', stepped⟩ := mem_log ran turned
  have flags := run_flags ran'
  have first : ∀ {ended : Bool}, (decide (0 < mid.i) || ended) = false → mid.i = 0 := by
    intro ended off
    rw [Bool.or_eq_false_iff, decide_eq_false_iff_not] at off
    omega
  cases event with
  | eventTurn =>
    obtain ⟨⟨-, off⟩, stepped⟩ := guarded stepped
    cases stepped
    exact first (flags.event.symm.trans off)
  | moduleTurn =>
    obtain ⟨⟨-, off⟩, stepped⟩ := guarded stepped
    cases stepped
    exact first (flags.module.symm.trans off)
  | enter =>
    obtain ⟨-, stepped⟩ := guarded stepped
    split_ifs at stepped
    · cases stepped
    · cases stepped
  | _ =>
    obtain ⟨-, stepped⟩ := guarded stepped
    cases stepped

def Clear (ctx : Context) : Prop :=
  ctx.endTrafficGeneration = false ∧ ctx.endEvent = false ∧ ctx.endModule = false

def callOf (test : Nat) : Entry → Option Int
  | .ended during shouldContinue => if during = test then some shouldContinue else none
  | _ => none

/-- The last such call of the test asked the suite to stop. -/
def EndedFatally (log : List Entry) (test : Nat) : Prop :=
  (log.filterMap (callOf test)).getLast? = some 0

/-- Every test finds all flags cleared, and none comes after one that asked to stop. -/
structure FreshCycles (log : List Entry) : Prop where
  clear : ∀ test thread ctx, Entry.start test thread ctx ∈ log → Clear ctx
  stops : ∀ test later thread ctx, test < later → Entry.start later thread ctx ∈ log →
    ¬EndedFatally log test

theorem clear_iff {nTests : Nat} {trafficGen : TrafficGenValues} {before : List Event}
    {mid next : State} {early : List Entry} {event : Event} {test : Nat} {thread : Thread}
    {ctx : Context} (ran : run step (initial nTests trafficGen) before = some (mid, early))
    (stepped : step mid event = some (next, some (.start test thread ctx))) :
    test = before.count .joinModule ∧
      (Clear ctx ↔ ∀ earlier ∈ before, earlier ≠ .joinModule ∧ earlier.endsTest = false) := by
  have flags := run_flags ran
  obtain ⟨thread', ctx', same, traffic, event', module, eventEnded, moduleEnded⟩ :=
    step_creates stepped (creates_of_start stepped)
  cases same
  have count := flags.test
  rw [flags.traffic] at traffic
  rw [flags.event, eventEnded, Bool.or_false] at event'
  rw [flags.module, moduleEnded, Bool.or_false] at module
  refine ⟨count, ?_⟩
  rw [Clear, traffic, event', module, count]
  constructor
  · rintro ⟨quiet, zero, -⟩ earlier member
    constructor
    · rintro rfl
      exact decide_eq_false_iff_not.mp zero (List.count_pos_iff.mpr member)
    · simpa using List.any_eq_false.mp quiet earlier member
  · intro calm
    have zero : before.count .joinModule = 0 :=
      List.count_eq_zero.mpr (fun member => (calm _ member).1 rfl)
    refine ⟨List.any_eq_false.mpr ?_, by rw [zero]; rfl, by rw [zero]; rfl⟩
    intro earlier member
    rw [(calm earlier member).2]
    decide

/-- Nothing clears the flags: life cycles are fresh exactly in the runs in which no thread is
created after a test is over, nor after a call of `oflops_end_test`. -/
theorem freshCycles_iff {nTests : Nat} {trafficGen : TrafficGenValues} {events : List Event}
    {final : State} {log : List Entry}
    (ran : run step (initial nTests trafficGen) events = some (final, log)) :
    FreshCycles log ↔ events.Pairwise (fun earlier later =>
      later.creates = true → earlier ≠ .joinModule ∧ earlier.endsTest = false) := by
  constructor
  · intro fresh
    rw [List.pairwise_iff_forall_sublist]
    intro earlier later sublist creates
    obtain ⟨front, rest, rfl, member, single⟩ := List.cons_sublist_iff.mp sublist
    obtain ⟨between, after, rfl⟩ := List.mem_iff_append.mp (List.singleton_sublist.mp single)
    rw [← List.append_assoc] at ran
    obtain ⟨mid, early, next, output, ran', stepped, said⟩ := run_split ran
    obtain ⟨thread, ctx, rfl, -⟩ := step_creates stepped creates
    have clear := fresh.clear _ thread ctx (said _ rfl)
    exact (clear_iff ran' stepped).2.mp clear earlier (List.mem_append_left _ member)
  · intro calm
    have started : ∀ {test thread ctx},
        Entry.start test thread ctx ∈ log → test = 0 ∧ Clear ctx := by
      intro test thread ctx member
      obtain ⟨before, event, after, mid, early, next, rfl, ran', stepped⟩ := mem_log ran member
      have creates := creates_of_start stepped
      have quiet : ∀ earlier ∈ before, earlier ≠ .joinModule ∧ earlier.endsTest = false := by
        intro earlier inside
        exact (List.pairwise_append.mp calm).2.2 earlier inside event List.mem_cons_self creates
      obtain ⟨count, clear⟩ := clear_iff ran' stepped
      refine ⟨count.trans (List.count_eq_zero.mpr ?_), clear.mpr quiet⟩
      intro inside
      exact (quiet _ inside).1 rfl
    constructor
    · intro test thread ctx member
      exact (started member).2
    · intro test later thread ctx before member
      have zero := (started member).1
      omega

theorem freshCycles_iff_one_test :
    let events : List Event :=
  [.enter, .createModule, .createTraffic, .createEvent, .eventTurn, .endTest 1,
      .trafficReturns, .joinTraffic, .eventReturns, .joinEvent, .moduleReturns, .joinModule, .enter]
    ∃ final log, run step (initial 1 .userSpace) events = some (final, log) ∧
    final.phase = .finished ∧
      log.length = 5 ∧ FreshCycles log := by
  intro events
  obtain ⟨final, log, ran, done, length⟩ : ∃ final log,
      run step (initial 1 .userSpace) events = some (final, log) ∧ final.phase = .finished ∧
        log.length = 5 := ⟨_, _, rfl, rfl, rfl⟩
  exact ⟨final, log, ran, done, length, (freshCycles_iff ran).mpr (by decide)⟩

/-- Two tests. The first one asks the suite to stop; the second is started all the same, and finds
all three flags still set. -/
theorem second_test_finds_flags_set :
    ∃ final log left, run step (initial 2 .userSpace) [.enter, .createModule,
      .createTraffic, .createEvent,
        .endTest 0, .trafficReturns, .joinTraffic, .eventReturns, .joinEvent,
        .moduleReturns, .joinModule, .enter, .createModule] = some (final, log) ∧
      Entry.start 1 .module left ∈ log ∧ left.endTrafficGeneration = true ∧ left.endEvent = true ∧
      left.endModule = true ∧ EndedFatally log 0 ∧ ¬FreshCycles log := by
  let before : Context := { defaultContext 2 .userSpace with currTest := some 0 }
  let during : Context := { before with started := true }
  let left : Context :=
    { before with
      currTest := some 1, closed := [0], endTrafficGeneration := true, endEvent :=
        true, endModule := true }
  let log : List Entry :=
    [.start 0 .module before, .start 0 .trafficGen during, .start 0 .event during,
    .ended 0 0, .start 1 .module left]
  have member : Entry.start 1 .module left ∈ log := by simp [log]
  refine ⟨_, log, left, rfl, member, rfl, rfl, rfl, rfl, ?_⟩
  intro fresh
  exact fresh.stops 0 1 .module left (by decide) member rfl

end Oflops.Harness.Lifecycle
