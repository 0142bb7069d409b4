import Mathlib.Logic.Function.Basic
import Oflops.Harness.Lifecycle

/-! The calls that the harness makes into a test module, from whichever thread: `main` (`oflops.c`),
the module thread with the captured packets, the event thread with the timers, the traffic thread,
and the server of the control channel (`control.cpp`) with the messages of the switch. -/

namespace Oflops.Harness.Callbacks
open Lib.Machine
open Lifecycle (Context TrafficGenValues Thread defaultContext resetContext)

inductive Callback where
  | name
  | getPcapFilter
  | getOpenflowVersions
  | start
  | ofMessage
  | handlePcapEvent
  | handleTimerEvent
  | handleSnmpEvent
  | handleTrafficGeneration
  | destroy
  deriving DecidableEq, Repr

/-- Where `main` is: before the loop condition, in `setup_test_module`, in `setup_control_channel`
before and after the server is started, in the module's `start`, before one of the other
`pthread_create`, in a `pthread_join`, before the server is stopped, and after that. -/
inductive Phase where
  | condition
  | setup
  | control
  | connecting
  | starting
  | traffic
  | timers
  | joinTraffic
  | joinEvent
  | teardown
  | ending
  | joinModule
  | finished
  deriving DecidableEq, Repr

/-- Where a thread is: not created, not running yet, before its loop condition, in the body of
its loop (the traffic thread: in `handle_traffic_generation`), after the loop, in `destroy`,
or returned. -/
inductive Pc where
  | idle
  | created
  | head
  | body
  | leaving
  | destroying
  | returned
  deriving DecidableEq, Repr

/-- `ixMod` is the argument that the threads share, and `test` what a thread has read of it;
`fluidControl` says whether the pointer to the server is set. -/
structure State where
  ctx : Context
  i : Nat
  phase : Phase
  ixMod : Nat
  pc : Thread → Pc
  test : Thread → Nat
  cancelled : Bool
  fluidControl : Bool

def initial (nTests : Nat) (trafficGen : TrafficGenValues) : State where
  ctx := defaultContext nTests trafficGen
  i := 0
  phase := .condition
  ixMod := 0
  pc _ := .idle
  test _ := 0
  cancelled := false
  fluidControl := false

inductive Caller where
  | main
  | thread (thread : Thread)
  | server
  deriving DecidableEq, Repr

/-- A step of `main`, a call of `get_pcap_filter` or of `name` by `setup_channel`, a step of a
thread, a message of the switch, an SNMP answer, and a call of `oflops_end_test` by module code.
The harness itself does not read the answers of SNMP, so one is handled only where module code
waits for another. -/
inductive Event where
  | main
  | filter
  | printName
  | module (packet : Bool)
  | timer (due : Bool)
  | traffic
  | message
  | snmp (caller : Caller)
  | endTest (caller : Caller) (shouldContinue : Int)
  deriving DecidableEq, Repr

/-- What is observed of a run: calls into the module of a test, with the context and the control
channel at that moment, the return of `start`, and the thread that `oflops_end_test` cancels, if
there is one. -/
inductive Entry where
  | call (test : Nat) (callback : Callback) (ctx : Context) (fluidControl : Bool)
  | returned (test : Nat)
  | cancel (caller : Caller) (ctx : Context) (alive : Bool)
  deriving DecidableEq, Repr

namespace State

def call (s : State) (test : Nat) (callback : Callback) : Entry :=
  .call test callback s.ctx s.fluidControl

def callCurrent (s : State) (callback : Callback) : Option Entry :=
  s.ctx.currTest.map (s.call · callback)

def move (s : State) (thread : Thread) (pc : Pc) : State :=
  { s with pc := Function.update s.pc thread pc }

theorem move_pc (s : State) (thread : Thread) (pc : Pc) : (s.move thread pc).pc thread = pc :=
  Function.update_self _ _ _

def capture (s : State) (thread : Thread) : State :=
  { s with test := Function.update s.test thread s.ixMod }

theorem capture_test (s : State) (thread : Thread) : (s.capture thread).test thread = s.ixMod :=
  Function.update_self _ _ _

end State

/-- The program of `main`. The name of a test is first printed before the context is reset. -/
def mainStep (s : State) : Option (State × Option Entry) :=
  match s.phase with
  | .condition =>
    if s.i < s.ctx.nTests then
      some ({ s with
        ctx := { resetContext s.ctx with currTest := some s.i, started := false }
        ixMod := s.i
        phase := .setup }, some (s.call s.i .name))
    else some ({ s with phase := .finished }, none)
  | .setup => some ({ s.move .module .created with phase := .control }, none)
  | .control =>
    some ({ s with phase := .connecting, fluidControl := true }, s.callCurrent .getOpenflowVersions)
  | .connecting => some ({ s with phase := .starting }, s.callCurrent .start)
  | .starting =>
    some ({ s with ctx := { s.ctx with started := true }, phase := .traffic },
      s.ctx.currTest.map .returned)
  | .traffic =>
    some ({ s.move .trafficGen .created with phase := .timers, cancelled := false }, none)
  | .timers => some ({ s.move .event .head with phase := .joinTraffic }, none)
  | .joinTraffic =>
    if s.pc .trafficGen = .returned then
      some ({ s with ctx := { s.ctx with endEvent := true }, phase := .joinEvent }, none)
    else none
  | .joinEvent =>
    if s.pc .event = .returned then some ({ s with phase := .teardown }, none) else none
  | .teardown => some ({ s with phase := .ending, fluidControl := false }, none)
  | .ending => some ({ s with ctx := { s.ctx with endModule := true }, phase := .joinModule }, none)
  | .joinModule =>
    if s.pc .module = .returned then some ({ s with i := s.i + 1, phase := .condition }, none)
    else none
  | .finished => none

/-- `run_module`: the loop of `test_module_loop`, which calls the module for a packet only after
`start` has returned, and then `destroy`. -/
def moduleStep (s : State) (packet : Bool) : Option (State × Option Entry) :=
  match s.pc .module with
  | .created => some ((s.capture .module).move .module .head, none)
  | .head => some (s.move .module (if s.ctx.endModule then .leaving else .body), none)
  | .body =>
    if packet then
      some (s, if s.ctx.started then some (s.call (s.test .module) .handlePcapEvent) else none)
    else some (s.move .module .head, none)
  | .leaving => some (s.move .module .destroying, some (s.call (s.test .module) .destroy))
  | .destroying => some (s.move .module .returned, none)
  | .idle | .returned => none

def eventStep (s : State) (due : Bool) : Option (State × Option Entry) :=
  match s.pc .event with
  | .head => some (s.move .event (if s.ctx.endEvent then .returned else .body), none)
  | .body => some (s.move .event .head, if due then s.callCurrent .handleTimerEvent else none)
  | .idle | .created | .leaving | .destroying | .returned => none

/-- `start_traffic_thread`, which a cancellation may keep from beginning. -/
def trafficStep (s : State) : Option (State × Option Entry) :=
  match s.pc .trafficGen with
  | .created =>
    if s.cancelled then some (s.move .trafficGen .returned, none)
    else
      some ((s.capture .trafficGen).move .trafficGen .body,
        some (s.call s.ixMod .handleTrafficGeneration))
  | .body => some (s.move .trafficGen .returned, none)
  | .idle | .head | .leaving | .destroying | .returned => none

def State.inside (s : State) : Caller → Bool
  | .main => s.phase = .starting
  | .thread .module => s.pc .module = .body ∨ s.pc .module = .destroying
  | .thread thread => s.pc thread = .body
  | .server => s.fluidControl

def State.joinable (s : State) : Bool := s.phase = .timers ∨ s.phase = .joinTraffic

def oflopsEndTest (s : State) (caller : Caller) (shouldContinue : Int) : State × Option Entry :=
  let pktgen := s.ctx.trafficGen = .pktgen
  ({ s with
      ctx := { s.ctx with endTrafficGeneration := true, shouldContinue }
      cancelled := s.cancelled || (pktgen && s.joinable) },
    if pktgen then some (.cancel caller s.ctx s.joinable) else none)

def step (s : State) : Event → Option (State × Option Entry)
  | .main => mainStep s
  | .filter => if s.phase = .setup then some (s, some (s.call s.i .getPcapFilter)) else none
  | .printName => if s.phase = .setup then some (s, some (s.call s.i .name)) else none
  | .module packet => moduleStep s packet
  | .timer due => eventStep s due
  | .traffic => trafficStep s
  | .message => if s.fluidControl then some (s, s.callCurrent .ofMessage) else none
  | .snmp caller => if s.inside caller then some (s, s.callCurrent .handleSnmpEvent) else none
  | .endTest caller shouldContinue =>
    if s.inside caller then some (oflopsEndTest s caller shouldContinue) else none

/-! What is where in which phase. -/

namespace Phase

def rank : Phase → Nat
  | .condition => 0
  | .setup => 1
  | .control => 2
  | .connecting => 3
  | .starting => 4
  | .traffic => 5
  | .timers => 6
  | .joinTraffic => 7
  | .joinEvent => 8
  | .teardown => 9
  | .ending => 10
  | .joinModule => 11
  | .finished => 12

def inTest (phase : Phase) : Bool := 1 ≤ phase.rank ∧ phase.rank ≤ 11

def connected (phase : Phase) : Bool := 3 ≤ phase.rank ∧ phase.rank ≤ 9

def called (phase : Phase) : Bool := 4 ≤ phase.rank ∧ phase.rank ≤ 11

def begun (phase : Phase) : Bool := 5 ≤ phase.rank ∧ phase.rank ≤ 11

def window : Thread → Phase → Bool
  | .module, phase => 2 ≤ phase.rank ∧ phase.rank ≤ 11
  | .trafficGen, phase => 6 ≤ phase.rank ∧ phase.rank ≤ 7
  | .event, phase => 7 ≤ phase.rank ∧ phase.rank ≤ 8

end Phase

def Pc.live : Pc → Bool
  | .idle | .returned => false
  | _ => true

def Pc.running : Pc → Bool
  | .head | .body | .leaving | .destroying => true
  | _ => false

def Pc.left : Pc → Bool
  | .leaving | .destroying | .returned => true
  | _ => false

def Pc.destroyed : Pc → Bool
  | .destroying | .returned => true
  | _ => false

theorem Pc.live_of_running {pc : Pc} (running : pc.running = true) : pc.live = true := by
  cases pc <;> first | rfl | cases running

theorem Phase.inTest_of_window {thread : Thread} {phase : Phase}
    (open' : phase.window thread = true) : phase.inTest = true := by
  cases thread <;> cases phase <;> first | rfl | cases open'

structure Placed (s : State) : Prop where
  control : s.fluidControl = s.phase.connected
  current : s.phase.inTest = true → s.ctx.currTest = some s.i ∧ s.ixMod = s.i
  between : s.phase.inTest = false → s.ctx.currTest = if s.i = 0 then none else some (s.i - 1)
  closed : s.ctx.closed = (List.range (s.i - if s.phase.inTest then 0 else 1)).reverse
  started : s.phase.inTest = true → s.ctx.started = s.phase.begun
  endEvent : s.phase = .joinEvent → s.ctx.endEvent = true
  endModule : s.ctx.endModule = (decide (0 < s.i) || s.phase = .joinModule)
  within : s.i + s.phase.inTest.toNat ≤ s.ctx.nTests
  all : s.phase = .finished → s.i = s.ctx.nTests

theorem Placed.enter {s : State} (placed : Placed s) (here : s.phase = .condition) :
    (resetContext s.ctx).closed = (List.range s.i).reverse := by
  have between := placed.between (by rw [here]; rfl)
  have closed := placed.closed
  rw [here] at closed
  change _ = (List.range (s.i - 1)).reverse at closed
  unfold resetContext
  rw [between]
  split_ifs with first
  · rw [closed, first]
  · obtain ⟨i, same⟩ : ∃ i, s.i = i + 1 := ⟨s.i - 1, by omega⟩
    rw [same, Nat.add_sub_cancel] at closed ⊢
    change i :: s.ctx.closed = _
    rw [closed, List.range_succ, List.reverse_append]
    rfl

theorem resetContext_endModule (ctx : Context) : (resetContext ctx).endModule = ctx.endModule :=
  (Lifecycle.resetContext_flags ctx).2.2

theorem resetContext_nTests (ctx : Context) : (resetContext ctx).nTests = ctx.nTests := by
  unfold resetContext
  split <;> rfl

theorem Placed.main {s next : State} {output : Option Entry} (placed : Placed s)
    (stepped : mainStep s = some (next, output)) : Placed next := by
  have enter := placed.enter
  obtain ⟨control, current, between, closed, started, -, endModule, within, -⟩ := placed
  unfold mainStep at stepped
  cases here : s.phase with
  | condition =>
    simp only [here] at stepped control closed started endModule within enter
    split_ifs at stepped with more
    · cases stepped
      refine ⟨control, fun _ => ⟨rfl, rfl⟩, nofun, enter trivial, fun _ => rfl, nofun,
        ?_, ?_, nofun⟩
      · exact (resetContext_endModule s.ctx).trans endModule
      · exact Nat.le_trans more (Nat.le_of_eq (resetContext_nTests s.ctx).symm)
    · simp only [here] at current between
      cases stepped
      exact ⟨control, current, between, closed, started, nofun, endModule, within,
        fun _ => Nat.le_antisymm within (Nat.not_lt.mp more)⟩
  | setup | connecting | traffic | timers =>
    simp only [here] at stepped control current between closed started endModule within
    cases stepped
    exact ⟨control, current, between, closed, started, nofun, endModule, within, nofun⟩
  | control | teardown =>
    simp only [here] at stepped current between closed started endModule within
    cases stepped
    exact ⟨rfl, current, between, closed, started, nofun, endModule, within, nofun⟩
  | starting =>
    simp only [here] at stepped control current between closed endModule within
    cases stepped
    exact ⟨control, current, between, closed, fun _ => rfl, nofun, endModule, within, nofun⟩
  | joinTraffic =>
    simp only [here] at stepped control current between closed started endModule within
    obtain ⟨-, stepped⟩ := Option.ite_none_right_eq_some.mp stepped
    cases stepped
    exact ⟨control, current, between, closed, started, fun _ => rfl, endModule, within, nofun⟩
  | joinEvent =>
    simp only [here] at stepped control current between closed started endModule within
    obtain ⟨-, stepped⟩ := Option.ite_none_right_eq_some.mp stepped
    cases stepped
    exact ⟨control, current, between, closed, started, nofun, endModule, within, nofun⟩
  | ending =>
    simp only [here] at stepped control current between closed started within
    cases stepped
    exact ⟨control, current, between, closed, started, nofun, (Bool.or_true _).symm, within, nofun⟩
  | joinModule =>
    simp only [here] at stepped control current closed endModule within
    obtain ⟨-, stepped⟩ := Option.ite_none_right_eq_some.mp stepped
    cases stepped
    refine ⟨control, nofun, fun _ => ?_, closed, nofun, nofun, ?_, within, nofun⟩
    · exact (current rfl).1
    · exact endModule.trans (Bool.or_true _)
  | finished =>
    simp only [here] at stepped
    cases stepped

/-- Where the threads may be: each within its phases, with the test in progress for its argument;
and the module thread of the first test does not leave its loop before `main` tells it to. -/
structure Threads (s : State) : Prop where
  window : ∀ thread, (s.pc thread).live = true → s.phase.window thread = true
  captured : ∀ thread, thread ≠ .event → (s.pc thread).running = true → s.test thread = s.i
  left : s.i = 0 → (s.pc .module).left = true → s.phase = .joinModule

theorem Threads.advance {s next : State} (threads : Threads s) (pc : next.pc = s.pc)
    (test : next.test = s.test) (i : next.i = s.i) (other : s.phase ≠ .joinModule)
    (stays : ∀ thread, (s.pc thread).live = true → s.phase.window thread = true →
      next.phase.window thread = true) :
    Threads next := by
  refine ⟨?_, ?_, ?_⟩
  · intro thread live
    rw [pc] at live
    exact stays thread live (threads.window thread live)
  · rw [pc, test, i]
    exact threads.captured
  · rw [pc, i]
    intro first gone
    exact absurd (threads.left first gone) other

theorem Threads.update {s next : State} (thread : Thread) (pc : Pc) (threads : Threads s)
    (moved : next.pc = Function.update s.pc thread pc) (i : next.i = s.i)
    (stays : ∀ other, s.phase.window other = true → next.phase.window other = true)
    (here : pc.live = true → next.phase.window thread = true)
    (others : ∀ other, other ≠ thread → next.test other = s.test other)
    (captured : thread ≠ .event → pc.running = true → next.test thread = s.i)
    (left : s.i = 0 → (next.pc .module).left = true → next.phase = .joinModule) :
    Threads next := by
  refine ⟨?_, ?_, i ▸ left⟩
  · intro other live
    rw [moved] at live
    by_cases same : other = thread
    · subst same
      rw [Function.update_self] at live
      exact here live
    · rw [Function.update_of_ne same] at live
      exact stays other (threads.window other live)
  · intro other notEvent running
    rw [moved] at running
    rw [i]
    by_cases same : other = thread
    · subst same
      rw [Function.update_self] at running
      exact captured notEvent running
    · rw [Function.update_of_ne same] at running
      rw [others other same]
      exact threads.captured other notEvent running

/-- At the end of a test all its threads have returned. -/
theorem Threads.still {s : State} (threads : Threads s) (here : s.phase = .joinModule)
    (returned : s.pc .module = .returned) (thread : Thread) : (s.pc thread).live = false := by
  rw [Bool.eq_false_iff]
  intro live
  have open' := threads.window thread live
  rw [here] at open'
  cases thread with
  | module =>
    rw [returned] at live
    cases live
  | trafficGen | event => cases open'

theorem Threads.main {s next : State} {output : Option Entry} (threads : Threads s)
    (stepped : mainStep s = some (next, output)) : Threads next := by
  unfold mainStep at stepped
  cases here : s.phase with
  | condition =>
    simp only [here] at stepped
    split_ifs at stepped with more
    all_goals
      cases stepped
      refine threads.advance rfl rfl rfl (by rw [here]; decide) ?_
      rw [here]
      intro thread _ open'
      cases thread <;> cases open'
  | setup =>
    simp only [here] at stepped
    cases stepped
    refine threads.update .module .created rfl rfl ?_ (fun _ => rfl) (fun _ _ => rfl) nofun ?_
    · rw [here]
      intro thread open'
      cases thread <;> cases open'
    · nofun
  | control | connecting | starting | teardown | ending =>
    simp only [here] at stepped
    cases stepped
    refine threads.advance rfl rfl rfl (by rw [here]; decide) ?_
    rw [here]
    intro thread _ open'
    cases thread <;> first | rfl | cases open'
  | traffic =>
    simp only [here] at stepped
    cases stepped
    refine threads.update .trafficGen .created rfl rfl ?_ (fun _ => rfl) (fun _ _ => rfl) nofun ?_
    · rw [here]
      intro thread open'
      cases thread <;> first | rfl | cases open'
    · intro first gone
      exact absurd (threads.left first gone) (by rw [here]; decide)
  | timers =>
    simp only [here] at stepped
    cases stepped
    refine threads.update .event .head rfl rfl ?_ (fun _ => rfl) (fun _ _ => rfl) (absurd rfl) ?_
    · rw [here]
      intro thread _
      cases thread <;> rfl
    · intro first gone
      exact absurd (threads.left first gone) (by rw [here]; decide)
  | joinTraffic =>
    simp only [here] at stepped
    obtain ⟨returned, stepped⟩ := Option.ite_none_right_eq_some.mp stepped
    cases stepped
    refine threads.advance rfl rfl rfl (by rw [here]; decide) ?_
    rw [here]
    intro thread live _
    cases thread with
    | module | event => rfl
    | trafficGen =>
      rw [returned] at live
      cases live
  | joinEvent =>
    simp only [here] at stepped
    obtain ⟨returned, stepped⟩ := Option.ite_none_right_eq_some.mp stepped
    cases stepped
    refine threads.advance rfl rfl rfl (by rw [here]; decide) ?_
    rw [here]
    intro thread live open'
    cases thread with
    | module => rfl
    | trafficGen => cases open'
    | event =>
      rw [returned] at live
      cases live
  | joinModule =>
    simp only [here] at stepped
    obtain ⟨returned, stepped⟩ := Option.ite_none_right_eq_some.mp stepped
    cases stepped
    have still := threads.still here returned
    refine ⟨?_, ?_, nofun⟩
    · intro thread live
      rw [still thread] at live
      cases live
    · intro thread _ running
      have live := Pc.live_of_running running
      rw [still thread] at live
      cases live
  | finished =>
    simp only [here] at stepped
    cases stepped

theorem Threads.move {s : State} (thread : Thread) (pc : Pc) (threads : Threads s)
    (live : (s.pc thread).live = true) (running : thread ≠ .event → (s.pc thread).running = true)
    (left : s.i = 0 → ((s.move thread pc).pc .module).left = true → s.phase = .joinModule) :
    Threads (s.move thread pc) :=
  threads.update thread pc rfl rfl (fun _ => id) (fun _ => threads.window thread live)
    (fun _ _ => rfl)
    (fun notEvent _ => threads.captured thread notEvent (running notEvent)) left

theorem Threads.module {s next : State} {packet : Bool} {output : Option Entry} (placed : Placed s)
    (threads : Threads s) (stepped : moduleStep s packet = some (next, output)) : Threads next := by
  unfold moduleStep at stepped
  cases at' : s.pc .module with
  | created =>
    simp only [at'] at stepped
    cases stepped
    have open' := threads.window .module (by rw [at']; rfl)
    have current := placed.current (Phase.inTest_of_window open')
    refine threads.update .module .head rfl rfl (fun _ => id) (fun _ => open') ?_ ?_ ?_
    · intro other different
      exact Function.update_of_ne different _ _
    · intro _ _
      exact (s.capture_test .module).trans current.2
    · nofun
  | head =>
    simp only [at'] at stepped
    cases stepped
    refine threads.move .module _ (by rw [at']; rfl) (fun _ => by rw [at']; rfl) ?_
    intro first gone
    have flag := placed.endModule
    rw [first, decide_eq_false (Nat.lt_irrefl 0), Bool.false_or] at flag
    by_cases ended : s.phase = .joinModule
    · exact ended
    · rw [flag, decide_eq_false ended] at gone
      cases gone
  | body =>
    simp only [at'] at stepped
    cases packet with
    | true =>
      cases stepped
      exact threads
    | false =>
      cases stepped
      refine threads.move .module _ (by rw [at']; rfl) (fun _ => by rw [at']; rfl) ?_
      intro _ gone
      cases gone
  | leaving | destroying =>
    simp only [at'] at stepped
    cases stepped
    refine threads.move .module _ (by rw [at']; rfl) (fun _ => by rw [at']; rfl) ?_
    intro first _
    exact threads.left first (by rw [at']; rfl)
  | idle | returned =>
    simp only [at'] at stepped
    cases stepped

theorem Threads.timer {s next : State} {due : Bool} {output : Option Entry} (threads : Threads s)
    (stepped : eventStep s due = some (next, output)) : Threads next := by
  unfold eventStep at stepped
  cases at' : s.pc .event with
  | head | body =>
    simp only [at'] at stepped
    cases stepped
    exact threads.move .event _ (by rw [at']; rfl) (absurd rfl) threads.left
  | idle | created | leaving | destroying | returned =>
    simp only [at'] at stepped
    cases stepped

theorem Threads.traffic {s next : State} {output : Option Entry} (placed : Placed s)
    (threads : Threads s) (stepped : trafficStep s = some (next, output)) : Threads next := by
  unfold trafficStep at stepped
  cases at' : s.pc .trafficGen with
  | created =>
    simp only [at'] at stepped
    have open' := threads.window .trafficGen (by rw [at']; rfl)
    split_ifs at stepped
    · cases stepped
      exact threads.update .trafficGen .returned rfl rfl (fun _ => id) nofun (fun _ _ => rfl)
        nofun threads.left
    · cases stepped
      have current := placed.current (Phase.inTest_of_window open')
      refine threads.update .trafficGen .body rfl rfl (fun _ => id) (fun _ => open') ?_
        ?_ threads.left
      · intro other different
        exact Function.update_of_ne different _ _
      · intro _ _
        exact (s.capture_test .trafficGen).trans current.2
  | body =>
    simp only [at'] at stepped
    cases stepped
    exact threads.move .trafficGen _ (by rw [at']; rfl) (fun _ => by rw [at']; rfl) threads.left
  | idle | head | leaving | destroying | returned =>
    simp only [at'] at stepped
    cases stepped

end Oflops.Harness.Callbacks
