import Oflops.Harness.Callbacks

/-! What is observed of the calls into test modules, over every interleaving of the threads: whose
functions are called, with which library open and in what order. -/

namespace Oflops.Harness.Callbacks
open Lib.Machine
open Lifecycle (Context TrafficGenValues Thread resetContext)

/-- Functions of a module that send messages or may do so, and those that run beside or
after `start`. -/
def Callback.connected : Callback → Bool
  | .start | .ofMessage | .handleTimerEvent | .handleTrafficGeneration => true
  | _ => false

def Callback.waits : Callback → Bool
  | .handlePcapEvent | .handleTimerEvent | .handleTrafficGeneration => true
  | _ => false

def Entry.startOf : Entry → Option Nat
  | .call test .start _ _ => some test
  | _ => none

def Entry.destroyOf : Entry → Option Nat
  | .call test .destroy _ _ => some test
  | _ => none

/-- The state at a call into the module. Only the name can be asked for before the test begins, and
only an SNMP answer can come while `destroy` runs. -/
structure Calls (s : State) (test : Nat) (callback : Callback) (ctx : Context)
    (fluidControl : Bool) : Prop where
  test : test = s.i
  ctx : ctx = s.ctx
  channel : fluidControl = s.fluidControl
  place : s.phase.inTest = true ∨ callback = .name ∧ s.phase = .condition
  connected : callback.connected = true → s.phase.connected = true
  started : callback.waits = true → s.ctx.started = true
  destroyed : callback ≠ .handleSnmpEvent → s.phase = .joinModule → (s.pc .module).destroyed = false

theorem Calls.current {s : State} {callback callback' : Callback} {test : Nat} {ctx : Context}
    {fluidControl : Bool} (placed : Placed s)
    (said : s.callCurrent callback = some (.call test callback' ctx fluidControl))
    (inTest : s.phase.inTest = true)
    (other : callback ≠ .handleSnmpEvent → s.phase ≠ .joinModule)
    (connected : callback.connected = true → s.phase.connected = true)
    (started : callback.waits = true → s.ctx.started = true) :
    Calls s test callback' ctx fluidControl := by
  rw [State.callCurrent, (placed.current inTest).1] at said
  cases said
  exact ⟨rfl, rfl, rfl, .inl inTest, connected, started,
    fun answer late => absurd late (other answer)⟩

theorem main_calls {s next : State} {test : Nat} {callback : Callback} {ctx : Context}
    {fluidControl : Bool} (placed : Placed s)
    (stepped : mainStep s = some (next, some (.call test callback ctx fluidControl))) :
    Calls s test callback ctx fluidControl := by
  unfold mainStep at stepped
  cases here : s.phase with
  | control =>
    simp only [here, Option.some.injEq, Prod.mk.injEq] at stepped
    exact .current placed stepped.2 (by rw [here]; rfl) (by rw [here]; nofun) nofun nofun
  | connecting =>
    simp only [here, Option.some.injEq, Prod.mk.injEq] at stepped
    exact .current placed stepped.2 (by rw [here]; rfl) (by rw [here]; nofun)
      (fun _ => by rw [here]; rfl) nofun
  | starting =>
    simp only [here, Option.some.injEq, Prod.mk.injEq] at stepped
    obtain ⟨_, -, same⟩ := Option.map_eq_some_iff.mp stepped.2
    cases same
  | condition =>
    simp only [here] at stepped
    split_ifs at stepped
    · cases stepped
      exact ⟨rfl, rfl, rfl, .inr ⟨rfl, here⟩, nofun, nofun, by rw [here]; nofun⟩
    · cases stepped
  | joinTraffic | joinEvent | joinModule =>
    simp only [here] at stepped
    obtain ⟨-, stepped⟩ := Option.ite_none_right_eq_some.mp stepped
    cases stepped
  | setup | traffic | timers | teardown | ending | finished =>
    simp only [here] at stepped
    cases stepped

theorem module_calls {s next : State} {packet : Bool} {test : Nat} {callback : Callback}
    {ctx : Context} {fluidControl : Bool} (threads : Threads s)
    (stepped : moduleStep s packet = some (next, some (.call test callback ctx fluidControl))) :
    Calls s test callback ctx fluidControl := by
  unfold moduleStep at stepped
  cases at' : s.pc .module with
  | body =>
    have captured := threads.captured .module nofun (by rw [at']; rfl)
    have open' := threads.window .module (by rw [at']; rfl)
    simp only [at', captured] at stepped
    cases packet with
    | true =>
      obtain ⟨started, said⟩ :=
        Option.ite_none_right_eq_some.mp (Prod.mk.inj (Option.some.inj stepped)).2
      cases said
      exact ⟨rfl, rfl, rfl, .inl (Phase.inTest_of_window open'), nofun, fun _ => started,
        fun _ _ => by rw [at']; rfl⟩
    | false => cases stepped
  | leaving =>
    have captured := threads.captured .module nofun (by rw [at']; rfl)
    have open' := threads.window .module (by rw [at']; rfl)
    simp only [at', captured] at stepped
    cases stepped
    exact ⟨rfl, rfl, rfl, .inl (Phase.inTest_of_window open'), nofun, nofun,
      fun _ _ => by rw [at']; rfl⟩
  | idle | created | head | destroying | returned =>
    simp only [at'] at stepped
    cases stepped

theorem Phase.window_within {thread : Thread} {phase : Phase} (open' : phase.window thread = true)
    (other : thread ≠ .module) :
    phase.connected = true ∧ phase.begun = true ∧ phase ≠ .joinModule := by
  cases thread with
  | module => exact absurd rfl other
  | trafficGen | event => cases phase <;> first | exact ⟨rfl, rfl, by decide⟩ | cases open'

theorem timer_calls {s next : State} {due : Bool} {test : Nat} {callback : Callback} {ctx : Context}
    {fluidControl : Bool} (placed : Placed s) (threads : Threads s)
    (stepped : eventStep s due = some (next, some (.call test callback ctx fluidControl))) :
    Calls s test callback ctx fluidControl := by
  unfold eventStep at stepped
  cases at' : s.pc .event with
  | body =>
    simp only [at'] at stepped
    cases due with
    | true =>
      have open' := threads.window .event (by rw [at']; rfl)
      have inTest := Phase.inTest_of_window open'
      obtain ⟨connected, begun, other⟩ := Phase.window_within open' nofun
      exact .current placed (Prod.mk.inj (Option.some.inj stepped)).2 inTest (fun _ => other)
        (fun _ => connected) (fun _ => (placed.started inTest).trans begun)
    | false => cases stepped
  | idle | created | head | leaving | destroying | returned =>
    simp only [at'] at stepped
    cases stepped

theorem traffic_calls {s next : State} {test : Nat} {callback : Callback} {ctx : Context}
    {fluidControl : Bool} (placed : Placed s) (threads : Threads s)
    (stepped : trafficStep s = some (next, some (.call test callback ctx fluidControl))) :
    Calls s test callback ctx fluidControl := by
  unfold trafficStep at stepped
  cases at' : s.pc .trafficGen with
  | created =>
    have open' := threads.window .trafficGen (by rw [at']; rfl)
    have inTest := Phase.inTest_of_window open'
    obtain ⟨connected, begun, other⟩ := Phase.window_within open' nofun
    simp only [at', (placed.current inTest).2] at stepped
    split_ifs at stepped
    · cases stepped
    · cases stepped
      exact ⟨rfl, rfl, rfl, .inl inTest, fun _ => connected,
        fun _ => (placed.started inTest).trans begun, fun _ late => absurd late other⟩
  | idle | head | body | leaving | destroying | returned =>
    simp only [at'] at stepped
    cases stepped

theorem Phase.connected_within {phase : Phase} (connected : phase.connected = true) :
    phase.inTest = true ∧ phase ≠ .joinModule := by
  cases phase <;> first | exact ⟨rfl, by decide⟩ | cases connected

theorem State.inside_inTest {s : State} (placed : Placed s) (threads : Threads s) {caller : Caller}
    (inside : s.inside caller = true) : s.phase.inTest = true := by
  cases caller with
  | main =>
    have here : s.phase = .starting := of_decide_eq_true inside
    rw [here]
    rfl
  | server => exact (Phase.connected_within (placed.control.symm.trans inside)).1
  | thread thread =>
    refine Phase.inTest_of_window (threads.window thread ?_)
    cases thread with
    | module =>
      rcases of_decide_eq_true inside with at' | at'
      all_goals
        rw [at']
        rfl
    | trafficGen | event =>
      rw [show s.pc _ = .body from of_decide_eq_true inside]
      rfl

theorem step_calls {s next : State} {event : Event} {test : Nat} {callback : Callback}
    {ctx : Context} {fluidControl : Bool} (placed : Placed s) (threads : Threads s)
    (stepped : step s event = some (next, some (.call test callback ctx fluidControl))) :
    Calls s test callback ctx fluidControl := by
  cases event with
  | main => exact main_calls placed stepped
  | module packet => exact module_calls threads stepped
  | timer due => exact timer_calls placed threads stepped
  | traffic => exact traffic_calls placed threads stepped
  | filter | printName =>
    obtain ⟨here, stepped⟩ := Option.ite_none_right_eq_some.mp stepped
    cases stepped
    exact ⟨rfl, rfl, rfl, .inl (by rw [here]; rfl), nofun, nofun, by rw [here]; nofun⟩
  | message =>
    obtain ⟨running, stepped⟩ := Option.ite_none_right_eq_some.mp stepped
    have connected := placed.control.symm.trans running
    obtain ⟨inTest, other⟩ := Phase.connected_within connected
    exact .current placed (Prod.mk.inj (Option.some.inj stepped)).2 inTest (fun _ => other)
      (fun _ => connected) nofun
  | snmp caller =>
    obtain ⟨inside, stepped⟩ := Option.ite_none_right_eq_some.mp stepped
    exact .current placed (Prod.mk.inj (Option.some.inj stepped)).2
      (State.inside_inTest placed threads inside)
      (absurd rfl) nofun nofun
  | endTest caller shouldContinue =>
    obtain ⟨-, stepped⟩ := Option.ite_none_right_eq_some.mp stepped
    obtain ⟨-, said⟩ := Option.ite_none_right_eq_some.mp (Prod.mk.inj (Option.some.inj stepped)).2
    cases said

/-- `destroy` has been called for the test in progress. -/
def State.destroyed (s : State) : Bool := s.phase.window .module && (s.pc .module).destroyed

/-- What the log says of `start` and `destroy`. -/
structure Logged (s : State) (log : List Entry) : Prop where
  returned : s.ctx.started = true → s.phase.inTest = true → .returned s.i ∈ log
  starts : log.filterMap Entry.startOf = List.range (s.i + s.phase.called.toNat)
  destroys : log.filterMap Entry.destroyOf = List.range (s.i + s.destroyed.toNat)

theorem Logged.frame {s next : State} {log more : List Entry} (logged : Logged s log)
    (starts : more.filterMap Entry.startOf = []) (destroys : more.filterMap Entry.destroyOf = [])
    (i : next.i = s.i) (called : next.phase.called = s.phase.called)
    (destroyed : next.destroyed = s.destroyed)
    (returned : next.ctx.started = true → next.phase.inTest = true → s.ctx.started = true ∧
      s.phase.inTest = true) :
    Logged next (log ++ more) := by
  refine ⟨?_, ?_, ?_⟩
  · intro started inTest
    obtain ⟨started, inTest⟩ := returned started inTest
    rw [i]
    exact List.mem_append_left _ (logged.returned started inTest)
  · rw [List.filterMap_append, starts, List.append_nil, i, called, logged.starts]
  · rw [List.filterMap_append, destroys, List.append_nil, i, destroyed, logged.destroys]

theorem State.destroyed_outside {s : State} (outside : s.phase.window .module = false) :
    s.destroyed = false := by
  rw [State.destroyed, outside, Bool.false_and]

theorem State.destroyed_inside {s : State} (inside : s.phase.window .module = true) :
    s.destroyed = (s.pc .module).destroyed := by
  rw [State.destroyed, inside, Bool.true_and]

theorem Logged.main {s next : State} {log : List Entry} {output : Option Entry} (placed : Placed s)
    (logged : Logged s log) (stepped : mainStep s = some (next, output)) :
    Logged next (log ++ output.toList) := by
  unfold mainStep at stepped
  cases here : s.phase with
  | condition =>
    have outside : s.destroyed = false := State.destroyed_outside (by rw [here]; rfl)
    simp only [here] at stepped
    split_ifs at stepped with more
    all_goals
      cases stepped
      exact logged.frame rfl rfl rfl (by rw [here]; rfl) outside.symm nofun
  | setup =>
    have outside : s.destroyed = false := State.destroyed_outside (by rw [here]; rfl)
    simp only [here] at stepped
    cases stepped
    exact logged.frame rfl rfl rfl (by rw [here]; rfl) outside.symm
      (fun started _ => ⟨started, by rw [here]; rfl⟩)
  | control =>
    have current := (placed.current (by rw [here]; rfl)).1
    have inside : s.destroyed = _ := State.destroyed_inside (by rw [here]; rfl)
    simp only [here, State.callCurrent, current] at stepped
    cases stepped
    exact logged.frame rfl rfl rfl (by rw [here]; rfl) inside.symm
      (fun started _ => ⟨started, by rw [here]; rfl⟩)
  | connecting =>
    have current := (placed.current (by rw [here]; rfl)).1
    have inside : s.destroyed = _ := State.destroyed_inside (by rw [here]; rfl)
    have starts := logged.starts
    have destroys := logged.destroys
    simp only [here, State.callCurrent, current] at stepped starts
    cases stepped
    refine ⟨?_, ?_, ?_⟩
    · intro started _
      exact List.mem_append_left _ (logged.returned started (by rw [here]; rfl))
    · rw [List.filterMap_append, starts]
      exact List.range_succ.symm
    · rw [List.filterMap_append, destroys, inside]
      exact List.append_nil _
  | starting =>
    have current := (placed.current (by rw [here]; rfl)).1
    have inside : s.destroyed = _ := State.destroyed_inside (by rw [here]; rfl)
    have starts := logged.starts
    have destroys := logged.destroys
    simp only [here, current] at stepped starts
    cases stepped
    refine ⟨?_, ?_, ?_⟩
    · intro _ _
      exact List.mem_append_right _ (List.mem_singleton.mpr rfl)
    · rw [List.filterMap_append, starts]
      exact List.append_nil _
    · rw [List.filterMap_append, destroys, inside]
      exact List.append_nil _
  | traffic | timers | teardown | ending =>
    have inside : s.destroyed = _ := State.destroyed_inside (by rw [here]; rfl)
    simp only [here] at stepped
    cases stepped
    exact logged.frame rfl rfl rfl (by rw [here]; rfl) inside.symm
      (fun started _ => ⟨started, by rw [here]; rfl⟩)
  | joinTraffic | joinEvent =>
    have inside : s.destroyed = _ := State.destroyed_inside (by rw [here]; rfl)
    simp only [here] at stepped
    obtain ⟨-, stepped⟩ := Option.ite_none_right_eq_some.mp stepped
    cases stepped
    exact logged.frame rfl rfl rfl (by rw [here]; rfl) inside.symm
      (fun started _ => ⟨started, by rw [here]; rfl⟩)
  | joinModule =>
    have inside : s.destroyed = _ := State.destroyed_inside (by rw [here]; rfl)
    have starts := logged.starts
    have destroys := logged.destroys
    simp only [here] at stepped starts
    obtain ⟨returned, stepped⟩ := Option.ite_none_right_eq_some.mp stepped
    cases stepped
    rw [inside, returned] at destroys
    rw [Option.toList_none, List.append_nil]
    exact ⟨nofun, starts, destroys⟩
  | finished =>
    simp only [here] at stepped
    cases stepped

theorem State.destroyed_before {s : State} (before : (s.pc .module).destroyed = false) :
    s.destroyed = false := by
  rw [State.destroyed, before, Bool.and_false]

theorem Logged.module {s next : State} {log : List Entry} {packet : Bool} {output : Option Entry}
    (threads : Threads s) (logged : Logged s log)
    (stepped : moduleStep s packet = some (next, output)) : Logged next (log ++ output.toList) := by
  unfold moduleStep at stepped
  cases at' : s.pc .module with
  | created =>
    have before : s.destroyed = false := State.destroyed_before (by rw [at']; rfl)
    simp only [at'] at stepped
    cases stepped
    exact logged.frame rfl rfl rfl rfl ((State.destroyed_before rfl).trans before.symm)
      (fun started inTest => ⟨started, inTest⟩)
  | head =>
    have before : s.destroyed = false := State.destroyed_before (by rw [at']; rfl)
    simp only [at'] at stepped
    cases stepped
    refine logged.frame rfl rfl rfl rfl ((State.destroyed_before ?_).trans before.symm)
      (fun started inTest => ⟨started, inTest⟩)
    rw [State.move_pc]
    cases s.ctx.endModule <;> rfl
  | body =>
    have before : s.destroyed = false := State.destroyed_before (by rw [at']; rfl)
    simp only [at'] at stepped
    cases packet with
    | true =>
      cases stepped
      refine logged.frame ?_ ?_ rfl rfl rfl (fun started inTest => ⟨started, inTest⟩) <;>
        cases s.ctx.started <;> rfl
    | false =>
      cases stepped
      exact logged.frame rfl rfl rfl rfl ((State.destroyed_before rfl).trans before.symm)
        (fun started inTest => ⟨started, inTest⟩)
  | leaving =>
    have before : s.destroyed = false := State.destroyed_before (by rw [at']; rfl)
    have open' := threads.window .module (by rw [at']; rfl)
    have captured := threads.captured .module nofun (by rw [at']; rfl)
    have destroys := logged.destroys
    simp only [at', captured] at stepped
    cases stepped
    have after : (s.move .module .destroying).destroyed = true := State.destroyed_inside open'
    refine ⟨?_, ?_, ?_⟩
    · intro started inTest
      exact List.mem_append_left _ (logged.returned started inTest)
    · rw [List.filterMap_append, logged.starts]
      exact List.append_nil _
    · rw [List.filterMap_append, destroys, before, after]
      exact List.range_succ.symm
  | destroying =>
    simp only [at'] at stepped
    cases stepped
    have same : (s.move .module .returned).destroyed = s.destroyed := by
      rw [State.destroyed, State.destroyed, at', State.move_pc]
      rfl
    exact logged.frame rfl rfl rfl rfl same (fun started inTest => ⟨started, inTest⟩)
  | idle | returned =>
    simp only [at'] at stepped
    cases stepped

theorem State.callCurrent_quiet (s : State) (callback : Callback) (notStart : callback ≠ .start)
    (notDestroy : callback ≠ .destroy) :
    (s.callCurrent callback).toList.filterMap Entry.startOf = [] ∧
      (s.callCurrent callback).toList.filterMap Entry.destroyOf = [] := by
  unfold State.callCurrent
  cases s.ctx.currTest with
  | none => exact ⟨rfl, rfl⟩
  | some test => cases callback <;> first | exact ⟨rfl, rfl⟩ | contradiction

theorem Logged.timer {s next : State} {log : List Entry} {due : Bool} {output : Option Entry}
    (logged : Logged s log) (stepped : eventStep s due = some (next, output)) :
    Logged next (log ++ output.toList) := by
  unfold eventStep at stepped
  cases at' : s.pc .event with
  | head =>
    simp only [at'] at stepped
    cases stepped
    exact logged.frame rfl rfl rfl rfl rfl (fun started inTest => ⟨started, inTest⟩)
  | body =>
    simp only [at'] at stepped
    cases stepped
    obtain ⟨starts, destroys⟩ := s.callCurrent_quiet .handleTimerEvent nofun nofun
    cases due with
    | true =>
      exact logged.frame starts destroys rfl rfl rfl (fun started inTest => ⟨started, inTest⟩)
    | false => exact logged.frame rfl rfl rfl rfl rfl (fun started inTest => ⟨started, inTest⟩)
  | idle | created | leaving | destroying | returned =>
    simp only [at'] at stepped
    cases stepped

theorem Logged.traffic {s next : State} {log : List Entry} {output : Option Entry}
    (logged : Logged s log) (stepped : trafficStep s = some (next, output)) :
    Logged next (log ++ output.toList) := by
  unfold trafficStep at stepped
  cases at' : s.pc .trafficGen with
  | created =>
    simp only [at'] at stepped
    split_ifs at stepped
    all_goals
      cases stepped
      exact logged.frame rfl rfl rfl rfl rfl (fun started inTest => ⟨started, inTest⟩)
  | body =>
    simp only [at'] at stepped
    cases stepped
    exact logged.frame rfl rfl rfl rfl rfl (fun started inTest => ⟨started, inTest⟩)
  | idle | head | leaving | destroying | returned =>
    simp only [at'] at stepped
    cases stepped

/-- Threads change nothing but where they are themselves. -/
theorem thread_frame {s next : State} {event : Event} {output : Option Entry}
    (stepped : step s event = some (next, output))
    (thread : event = .traffic ∨ (∃ packet, event = .module packet) ∨ ∃ due, event = .timer due) :
    ∃ pc test, next = { s with pc, test } := by
  rcases thread with rfl | ⟨packet, rfl⟩ | ⟨due, rfl⟩
  · change trafficStep s = _ at stepped
    unfold trafficStep at stepped
    split at stepped
    · split_ifs at stepped
      all_goals
        cases stepped
        exact ⟨_, _, rfl⟩
    all_goals
      cases stepped
      try exact ⟨_, _, rfl⟩
  · change moduleStep s packet = _ at stepped
    unfold moduleStep at stepped
    split at stepped
    case h_3 =>
      split_ifs at stepped
      all_goals
        cases stepped
        exact ⟨_, _, rfl⟩
    all_goals
      cases stepped
      try exact ⟨_, _, rfl⟩
  · change eventStep s due = _ at stepped
    unfold eventStep at stepped
    split at stepped
    all_goals
      cases stepped
      try exact ⟨_, _, rfl⟩

theorem Placed.threads {s : State} (placed : Placed s) (pc : Thread → Pc) (test : Thread → Nat) :
    Placed { s with pc, test } :=
  ⟨placed.control, placed.current, placed.between, placed.closed, placed.started, placed.endEvent,
    placed.endModule, placed.within, placed.all⟩

/-- Everything that holds between steps. -/
structure Good (s : State) (log : List Entry) : Prop where
  placed : Placed s
  threads : Threads s
  logged : Logged s log

theorem initial_good (nTests : Nat) (trafficGen : TrafficGenValues) :
    Good (initial nTests trafficGen) [] := by
  exact ⟨⟨rfl, nofun, fun _ => rfl, rfl, nofun, nofun, rfl, Nat.zero_le _, nofun⟩,
    ⟨nofun, nofun, nofun⟩, ⟨nofun, rfl, rfl⟩⟩

theorem Good.step {s next : State} {log : List Entry} {event : Event} {output : Option Entry}
    (good : Good s log) (stepped : step s event = some (next, output)) :
    Good next (log ++ output.toList) := by
  obtain ⟨placed, threads, logged⟩ := good
  cases event with
  | main => exact ⟨placed.main stepped, threads.main stepped, logged.main placed stepped⟩
  | module packet =>
    obtain ⟨pc, test, rfl⟩ := thread_frame stepped (Or.inr (Or.inl ⟨packet, rfl⟩))
    exact ⟨placed.threads pc test, threads.module placed stepped, logged.module threads stepped⟩
  | timer due =>
    obtain ⟨pc, test, rfl⟩ := thread_frame stepped (Or.inr (Or.inr ⟨due, rfl⟩))
    exact ⟨placed.threads pc test, threads.timer stepped, logged.timer stepped⟩
  | traffic =>
    obtain ⟨pc, test, rfl⟩ := thread_frame stepped (Or.inl rfl)
    exact ⟨placed.threads pc test, threads.traffic placed stepped, logged.traffic stepped⟩
  | filter | printName =>
    obtain ⟨here, stepped⟩ := Option.ite_none_right_eq_some.mp stepped
    cases stepped
    exact ⟨placed, threads,
      logged.frame rfl rfl rfl rfl rfl (fun started inTest => ⟨started, inTest⟩)⟩
  | message =>
    obtain ⟨running, stepped⟩ := Option.ite_none_right_eq_some.mp stepped
    cases stepped
    obtain ⟨starts, destroys⟩ := s.callCurrent_quiet .ofMessage nofun nofun
    exact ⟨placed, threads,
      logged.frame starts destroys rfl rfl rfl (fun started inTest => ⟨started, inTest⟩)⟩
  | snmp caller =>
    obtain ⟨inside, stepped⟩ := Option.ite_none_right_eq_some.mp stepped
    cases stepped
    obtain ⟨starts, destroys⟩ := s.callCurrent_quiet .handleSnmpEvent nofun nofun
    exact ⟨placed, threads,
      logged.frame starts destroys rfl rfl rfl (fun started inTest => ⟨started, inTest⟩)⟩
  | endTest caller shouldContinue =>
    obtain ⟨-, stepped⟩ := Option.ite_none_right_eq_some.mp stepped
    cases stepped
    refine ⟨?_, ⟨threads.window, threads.captured, threads.left⟩, ?_⟩
    · exact ⟨placed.control, placed.current, placed.between, placed.closed, placed.started,
        placed.endEvent, placed.endModule, placed.within, placed.all⟩
    · refine logged.frame ?_ ?_ rfl rfl rfl (fun started inTest => ⟨started, inTest⟩) <;>
        (split_ifs <;> rfl)

/-- Before the test: the one before is still the current one, its library is open and there is no
control channel. -/
structure Ahead (test : Nat) (ctx : Context) (fluidControl : Bool) : Prop where
  current : ctx.currTest = if test = 0 then none else some (test - 1)
  opened : ctx.closed = (List.range (test - 1)).reverse
  channel : fluidControl = false

/-- In the test: its library is open, and those of all tests before it are closed, each once. -/
structure Current (test : Nat) (ctx : Context) : Prop where
  current : ctx.currTest = some test
  opened : ctx.closed = (List.range test).reverse

/-- What holds of a call into a module, given what was observed before it. -/
structure SafeCall (before : List Entry) (test : Nat) (callback : Callback) (ctx : Context)
    (fluidControl : Bool) : Prop where
  place : Current test ctx ∨ callback = .name ∧ Ahead test ctx fluidControl
  connected : callback.connected = true → fluidControl = true
  started : callback.waits = true → .returned test ∈ before
  last : test = 0 → callback ≠ .handleSnmpEvent → 0 ∉ before.filterMap Entry.destroyOf

/-- A thread that is cancelled exists if the traffic thread ends the test itself, and does not if
`start` does; for a timer it may have been joined. -/
def Entry.Safe (before : List Entry) : Entry → Prop
  | .call test callback ctx fluidControl => SafeCall before test callback ctx fluidControl
  | .returned _ => True
  | .cancel .main _ alive => alive = false
  | .cancel (.thread .trafficGen) _ alive => alive = true
  | .cancel (.thread .event) ctx alive => alive = true ∨ ctx.endEvent = true
  | .cancel _ _ _ => True

theorem Good.call {s : State} {log : List Entry} (good : Good s log) {test : Nat}
    {callback : Callback} {ctx : Context} {fluidControl : Bool}
    (calls : Calls s test callback ctx fluidControl) :
    SafeCall log test callback ctx fluidControl := by
  obtain ⟨placed, threads, logged⟩ := good
  obtain ⟨rfl, rfl, rfl, place, connected, started, alive⟩ := calls
  have closed := placed.closed
  refine ⟨?_, ?_, ?_, ?_⟩
  · rcases place with inTest | ⟨named, here⟩
    · rw [inTest] at closed
      exact .inl ⟨(placed.current inTest).1, closed⟩
    · have control := placed.control
      rw [here] at closed control
      exact .inr ⟨named, placed.between (by rw [here]; rfl), closed, control⟩
  · intro sends
    exact placed.control.trans (connected sends)
  · intro waits
    rcases place with inTest | ⟨rfl, -⟩
    · exact logged.returned (started waits) inTest
    · cases waits
  · intro first answer member
    rw [logged.destroys, first, List.mem_range, Nat.zero_add] at member
    have destroyed : s.destroyed = true := by
      cases flag : s.destroyed with
      | true => rfl
      | false =>
        rw [flag] at member
        cases member
    obtain ⟨-, called⟩ := Bool.and_eq_true_iff.mp destroyed
    have left : (s.pc .module).left = true := by
      revert called
      cases s.pc .module <;> first | exact fun _ => rfl | exact nofun
    have unfinished := alive answer (threads.left first left)
    rw [called] at unfinished
    cases unfinished

theorem Good.cancel {s : State} {log : List Entry} (good : Good s log) {caller : Caller}
    (inside : s.inside caller = true) : (Entry.cancel caller s.ctx s.joinable).Safe log := by
  cases caller with
  | main =>
    have here : s.phase = .starting := of_decide_eq_true inside
    change decide (s.phase = .timers ∨ s.phase = .joinTraffic) = false
    rw [here]
    rfl
  | server => trivial
  | thread thread =>
    cases thread with
    | module => trivial
    | trafficGen =>
      have at' : s.pc .trafficGen = .body := of_decide_eq_true inside
      have open' := good.threads.window .trafficGen (by rw [at']; rfl)
      change decide (s.phase = .timers ∨ s.phase = .joinTraffic) = true
      cases here : s.phase <;> rw [here] at open' <;> first | rfl | cases open'
    | event =>
      have at' : s.pc .event = .body := of_decide_eq_true inside
      have open' := good.threads.window .event (by rw [at']; rfl)
      cases here : s.phase with
      | joinTraffic =>
        left
        rw [State.joinable, here]
        rfl
      | joinEvent => exact Or.inr (good.placed.endEvent here)
      | _ =>
        rw [here] at open'
        cases open'

theorem step_cancel {s next : State} {event : Event} {caller : Caller} {ctx : Context}
    {alive : Bool} (stepped : step s event = some (next, some (.cancel caller ctx alive))) :
    s.inside caller = true ∧ ctx = s.ctx ∧ alive = s.joinable := by
  cases event with
  | endTest caller' shouldContinue =>
    obtain ⟨inside, stepped⟩ := Option.ite_none_right_eq_some.mp stepped
    obtain ⟨-, said⟩ := Option.ite_none_right_eq_some.mp (Prod.mk.inj (Option.some.inj stepped)).2
    cases said
    exact ⟨inside, rfl, rfl⟩
  | main =>
    change mainStep s = _ at stepped
    unfold mainStep at stepped
    (repeat' split at stepped) <;> simp [State.callCurrent, State.call] at stepped
  | module packet =>
    change moduleStep s packet = _ at stepped
    unfold moduleStep at stepped
    (repeat' split at stepped) <;> simp [State.call] at stepped
  | timer due =>
    change eventStep s due = _ at stepped
    unfold eventStep at stepped
    (repeat' split at stepped) <;> simp [State.callCurrent, State.call] at stepped
  | traffic =>
    change trafficStep s = _ at stepped
    unfold trafficStep at stepped
    (repeat' split at stepped) <;> simp [State.call] at stepped
  | filter | printName => simp [step, State.call] at stepped
  | message | snmp => simp [step, State.callCurrent, State.call] at stepped

theorem Good.output {s next : State} {log : List Entry} {event : Event} {entry : Entry}
    (good : Good s log) (stepped : Callbacks.step s event = some (next, some entry)) :
    entry.Safe log := by
  cases entry with
  | call test callback ctx fluidControl =>
    exact good.call (step_calls good.placed good.threads stepped)
  | returned test => trivial
  | cancel caller ctx alive =>
    obtain ⟨inside, rfl, rfl⟩ := step_cancel stepped
    exact good.cancel inside

theorem step_nTests {s next : State} {event : Event} {output : Option Entry}
    (stepped : step s event = some (next, output)) : next.ctx.nTests = s.ctx.nTests := by
  cases event with
  | main =>
    change mainStep s = _ at stepped
    unfold mainStep at stepped
    (repeat' split at stepped) <;> cases stepped <;> first | rfl | exact resetContext_nTests s.ctx
  | module packet =>
    obtain ⟨pc, test, rfl⟩ := thread_frame stepped (Or.inr (Or.inl ⟨packet, rfl⟩))
    rfl
  | timer due =>
    obtain ⟨pc, test, rfl⟩ := thread_frame stepped (Or.inr (Or.inr ⟨due, rfl⟩))
    rfl
  | traffic =>
    obtain ⟨pc, test, rfl⟩ := thread_frame stepped (Or.inl rfl)
    rfl
  | filter | printName | message | snmp | endTest =>
    obtain ⟨-, stepped⟩ := Option.ite_none_right_eq_some.mp stepped
    cases stepped
    rfl

/-- In whatever order the threads run: a call goes to the test in progress, whose library is open
while those of all tests before it are closed, each once, except that a test is also asked for its
name while the test before is still the current one; module code that runs in `start`, on a message,
on a timer or in the traffic thread finds the control channel set up; packets, timers and traffic
come after `start` has returned; and in the first test nothing comes after `destroy` but SNMP
answers. A suite that has ended has started and destroyed every test once, in their order. -/
theorem callbacks_in_order {nTests : Nat} {trafficGen : TrafficGenValues} {events : List Event}
    {final : State} {log : List Entry}
    (ran : run step (initial nTests trafficGen) events = some (final, log)) :
    (∀ before entry after, log = before ++ entry :: after → entry.Safe before) ∧
      (final.phase = .finished → log.filterMap Entry.startOf = List.range nTests ∧
        log.filterMap Entry.destroyOf = List.range nTests) := by
  have there : Good final ([] ++ log) ∧
      ∀ before entry after, [] ++ log = before ++ entry :: after → entry.Safe before := by
    refine run_log_invariant
      (fun s log => Good s log ∧ ∀ before entry after,
        log = before ++ entry :: after → entry.Safe before)
      ?_ ⟨initial_good nTests trafficGen, ?_⟩ ran
    · rintro s past event next output ⟨good, safe⟩ stepped
      refine ⟨good.step stepped, ?_⟩
      cases output with
      | none => rwa [Option.toList_none, List.append_nil]
      | some entry => exact (forall_item_concat past entry).mpr ⟨safe, good.output stepped⟩
    · intro before entry after split
      exact absurd split.symm (by simp)
  obtain ⟨good, safe⟩ := there
  refine ⟨safe, ?_⟩
  intro over'
  have total : final.ctx.nTests = nTests :=
    run_state_invariant (fun s => s.ctx.nTests = nTests)
      (fun same stepped => (step_nTests stepped).trans same)
      rfl ran
  have all := (good.placed.all over').trans total
  have starts := good.logged.starts
  have destroys := good.logged.destroys
  rw [over', all] at starts
  rw [State.destroyed, over', all] at destroys
  exact ⟨starts, destroys⟩

def calls (log : List Entry) : List (Nat × Callback) :=
  log.filterMap fun entry => match entry with
    | .call test callback _ _ => some (test, callback)
    | _ => none

def twoTests : List Event :=
  [.main, .filter, .printName, .main, .module true, .main, .main, .message, .main, .main, .main,
    .traffic, .timer true, .timer true, .module true, .module true, .traffic, .main, .timer true,
    .main, .main, .main, .module false, .module true, .module true, .snmp (.thread .module),
    .module true, .main, .main, .main, .module true, .module true, .module true, .module true,
    .main, .main, .main, .main, .main, .traffic, .traffic, .main, .timer true, .main, .main,
    .main, .main, .main]

/-- The flags that the first test leaves set make the second one be destroyed before it
is started. -/
theorem callbacks_in_order_two_tests :
    ∃ final log, run step (initial 2 .userSpace) twoTests = some (final, log) ∧
      calls log = [(0, .name), (0, .getPcapFilter), (0, .name),
        (0, .getOpenflowVersions), (0, .start), (0, .ofMessage), (0, .handleTrafficGeneration),
        (0, .handleTimerEvent), (0, .handlePcapEvent), (0, .destroy), (0, .handleSnmpEvent),
        (1, .name), (1, .destroy), (1, .getOpenflowVersions), (1, .start),
        (1, .handleTrafficGeneration)] ∧
      (∀ before entry after, log = before ++ entry :: after → entry.Safe before) ∧
      final.phase = .finished ∧ log.filterMap Entry.startOf = [0, 1] := by
  cases ran : run step (initial 2 .userSpace) twoTests with
  | none => cases ran
  | some result =>
    obtain ⟨final, log⟩ := result
    obtain ⟨safe, all⟩ := callbacks_in_order ran
    cases ran
    exact ⟨_, _, rfl, rfl, safe, rfl, (all rfl).1⟩

end Oflops.Harness.Callbacks
