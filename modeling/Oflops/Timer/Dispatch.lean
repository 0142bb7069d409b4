import Oflops.Lib.Machine
import Oflops.Timer.Deadline

/-! The timers of a test as a system: every thread of the harness may schedule events,
`event_loop` looks at the first one under the lock, gives the lock up and extracts under the lock
again, and `timer_init` starts the next test with a fresh queue. The steps are the critical
sections, in any interleaving. -/

namespace Oflops.Timer.Dispatch
open Time Lib.Machine Lib.MachineInt Lib.BinaryHeap Queue Refinement EventLoop Deadline

variable {A : Type}

/-- The callback is `NULL`: `timer_run_next_event` ignores it. -/
def oflopsScheduleTimerEvent (timers : WcState Unit A) (tv : Timeval) (arg : A) :
    Int × WcState Unit A :=
  wcEventAdd timers () arg tv

/-- The old queue is freed, events and all; the id counter of the file goes on. -/
def timerInit (timers : WcState Unit A) (uninitialised : Nat → Qelm Unit A) : WcState Unit A :=
  { timers with queue := wcQueueInit 10 uninitialised }

/-- Where the thread of `event_loop` stands: not created yet, before its outer loop condition, in
`pthread_cond_timedwait`, past the unlock with an answer that was not positive, or returned. -/
inductive Pc where
  | absent
  | condition
  | waiting
  | dispatching
  | returned
  deriving DecidableEq, Repr

structure System (A : Type) where
  timers : WcState Unit A
  test : Nat
  pc : Pc
  endEvent : Bool

/-- The first test, after `timer_init`; `WC_EVENT_ID` is a static zero. -/
def start (uninitialised : Nat → Qelm Unit A) : System A where
  timers := initial 10 uninitialised 0
  test := 0
  pc := .absent
  endEvent := false

inductive Event (A : Type) where
  | schedule (tv : Timeval) (arg : A)
  | create
  | stop
  | look (now : Timeval)
  | extract
  | leave
  | nextTest (uninitialised : Nat → Qelm Unit A)

/-- What is observed: events scheduled, events handed to `handle_timer_event`, and extractions that
found the queue empty. -/
inductive Entry (A : Type) where
  | scheduled (test : Nat) (event : TimerEvent A)
  | dispatched (test : Nat) (event : TimerEvent A)
  | missed (test : Nat)

def step (s : System A) : Event A → Option (System A × Option (Entry A))
  | .schedule tv arg =>
    let (id, timers) := oflopsScheduleTimerEvent s.timers tv arg
    some ({ s with timers }, some (.scheduled s.test ⟨id, arg, tv⟩))
  | .create => if s.pc = .absent then some ({ s with pc := .condition }, none) else none
  | .stop => some ({ s with endEvent := true }, none)
  | .look now =>
    -- from the outer loop, or woken up in the inner one
    if s.pc = .condition ∧ s.endEvent = false ∨ s.pc = .waiting then
      if timerGetNextEvent s.timers.queue now ≤ 0 then some ({ s with pc := .dispatching }, none)
      else if s.endEvent then some ({ s with pc := .condition }, none)
      else some ({ s with pc := .waiting }, none)
    else none
  | .extract =>
    if s.pc = .dispatching then
      let (event, queue) := timerRunNextEvent s.timers.queue
      some ({ s with timers := { s.timers with queue }, pc := .condition },
        some (event.elim (.missed s.test) (.dispatched s.test)))
    else none
  | .leave =>
    if s.pc = .condition ∧ s.endEvent = true then some ({ s with pc := .returned }, none) else none
  | .nextTest uninitialised =>
    if s.pc = .returned then
      some ({ s with
        timers := timerInit s.timers uninitialised, test := s.test + 1, pc := .absent }, none)
    else none

/-- What a step does: it schedules, it extracts, it starts a test, or it leaves the queue alone and
goes to the extraction only if the queue asked for it. -/
theorem step_cases {s next : System A} {event : Event A} {output : Option (Entry A)}
    (stepped : step s event = some (next, output)) :
    (∃ tv arg, next = { s with timers := (wcEventAdd s.timers () arg tv).2 } ∧
        output = some (.scheduled s.test ⟨s.timers.wcEventId, arg, tv⟩)) ∨
      (s.pc = .dispatching ∧
        next = { s with
          timers := { s.timers with queue := (timerRunNextEvent s.timers.queue).2 }, pc :=
            .condition } ∧
        output = some ((timerRunNextEvent s.timers.queue).1.elim (.missed s.test)
          (.dispatched s.test))) ∨
      (∃ uninitialised, next =
          { s with timers := timerInit s.timers uninitialised, test := s.test + 1, pc := .absent } ∧
        output = none) ∨
      (next.timers = s.timers ∧ next.test = s.test ∧ output = none ∧
        (next.pc = .dispatching →
          s.pc = .dispatching ∨ ∃ now, timerGetNextEvent s.timers.queue now ≤ 0)) := by
  cases event with
  | schedule tv arg =>
    cases stepped
    exact Or.inl ⟨tv, arg, rfl, rfl⟩
  | create =>
    obtain ⟨-, stepped⟩ := Option.ite_none_right_eq_some.mp stepped
    cases stepped
    exact Or.inr (Or.inr (Or.inr ⟨rfl, rfl, rfl, fun other => by cases other⟩))
  | stop =>
    cases stepped
    exact Or.inr (Or.inr (Or.inr ⟨rfl, rfl, rfl, Or.inl⟩))
  | look now =>
    obtain ⟨-, stepped⟩ := Option.ite_none_right_eq_some.mp stepped
    refine Or.inr (Or.inr (Or.inr ?_))
    split_ifs at stepped with due
    · cases stepped
      exact ⟨rfl, rfl, rfl, fun _ => Or.inr ⟨now, due⟩⟩
    · cases stepped
      exact ⟨rfl, rfl, rfl, fun other => by cases other⟩
    · cases stepped
      exact ⟨rfl, rfl, rfl, fun other => by cases other⟩
  | extract =>
    obtain ⟨here, stepped⟩ := Option.ite_none_right_eq_some.mp stepped
    cases stepped
    exact Or.inr (Or.inl ⟨here, rfl, rfl⟩)
  | leave =>
    obtain ⟨-, stepped⟩ := Option.ite_none_right_eq_some.mp stepped
    cases stepped
    exact Or.inr (Or.inr (Or.inr ⟨rfl, rfl, rfl, fun other => by cases other⟩))
  | nextTest uninitialised =>
    obtain ⟨-, stepped⟩ := Option.ite_none_right_eq_some.mp stepped
    cases stepped
    exact Or.inr (Or.inr (Or.inl ⟨uninitialised, rfl, rfl⟩))

def Entry.scheduledFor (test : Nat) : Entry A → Option (TimerEvent A)
  | .scheduled during event => if during = test then some event else none
  | _ => none

def Entry.dispatchedFor (test : Nat) : Entry A → Option (TimerEvent A)
  | .dispatched during event => if during = test then some event else none
  | _ => none

def Entry.issued : Entry A → Option Int
  | .scheduled _ event => some event.timerId
  | _ => none

/-- The events scheduled during a test, and those dispatched during it. -/
def scheduledIn (test : Nat) (log : List (Entry A)) : Multiset (TimerEvent A) :=
  log.filterMap (Entry.scheduledFor test)

def dispatchedIn (test : Nat) (log : List (Entry A)) : Multiset (TimerEvent A) :=
  log.filterMap (Entry.dispatchedFor test)

/-- The ids that `oflops_schedule_timer_event` returned, in order. -/
def ids (log : List (Entry A)) : List Int := log.filterMap Entry.issued

def asEvent (e : Qelm Unit A) : TimerEvent A := ⟨e.id, e.data.arg, e.key⟩

def pending (timers : WcState Unit A) : Multiset (TimerEvent A) := (queued timers.queue).map asEvent

theorem scheduledIn_append (test : Nat) (before after : List (Entry A)) :
    scheduledIn test (before ++ after) = scheduledIn test before + scheduledIn test after := by
  unfold scheduledIn
  rw [List.filterMap_append, ← Multiset.coe_add]

theorem dispatchedIn_append (test : Nat) (before after : List (Entry A)) :
    dispatchedIn test (before ++ after) = dispatchedIn test before + dispatchedIn test after := by
  unfold dispatchedIn
  rw [List.filterMap_append, ← Multiset.coe_add]

theorem ids_append (before after : List (Entry A)) :
    ids (before ++ after) = ids before ++ ids after :=
  List.filterMap_append

/-- What an entry of the log has to satisfy, given the log before it: a dispatch hands over an
earliest one of the events that were scheduled during the same test and not dispatched yet, and no
extraction comes up empty. -/
def Earliest (before : List (Entry A)) : Entry A → Prop
  | .scheduled _ _ => True
  | .dispatched test event =>
    ∃ others, scheduledIn test before = dispatchedIn test before + (event ::ₘ others) ∧
      ∀ other ∈ others, event.schedTime ≤ other.schedTime
  | .missed _ => False

theorem pending_add (timers : WcState Unit A) (tv : Timeval) (arg : A) :
    pending (wcEventAdd timers () arg tv).2 = pending timers + {⟨timers.wcEventId, arg, tv⟩} := by
  unfold pending
  rw [wcEventAdd_queued, Multiset.map_add, Multiset.map_singleton]
  rfl

theorem timerRunNextEvent_earliest {timers : WcState Unit A} (valid : Valid timers)
    (occupied : ¬timers.queue.size < 1) :
    ∃ event, (timerRunNextEvent timers.queue).1 = some event ∧
      Valid { timers with queue := (timerRunNextEvent timers.queue).2 } ∧
      pending timers = event ::ₘ pending { timers with
        queue := (timerRunNextEvent timers.queue).2 } ∧
      ∀ other ∈ pending timers, event.schedTime ≤ other.schedTime := by
  have shrunk := taken_queued timers.queue le_rfl (not_lt.mp occupied)
  rw [timerRunNextEvent_taken occupied]
  refine ⟨asEvent (timers.queue.array 1), rfl,
    taken_valid valid le_rfl (not_lt.mp occupied), ?_, ?_⟩
  · unfold pending
    rw [← shrunk, Multiset.map_add, Multiset.map_singleton, add_comm, Multiset.singleton_add]
  · intro other member
    obtain ⟨e, inside, rfl⟩ := Multiset.mem_map.mp member
    exact root_minimal valid.ordered e inside

/-- The state of the timers, in terms of the log so far. -/
structure Good (s : System A) (past : List (Entry A)) : Prop where
  valid : Valid s.timers
  counter : s.timers.wcEventId = (ids past).length
  fresh : ∀ id ∈ ids past, id < s.timers.wcEventId
  distinct : (ids past).Nodup
  balance : scheduledIn s.test past = dispatchedIn s.test past + pending s.timers
  future : ∀ test, s.test < test → scheduledIn test past = 0 ∧ dispatchedIn test past = 0
  loaded : s.pc = .dispatching → ¬s.timers.queue.size < 1
  earliest : ∀ before entry after, past = before ++ entry :: after → Earliest before entry

theorem start_good (uninitialised : Nat → Qelm Unit A) : Good (start uninitialised) [] where
  valid := initial_valid 10 (by decide) uninitialised 0 le_rfl
  counter := rfl
  fresh := by simp [ids]
  distinct := List.nodup_nil
  balance := by
    simp [scheduledIn, dispatchedIn, pending, start, queued, initial, wcQueueInit, contents_zero]
  future := fun _ _ => ⟨rfl, rfl⟩
  loaded := fun other => by cases other
  earliest := by simp

theorem scheduled_single (test during : Nat) (event : TimerEvent A) :
    scheduledIn test [.scheduled during event] = if during = test then {event} else 0 := by
  simp only [scheduledIn, List.filterMap_cons, List.filterMap_nil, Entry.scheduledFor]
  split_ifs <;> rfl

theorem dispatched_single (test during : Nat) (event : TimerEvent A) :
    dispatchedIn test [.dispatched during event] = if during = test then {event} else 0 := by
  simp only [dispatchedIn, List.filterMap_cons, List.filterMap_nil, Entry.dispatchedFor]
  split_ifs <;> rfl

theorem Good.schedule {s : System A} {past : List (Entry A)} (good : Good s past) (tv : Timeval)
    (arg : A) (noWrap : s.timers.wcEventId + 1 < 2 ^ 31) :
    Good { s with timers := (wcEventAdd s.timers () arg tv).2 }
      (past ++ [.scheduled s.test ⟨s.timers.wcEventId, arg, tv⟩]) := by
  have counting := good.valid.counting
  have next : (wcEventAdd s.timers () arg tv).2.wcEventId = s.timers.wcEventId + 1 := by
    rw [wcEventAdd_nextId, int32_of_range (by omega) noWrap]
  have grown : ids (past ++ [.scheduled s.test ⟨s.timers.wcEventId, arg, tv⟩]) =
      ids past ++ [s.timers.wcEventId] := ids_append _ _
  refine ⟨wcEventAdd_valid good.valid () arg tv noWrap, ?_, ?_, ?_, ?_, ?_, ?_, ?_⟩
  · have counter := good.counter
    rw [grown, List.length_append, List.length_singleton, next]
    omega
  · intro id member
    rw [grown, List.mem_append, List.mem_singleton] at member
    rw [next]
    rcases member with old | rfl
    · have older := good.fresh id old
      omega
    · omega
  · rw [grown]
    refine List.nodup_append.mpr ⟨good.distinct, List.nodup_singleton _, ?_⟩
    intro id old other new
    rw [List.mem_singleton.mp new]
    exact (good.fresh id old).ne
  · have silent : dispatchedIn s.test [Entry.scheduled s.test ⟨s.timers.wcEventId, arg, tv⟩] = 0 :=
      rfl
    rw [scheduledIn_append, dispatchedIn_append, scheduled_single, if_pos rfl, silent,
      add_zero, good.balance, pending_add, add_assoc]
  · intro test later
    have none := good.future test later
    refine ⟨?_, ?_⟩
    · rw [scheduledIn_append, none.1, scheduled_single, if_neg (ne_of_lt later), add_zero]
    · rw [dispatchedIn_append, none.2]
      rfl
  · intro ready
    have before := good.loaded ready
    rw [wcEventAdd_size]
    omega
  · exact (forall_item_concat past _).mpr ⟨good.earliest, trivial⟩

theorem Good.extract {s : System A} {past : List (Entry A)} (good : Good s past)
    (ready : s.pc = .dispatching) :
    Good { s with timers := { s.timers with
      queue := (timerRunNextEvent s.timers.queue).2 }, pc := .condition }
      (past ++ [(timerRunNextEvent s.timers.queue).1.elim (.missed s.test)
        (.dispatched s.test)]) := by
  obtain ⟨event, ran, valid, shrunk, first⟩ :=
    timerRunNextEvent_earliest good.valid (good.loaded ready)
  have silent : ∀ test, scheduledIn test [Entry.dispatched s.test event] = 0 := fun _ => rfl
  have grown : ids (past ++ [Entry.dispatched s.test event]) = ids past := by
    rw [ids_append]
    exact List.append_nil _
  rw [ran, Option.elim_some]
  refine ⟨valid, ?_, ?_, ?_, ?_, ?_, ?_, ?_⟩
  · rw [grown]
    exact good.counter
  · rw [grown]
    exact good.fresh
  · rw [grown]
    exact good.distinct
  · rw [scheduledIn_append, dispatchedIn_append, silent, add_zero, dispatched_single,
      if_pos rfl, good.balance, shrunk, add_assoc, Multiset.singleton_add]
  · intro test later
    have none := good.future test later
    refine ⟨?_, ?_⟩
    · rw [scheduledIn_append, none.1, silent, add_zero]
    · rw [dispatchedIn_append, none.2, dispatched_single, if_neg (ne_of_lt later), add_zero]
  · intro other
    cases other
  · refine (forall_item_concat past _).mpr ⟨good.earliest, ?_⟩
    refine ⟨_, good.balance.trans (by rw [shrunk]), ?_⟩
    intro other member
    apply first
    rw [shrunk]
    exact Multiset.mem_cons_of_mem member

theorem Good.nextTest {s : System A} {past : List (Entry A)} (good : Good s past)
    (uninitialised : Nat → Qelm Unit A) :
    Good { s with timers := timerInit s.timers uninitialised, test := s.test + 1, pc := .absent }
      past := by
  obtain ⟨noneScheduled, noneDispatched⟩ := good.future (s.test + 1) (by omega)
  refine ⟨initial_valid 10 (by decide) uninitialised _ good.valid.counting,
    good.counter, good.fresh, good.distinct, ?_, ?_, ?_, good.earliest⟩
  · simp [noneScheduled, noneDispatched, pending, timerInit, queued, wcQueueInit, contents_zero]
  · intro test later
    change s.test + 1 < test at later
    exact good.future test (by omega)
  · intro other
    cases other

theorem Good.step {s next : System A} {past : List (Entry A)} {event : Event A}
    {output : Option (Entry A)} (good : Good s past)
    (few : (ids (past ++ output.toList)).length < 2 ^ 31)
    (stepped : step s event = some (next, output)) : Good next (past ++ output.toList) := by
  rcases step_cases stepped with
    ⟨tv, arg, rfl, rfl⟩ | ⟨ready, rfl, rfl⟩ | ⟨uninitialised, rfl, rfl⟩ |
      ⟨timers, test, rfl, loaded⟩
  · apply good.schedule
    have counter := good.counter
    rw [Option.toList_some, ids_append, List.length_append] at few
    have one : (ids [Entry.scheduled s.test ⟨s.timers.wcEventId, arg, tv⟩]).length = 1 := rfl
    omega
  · exact good.extract ready
  · rw [Option.toList_none, List.append_nil]
    exact good.nextTest uninitialised
  · rw [Option.toList_none, List.append_nil]
    refine ⟨timers ▸ good.valid, timers ▸ good.counter, timers ▸ good.fresh,
      good.distinct, ?_, ?_, ?_, good.earliest⟩
    · rw [test, timers]
      exact good.balance
    · rw [test]
      exact good.future
    · intro ready
      rw [timers]
      rcases loaded ready with already | ⟨now, due⟩
      · exact good.loaded already
      · intro empty
        rw [timerGetNextEvent_empty empty] at due
        omega

theorem run_good {uninitialised : Nat → Qelm Unit A} {events : List (Event A)} {final : System A}
    {log : List (Entry A)} (few : (ids log).length < 2 ^ 31)
    (ran : run step (start uninitialised) events = some (final, log)) : Good final log := by
  -- while the ids are not used up, the state is good
  have there := run_log_invariant (fun s past => (ids past).length < 2 ^ 31 → Good s past)
    (fun {state past event next output} good stepped short => by
      have shorter : (ids past).length < 2 ^ 31 := by
        rw [ids_append, List.length_append] at short
        omega
      exact (good shorter).step short stepped)
    (fun _ => start_good uninitialised) ran
  exact there few

/-- Timers fire exactly once: whatever the interleaving of schedulers, the event loop and the change
of tests, ids are never reused, each dispatch hands over an earliest event among those scheduled
during its test and not dispatched yet, no extraction comes up empty, and what the current test
scheduled has been dispatched or is still queued. -/
theorem timers_exactly_once {uninitialised : Nat → Qelm Unit A} {events : List (Event A)}
    {final : System A} {log : List (Entry A)} (few : (ids log).length < 2 ^ 31)
    (ran : run step (start uninitialised) events = some (final, log)) :
    (ids log).Nodup ∧
      (∀ before entry after, log = before ++ entry :: after → Earliest before entry) ∧
      scheduledIn final.test log = dispatchedIn final.test log + pending final.timers := by
  have good := run_good few ran
  exact ⟨good.distinct, good.earliest, good.balance⟩

/-- A look at a queue with a passed event leads to the extraction, also when the test is
being ended. -/
theorem look_passed {s : System A} {past : List (Entry A)} (good : Good s past) (now : Timeval)
    (event : TimerEvent A) (ready : s.pc = .condition ∧ s.endEvent = false ∨ s.pc = .waiting)
    (waiting : event ∈ pending s.timers) (passed : event.schedTime < now) :
    step s (.look now) = some ({ s with pc := .dispatching }, none) := by
  obtain ⟨e, member, rfl⟩ := Multiset.mem_map.mp waiting
  have occupied : ¬s.timers.queue.size < 1 := by
    intro empty
    rw [queued_eq_zero empty] at member
    exact absurd member (Multiset.notMem_zero e)
  have root := lt_of_le_of_lt (root_minimal good.valid.ordered e member) passed
  have answer : timerGetNextEvent s.timers.queue now ≤ 0 := by
    rw [timerGetNextEvent_passed occupied root]
    decide
  simp only [step, if_pos ready, if_pos answer]

def blank : Nat → Qelm Unit Nat := fun _ => ⟨-1, ⟨0, 0⟩, ⟨⟨0, 0⟩, (), 0⟩⟩

/-- An event scheduled between the look and the extraction. -/
theorem timers_exactly_once_race :
    ∃ (final : System Nat) (log : List (Entry Nat)),
      run step (start blank)
        [.schedule ⟨3, 0⟩ 30, .create, .look ⟨4, 0⟩, .schedule ⟨2, 0⟩ 20, .extract] =
          some (final, log) ∧
      log.length = 3 ∧ (ids log).Nodup ∧
      scheduledIn final.test log = dispatchedIn final.test log + pending final.timers := by
  obtain ⟨final, log, ran, three⟩ : ∃ (final : System Nat) (log : List (Entry Nat)),
      run step (start blank)
        [.schedule ⟨3, 0⟩ 30, .create, .look ⟨4, 0⟩, .schedule ⟨2, 0⟩ 20, .extract] =
          some (final, log) ∧
      log.length = 3 := by
    have good := (start_good blank).schedule ⟨3, 0⟩ (30 : Nat) (by decide)
    have created := good.step (by decide) (show step _ .create = some (_, none) from rfl)
    have waiting : (⟨0, 30, ⟨3, 0⟩⟩ : TimerEvent Nat) ∈
        pending (wcEventAdd (start blank).timers () 30 ⟨3, 0⟩).2 := by
      rw [pending_add]
      exact Multiset.mem_add.mpr (Or.inr (Multiset.mem_singleton_self _))
    have looked := look_passed created ⟨4, 0⟩ ⟨0, 30, ⟨3, 0⟩⟩ (Or.inl ⟨rfl, rfl⟩)
      waiting (by decide)
    exact ⟨_, _, run_of_step rfl
      (run_of_step rfl (run_of_step looked (run_of_step rfl (run_of_step rfl rfl)))), rfl⟩
  have short : (ids log).length < 2 ^ 31 := by
    have bound := List.length_filterMap_le Entry.issued log
    rw [three] at bound
    exact lt_of_le_of_lt bound (by decide)
  obtain ⟨distinct, -, balance⟩ := timers_exactly_once short ran
  exact ⟨final, log, ran, three, distinct, balance⟩

end Oflops.Timer.Dispatch
