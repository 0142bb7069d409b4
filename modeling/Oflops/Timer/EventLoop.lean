import Oflops.Timer.Refinement

/-! `timer_event.c` and the dispatch decision of `event_loop`: the loop asks for the time
to the next event under the queue's lock, gives the lock up, and dispatches the first
event when the answer was not positive. Other threads may add events in between. -/

namespace Oflops.Timer.EventLoop
open Time Lib.MachineInt Lib.BinaryHeap TimerMap Queue Refinement

variable {F A : Type}

/-- The return code, and `*delta` where it is stored. -/
def wcGetNextEventDelta (pq : WcQueue F A) (now : Timeval) : Int × Option Timeval :=
  if wcQueueIsempty pq then (-1, none)
  else if timercmp now (pq.array 1).key gt then (1, none)
  else (0, some (timersub (pq.array 1).key now))

/-- The microsecond count is a 64-bit `long`, returned through an `int`. -/
def timerGetNextEvent (pq : WcQueue F A) (now : Timeval) : Int :=
  match wcGetNextEventDelta pq now with
  | (0, some tv) => int32 (int64 (int64 (tv.tvSec * 1000000) + tv.tvUsec))
  | (-1, _) => 1000000
  | _ => -1

structure TimerEvent (A : Type) where
  timerId : Int
  arg : A
  schedTime : Timeval

/-- The event passed to the module's `handle_timer_event`, if any; `func` is ignored. -/
def timerRunNextEvent (pq : WcQueue F A) : Option (TimerEvent A) × WcQueue F A :=
  match wcQueueExtract pq with
  | (0, some (id, t, _, val), pq') => (some { timerId := id, arg := val, schedTime := t }, pq')
  | (_, _, pq') => (none, pq')

structure AddCall (F A : Type) where
  func : F
  arg : A
  key : Timeval

/-- The calls of `wc_event_add` by other threads while the loop does not hold the lock. -/
def addAll (st : WcState F A) : List (AddCall F A) → WcState F A
  | [] => st
  | c :: cs => addAll (wcEventAdd st c.func c.arg c.key).2 cs

theorem addAll_queued (st : WcState F A) (calls : List (AddCall F A)) :
    queued st.queue ≤ queued (addAll st calls).queue := by
  induction calls generalizing st with
  | nil => exact le_rfl
  | cons c cs ih =>
    refine le_trans ?_ (ih (wcEventAdd st c.func c.arg c.key).2)
    rw [wcEventAdd_queued]
    exact Multiset.le_add_right _ _

theorem addAll_ordered {st : WcState F A} (calls : List (AddCall F A))
    (order : Ordered Qelm.key st.queue.array st.queue.size) :
    Ordered Qelm.key (addAll st calls).queue.array (addAll st calls).queue.size := by
  induction calls generalizing st with
  | nil => exact order
  | cons c cs ih => exact ih (wcEventAdd_ordered c.func c.arg c.key order)

theorem timerRunNextEvent_empty {pq : WcQueue F A} (empty : pq.size < 1) :
    timerRunNextEvent pq = (none, pq) := by
  unfold timerRunNextEvent
  rw [wcQueueExtract_empty empty]
  rfl

theorem timerRunNextEvent_taken {pq : WcQueue F A} (occupied : ¬pq.size < 1) :
    timerRunNextEvent pq =
      (some ⟨(pq.array 1).id, (pq.array 1).data.arg, (pq.array 1).key⟩, taken pq 1) := by
  unfold timerRunNextEvent
  rw [wcQueueExtract_root occupied]
  rfl

theorem timerRunNextEvent_root {pq : WcQueue F A} (occupied : ¬pq.size < 1) :
    (timerRunNextEvent pq).1 =
      some ⟨(pq.array 1).id, (pq.array 1).data.arg, (pq.array 1).key⟩ := by
  rw [timerRunNextEvent_taken occupied]

theorem dispatched_le {st : WcState F A} (calls : List (AddCall F A))
    (order : Ordered Qelm.key st.queue.array st.queue.size) {e : Qelm F A}
    (member : e ∈ queued st.queue) :
    ∃ event, (timerRunNextEvent (addAll st calls).queue).1 = some event ∧
      event.schedTime ≤ e.key := by
  have kept := Multiset.mem_of_le (addAll_queued st calls) member
  obtain ⟨i, low, high, there⟩ := mem_contents.mp kept
  refine ⟨_, timerRunNextEvent_root (by omega), ?_⟩
  rw [← there]
  exact (addAll_ordered calls order).root_le i low high

theorem timerGetNextEvent_future {pq : WcQueue F A} {now : Timeval} (occupied : ¬pq.size < 1)
    (normalNow : now.Normalized) (normalKey : (pq.array 1).key.Normalized)
    (future : ¬(pq.array 1).key < now) :
    timerGetNextEvent pq now = int32 ((pq.array 1).key.micros - now.micros) := by
  have delta : wcGetNextEventDelta pq now = (0, some (timersub (pq.array 1).key now)) := by
    unfold wcGetNextEventDelta wcQueueIsempty
    simp [occupied, timercmp_gt, future]
  unfold timerGetNextEvent
  rw [delta]
  change int32 (int64 _) = _
  rw [int32_int64]
  apply int32_eq_of_modEq
  refine Int.ModEq.trans ?_ (timersub_micros normalKey normalNow)
  exact (int64_modEq _).add_right _

theorem timerGetNextEvent_empty {pq : WcQueue F A} {now : Timeval} (empty : pq.size < 1) :
    timerGetNextEvent pq now = 1000000 := by
  unfold timerGetNextEvent wcGetNextEventDelta wcQueueIsempty
  simp [empty]

/-- When the answer sends the loop to the dispatch, the event dispatched is due,
whatever other threads add in between. -/
def DispatchesOnTime (st : WcState F A) (now : Timeval) : Prop :=
  timerGetNextEvent st.queue now ≤ 0 → ∀ calls : List (AddCall F A),
    ∃ event, (timerRunNextEvent (addAll st calls).queue).1 = some event ∧ event.schedTime ≤ now

/-- Every earliest event is due, or its distance in microseconds is positive when cut to a
signed 32-bit integer. -/
def CutsToPositive (pq : WcQueue F A) (now : Timeval) : Prop :=
  ∀ e ∈ queued pq, (∀ other ∈ queued pq, e.key ≤ other.key) → e.key ≤ now ∨
    (0 < (e.key.micros - now.micros) % 2 ^ 32 ∧ (e.key.micros - now.micros) % 2 ^ 32 < 2 ^ 31)

theorem root_mem {pq : WcQueue F A} (occupied : ¬pq.size < 1) : pq.array 1 ∈ queued pq :=
  mem_contents.mpr ⟨1, le_rfl, by omega, rfl⟩

theorem root_minimal {pq : WcQueue F A} (order : Ordered Qelm.key pq.array pq.size) :
    ∀ other ∈ queued pq, (pq.array 1).key ≤ other.key := by
  intro other member
  obtain ⟨i, low, high, there⟩ := mem_contents.mp member
  rw [← there]
  exact order.root_le i low high

theorem queued_eq_zero {pq : WcQueue F A} (empty : pq.size < 1) : queued pq = 0 := by
  rw [queued, show pq.size = 0 by omega, contents_zero]

theorem not_dispatchesOnTime_of_cut {st : WcState F A} {now : Timeval}
    (occupied : ¬st.queue.size < 1) (normalNow : now.Normalized)
    (normalRoot : (st.queue.array 1).key.Normalized) (ahead : now < (st.queue.array 1).key)
    (cut : int32 ((st.queue.array 1).key.micros - now.micros) ≤ 0) : ¬DispatchesOnTime st now := by
  intro onTime
  rw [← timerGetNextEvent_future occupied normalNow normalRoot (not_lt.mpr ahead.le)] at cut
  obtain ⟨event, ran, early⟩ := onTime cut []
  rw [addAll, timerRunNextEvent_root occupied] at ran
  rw [← Option.some.inj ran] at early
  exact absurd early (not_le.mpr ahead)

theorem dispatchesOnTime_of_positive {st : WcState F A} {now : Timeval}
    (order : Ordered Qelm.key st.queue.array st.queue.size) (occupied : ¬st.queue.size < 1)
    (normalNow : now.Normalized) (normalRoot : (st.queue.array 1).key.Normalized)
    (survives : (st.queue.array 1).key ≤ now ∨
      0 < int32 ((st.queue.array 1).key.micros - now.micros)) : DispatchesOnTime st now := by
  intro fires calls
  obtain ⟨event, ran, first⟩ := dispatched_le calls order (root_mem occupied)
  refine ⟨event, ran, first.trans ?_⟩
  rcases survives with due | wide
  · exact due
  · by_contra late
    rw [timerGetNextEvent_future occupied normalNow normalRoot (fun past => late past.le)] at fires
    exact absurd fires (not_le.mpr wide)

/-- No event is dispatched early exactly when the distance to the earliest one survives
the cut to 32 bits. -/
theorem dispatchesOnTime_iff (q : TimerQueue F A) (now : Timeval) (normalNow : now.Normalized)
    (normalKeys : ∀ e ∈ queued q.state.queue, e.key.Normalized) :
    DispatchesOnTime q.state now ↔ CutsToPositive q.state.queue now := by
  have order := q.valid.ordered
  by_cases empty : q.state.queue.size < 1
  · constructor
    · intro _ e member
      rw [queued_eq_zero empty] at member
      exact absurd member (Multiset.notMem_zero e)
    · intro _ fires
      rw [timerGetNextEvent_empty empty] at fires
      omega
  · have inside := root_mem empty
    have normalRoot := normalKeys _ inside
    constructor
    · intro onTime e member earliest
      have same : e.key = (q.state.queue.array 1).key :=
        le_antisymm (earliest _ inside) (root_minimal order e member)
      rw [same]
      by_cases due : (q.state.queue.array 1).key ≤ now
      · exact Or.inl due
      · refine Or.inr ((int32_pos_iff _).mp (not_le.mp (fun cut => ?_)))
        exact not_dispatchesOnTime_of_cut empty normalNow normalRoot (not_le.mp due) cut onTime
    · intro survives
      apply dispatchesOnTime_of_positive order empty normalNow normalRoot
      rw [int32_pos_iff]
      exact survives _ inside (root_minimal order)

def single (key : Timeval) : WcState Nat Nat := (wcEventAdd (initial 10 junk 0) 0 0 key).2

theorem single_valid (key : Timeval) : Valid (single key) :=
  wcEventAdd_valid (initial_valid 10 (by decide) junk 0 le_rfl) 0 0 key (by decide)

theorem single_queued (key : Timeval) : queued (single key).queue = {⟨0, key, ⟨key, 0, 0⟩⟩} := by
  rw [single, wcEventAdd_queued]
  simp [queued, initial, wcQueueInit, contents_zero, newElement]

theorem single_root (key : Timeval) : (single key).queue.array 1 = ⟨0, key, ⟨key, 0, 0⟩⟩ := by
  have inside := root_mem (show ¬(single key).queue.size < 1 by
    rw [single, wcEventAdd_size]
    omega)
  rw [single_queued] at inside
  exact Multiset.mem_singleton.mp inside

theorem dispatchesOnTime_iff_five_seconds :
    DispatchesOnTime (single ⟨1400000005, 0⟩) ⟨1400000000, 250000⟩ ↔
      CutsToPositive (single ⟨1400000005, 0⟩).queue ⟨1400000000, 250000⟩ := by
  refine dispatchesOnTime_iff ⟨_, single_valid _⟩ _ (by decide) ?_
  intro e member
  change e ∈ queued (single ⟨1400000005, 0⟩).queue at member
  rw [single_queued, Multiset.mem_singleton] at member
  subst member
  decide

/-- An event scheduled forty minutes ahead is dispatched at once. -/
theorem forty_minutes_dispatched_at_once :
    timerGetNextEvent (single ⟨1400002400, 0⟩).queue ⟨1400000000, 0⟩ ≤ 0 ∧
      ¬DispatchesOnTime (single ⟨1400002400, 0⟩) ⟨1400000000, 0⟩ := by
  have root := single_root ⟨1400002400, 0⟩
  have occupied : ¬(single ⟨1400002400, 0⟩).queue.size < 1 := by
    rw [single, wcEventAdd_size]
    omega
  have cut : int32 (((single ⟨1400002400, 0⟩).queue.array 1).key.micros -
      (⟨1400000000, 0⟩ : Timeval).micros) ≤ 0 := by
    rw [root]
    decide
  have ahead : (⟨1400000000, 0⟩ : Timeval) < ((single ⟨1400002400, 0⟩).queue.array 1).key := by
    rw [root]
    decide
  have normal : ((single ⟨1400002400, 0⟩).queue.array 1).key.Normalized := by
    rw [root]
    decide
  refine ⟨?_, not_dispatchesOnTime_of_cut occupied (by decide) normal ahead cut⟩
  rw [timerGetNextEvent_future occupied (by decide) normal (not_lt.mpr ahead.le)]
  exact cut

end Oflops.Timer.EventLoop
