import Oflops.Timer.Checked
import Oflops.Timer.EventLoop

/-! How long `event_loop` sleeps: the deadline that it passes to `pthread_cond_timedwait`. -/

namespace Oflops.Timer.Deadline
open Time Lib.BinaryHeap Lib.MachineInt Queue Refinement EventLoop Checked

variable {F A : Type}

/-- The deadline for a reading of the clock and the answer of `timer_get_next_event`. The loop
breaks every second to check `end_event`. -/
def deadline (ts : Timespec) (nextEvent : Int) : Timespec :=
  if nextEvent.tdiv 1000000 > 0 then { ts with tvSec := ts.tvSec + 1 }
  else
    let tvSec := ts.tvSec + nextEvent.tdiv 1000000
    let tvNsec := ts.tvNsec + nextEvent.tmod 1000000 * 1000
    if tvNsec ≥ 1000000000 then ⟨tvSec + 1, tvNsec - 1000000000⟩ else ⟨tvSec, tvNsec⟩

def Normal (ts : Timespec) : Prop := 0 ≤ ts.tvNsec ∧ ts.tvNsec < 1000000000

instance (ts : Timespec) : Decidable (Normal ts) := inferInstanceAs (Decidable (_ ∧ _))

/-- `d` microseconds lie between a reading of the clock and the earliest key, or a second if the
queue is empty. -/
def Distance (pq : WcQueue F A) (now : Timeval) (d : Int) : Prop :=
  queued pq = 0 ∧ d = 1000000 ∨
    ∃ e ∈ queued pq, (∀ other ∈ queued pq, e.key ≤ other.key) ∧ d = e.key.micros - now.micros

theorem deadline_spec {ts : Timespec} (normal : Normal ts) {nextEvent : Int}
    (positive : 0 < nextEvent) :
    Normal (deadline ts nextEvent) ∧
      (deadline ts nextEvent).nanos = ts.nanos + 1000 * min 1000000 nextEvent := by
  have quotient := Int.tdiv_eq_ediv_of_nonneg (b := 1000000) positive.le
  have remainder := Int.tmod_eq_emod_of_nonneg (b := 1000000) positive.le
  unfold Normal at normal ⊢
  unfold deadline Timespec.nanos
  rw [quotient, remainder]
  split_ifs with whole
  · dsimp only
    omega
  · dsimp only
    split_ifs with carry
    · dsimp only
      omega
    · dsimp only
      omega

theorem timerGetNextEvent_passed {pq : WcQueue F A} {now : Timeval} (occupied : ¬pq.size < 1)
    (passed : (pq.array 1).key < now) : timerGetNextEvent pq now = -1 := by
  have code : wcGetNextEventDelta pq now = (1, none) := by
    unfold wcGetNextEventDelta wcQueueIsempty
    rw [decide_eq_false occupied, if_neg Bool.false_ne_true, if_pos ((timercmp_gt _ _).mpr passed)]
  unfold timerGetNextEvent
  rw [code]
  rfl

theorem next_le_root {pq : WcQueue F A} {now : Timeval} (occupied : ¬pq.size < 1)
    (normalKey : (pq.array 1).key.Normalized) (normalNow : now.Normalized)
    (waits : 0 < timerGetNextEvent pq now) :
    timerGetNextEvent pq now ≤ (pq.array 1).key.micros - now.micros := by
  -- the cut to 32 bits can only shorten the wait for an event still to come
  have future : ¬(pq.array 1).key < now := by
    intro passed
    rw [timerGetNextEvent_passed occupied passed] at waits
    omega
  rw [timerGetNextEvent_future occupied normalNow normalKey future] at waits ⊢
  rw [Timeval.lt_iff_micros_lt normalKey normalNow] at future
  have apart : (pq.array 1).key.micros - now.micros ≠ 0 := by
    intro same
    rw [same] at waits
    exact absurd waits (by decide)
  exact int32_le (by omega)

theorem next_le_distance {pq : WcQueue F A} (heap : Heap pq)
    (keys : ∀ e ∈ queued pq, e.key.Normalized) {now : Timeval} (normal : now.Normalized)
    (waits : 0 < timerGetNextEvent pq now) {d : Int} (distance : Distance pq now d) :
    timerGetNextEvent pq now ≤ d := by
  by_cases empty : pq.size < 1
  · rcases distance with ⟨-, second⟩ | ⟨e, member, -⟩
    · rw [timerGetNextEvent_empty empty, second]
    · rw [queued_eq_zero empty] at member
      exact absurd member (Multiset.notMem_zero e)
  · have root := root_mem empty
    rcases distance with ⟨none', -⟩ | ⟨e, member, earliest, rfl⟩
    · rw [none'] at root
      exact absurd root (Multiset.notMem_zero _)
    · have same : e.key = (pq.array 1).key :=
        le_antisymm (earliest _ root) (root_minimal heap.ordered e member)
      rw [same]
      exact next_le_root empty (keys _ root) normal waits

/-- The deadline is normalized, later than the reading of the clock just before, and no later than
that reading plus a second or plus the distance to the earliest event. -/
theorem deadline_not_late {pq : WcQueue F A} (heap : Heap pq)
    (keys : ∀ e ∈ queued pq, e.key.Normalized) {now : Timeval} (normalNow : now.Normalized)
    {ts : Timespec} (normalTs : Normal ts) (waits : 0 < timerGetNextEvent pq now) {d : Int}
    (distance : Distance pq now d) :
    Normal (deadline ts (timerGetNextEvent pq now)) ∧
      ts.nanos < (deadline ts (timerGetNextEvent pq now)).nanos ∧
      (deadline ts (timerGetNextEvent pq now)).nanos ≤ ts.nanos + 1000 * min 1000000 d := by
  obtain ⟨normal, later⟩ := deadline_spec normalTs waits
  have bound := next_le_distance heap keys normalNow waits distance
  rw [later]
  exact ⟨normal, by omega, by omega⟩

/-- A queue with one event 1.5 s ahead: the loop breaks after a second. -/
theorem deadline_not_late_second :
    0 < timerGetNextEvent (single ⟨1400000001, 750000⟩).queue ⟨1400000000, 250000⟩ ∧
      Distance (single ⟨1400000001, 750000⟩).queue ⟨1400000000, 250000⟩ 1500000 ∧
      (deadline ⟨1400000000, 250000700⟩
        (timerGetNextEvent (single ⟨1400000001, 750000⟩).queue ⟨1400000000, 250000⟩)).nanos ≤
        (⟨1400000000, 250000700⟩ : Timespec).nanos + 1000 * min 1000000 1500000 := by
  have order := (single_valid ⟨1400000001, 750000⟩).ordered
  have capacity := (single_valid ⟨1400000001, 750000⟩).capacity
  have content := single_queued ⟨1400000001, 750000⟩
  have keys : ∀ e ∈ queued (single ⟨1400000001, 750000⟩).queue, e.key.Normalized := by
    intro e member
    rw [content, Multiset.mem_singleton] at member
    subst member
    decide
  have distance : Distance (single ⟨1400000001, 750000⟩).queue ⟨1400000000, 250000⟩ 1500000 := by
    refine Or.inr ⟨_, by rw [content]; exact Multiset.mem_singleton_self _, ?_, by decide⟩
    intro other member
    rw [content, Multiset.mem_singleton] at member
    subst member
    exact le_rfl
  have occupied : ¬(single ⟨1400000001, 750000⟩).queue.size < 1 := by
    rw [single, wcEventAdd_size]
    omega
  have waits : 0 < timerGetNextEvent (single ⟨1400000001, 750000⟩).queue ⟨1400000000, 250000⟩ := by
    have root := single_root ⟨1400000001, 750000⟩
    rw [timerGetNextEvent_future occupied (by decide) (by rw [root]; decide)
      (by rw [root]; decide), root]
    decide
  exact ⟨waits, distance,
    (deadline_not_late ⟨order, capacity⟩ keys (by decide) (by decide) waits distance).2.2⟩

end Oflops.Timer.Deadline
