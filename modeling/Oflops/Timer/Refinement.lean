import Oflops.Timer.Queue

/-! The heap of `wc_event.c` refines the finite map of `TimerMap`: every sequence of
adds, removes and extractions answers as the map does, and leaves the same entries. -/

namespace Oflops.Timer.Refinement
open Time Lib.MachineInt Lib.BinaryHeap TimerMap Queue

variable {F A : Type}

def queued (pq : WcQueue F A) : Multiset (Qelm F A) := contents pq.array pq.size

structure Valid (st : WcState F A) : Prop where
  capacity : st.queue.size < st.queue.length
  ordered : Ordered Qelm.key st.queue.array st.queue.size
  stamped : ∀ e ∈ queued st.queue, e.data.eventtime = e.key
  distinct : ((queued st.queue).map Qelm.id).Nodup
  issued : ∀ e ∈ queued st.queue, e.id < st.wcEventId
  counting : 0 ≤ st.wcEventId

/-- A state of the timer queue that the program can be in. -/
structure TimerQueue (F A : Type) where
  state : WcState F A
  valid : Valid state

def toPair (e : Qelm F A) : Sigma (fun _ : Int => Entry F A) :=
  ⟨e.id, ⟨e.key, e.data.func, e.data.arg⟩⟩

theorem nodupKeys_map_toPair {s : Multiset (Qelm F A)} (distinct : (s.map Qelm.id).Nodup) :
    (s.map toPair).NodupKeys := by
  rw [← Multiset.nodup_keys, Multiset.keys, Multiset.map_map]
  exact distinct

/-- The map a queue stands for: one binding for each occupied slot. -/
def TimerQueue.toMap (q : TimerQueue F A) : EventMap F A :=
  ⟨(queued q.state.queue).map toPair, nodupKeys_map_toPair q.valid.distinct⟩

theorem TimerQueue.mem_toMap (q : TimerQueue F A) (id : Int) :
    id ∈ q.toMap ↔ ∃ e ∈ queued q.state.queue, e.id = id := by
  rw [Finmap.mem_def, TimerQueue.toMap, Multiset.keys, Multiset.map_map, Multiset.mem_map]
  rfl

theorem toMap_of_add (q q' : TimerQueue F A) (e : Qelm F A) (fresh : e.id ∉ q.toMap)
    (grown : queued q'.state.queue = queued q.state.queue + {e}) :
    q'.toMap = q.toMap.insert e.id ⟨e.key, e.data.func, e.data.arg⟩ := by
  apply Finmap.ext
  rw [Finmap.entries_insert_of_notMem fresh]
  change (queued q'.state.queue).map toPair = toPair e ::ₘ (queued q.state.queue).map toPair
  rw [grown, Multiset.map_add, Multiset.map_singleton, add_comm, Multiset.singleton_add]

theorem toMap_of_take (q q' : TimerQueue F A) {e : Qelm F A}
    (shrunk : queued q'.state.queue + {e} = queued q.state.queue) :
    q.toMap.lookup e.id = some ⟨e.key, e.data.func, e.data.arg⟩ ∧
      q'.toMap = q.toMap.erase e.id := by
  have absent : e.id ∉ q'.toMap := by
    rw [TimerQueue.mem_toMap]
    rintro ⟨other, member, same⟩
    have distinct := q.valid.distinct
    rw [← shrunk, Multiset.map_add, Multiset.map_singleton, Multiset.nodup_add] at distinct
    exact Multiset.disjoint_left.mp distinct.2.2 (Multiset.mem_map.mpr ⟨other, member, same⟩)
      (Multiset.mem_singleton_self _)
  have back := toMap_of_add q' q e absent shrunk.symm
  rw [back]
  exact ⟨Finmap.lookup_insert _, (erase_insert _ absent).symm⟩

theorem TimerQueue.lookup_toMap {q : TimerQueue F A} {id : Int} {entry : Entry F A}
    (found : q.toMap.lookup id = some entry) :
    ∃ e ∈ queued q.state.queue, e.id = id ∧ e.key = entry.key := by
  obtain ⟨e, member, same⟩ := Multiset.mem_map.mp (Finmap.lookup_eq_some_iff.mp found)
  cases same
  exact ⟨e, member, rfl, rfl⟩

def taken (pq : WcQueue F A) (i : Nat) : WcQueue F A :=
  { pq with
    array := repair Qelm.key (pq.size - 1) (Function.update pq.array i (pq.array pq.size)) i
    size := pq.size - 1 }

theorem taken_queued (pq : WcQueue F A) {i : Nat} (low : 1 ≤ i) (high : i ≤ pq.size) :
    queued (taken pq i) + {pq.array i} = queued pq := by
  unfold queued taken
  rw [repair_contents _ _ _ _ low, contents_fill low high]

theorem taken_ordered {pq : WcQueue F A} {i : Nat} (low : 1 ≤ i)
    (order : Ordered Qelm.key pq.array pq.size) :
    Ordered Qelm.key (taken pq i).array (taken pq i).size :=
  repair_ordered _ _ _ _ low (order.vacant (pq.array pq.size) (pq.size - 1) (by omega))

theorem wcEventAdd_nextId (st : WcState F A) (func : F) (arg : A) (key : Timeval) :
    (wcEventAdd st func arg key).2.wcEventId = int32 (st.wcEventId + 1) := rfl

theorem wcEventAdd_size (st : WcState F A) (func : F) (arg : A) (key : Timeval) :
    (wcEventAdd st func arg key).2.queue.size = st.queue.size + 1 := by
  unfold wcEventAdd
  dsimp only
  split_ifs <;> rfl

theorem wcEventAdd_length (st : WcState F A) (func : F) (arg : A) (key : Timeval) :
    (wcEventAdd st func arg key).2.queue.length =
      if st.queue.size + 1 ≥ st.queue.length then st.queue.length * 2 else st.queue.length := by
  unfold wcEventAdd
  dsimp only
  split_ifs <;> rfl

/-- The array grows only to twice the number of events it holds: no `int` of the queue
overflows while fewer than 2^30 events are queued. -/
theorem wcEventAdd_length_le (st : WcState F A) (func : F) (arg : A) (key : Timeval) :
    (wcEventAdd st func arg key).2.queue.length ≤
      max st.queue.length (2 * (wcEventAdd st func arg key).2.queue.size) := by
  rw [wcEventAdd_size, wcEventAdd_length]
  split_ifs <;> omega

def newElement (st : WcState F A) (func : F) (arg : A) (key : Timeval) : Qelm F A :=
  { id := st.wcEventId, key := key, data := { eventtime := key, func := func, arg := arg } }

theorem wcEventAdd_array (st : WcState F A) (func : F) (arg : A) (key : Timeval) :
    (wcEventAdd st func arg key).2.queue.array =
      siftUp Qelm.key st.queue.array (st.queue.size + 1) (newElement st func arg key) := by
  rw [← shiftParents_eq_siftUp]
  unfold wcEventAdd
  dsimp only
  split_ifs <;> rfl

theorem wcEventAdd_queued (st : WcState F A) (func : F) (arg : A) (key : Timeval) :
    queued (wcEventAdd st func arg key).2.queue =
      queued st.queue + {newElement st func arg key} := by
  unfold queued
  rw [wcEventAdd_size, wcEventAdd_array, siftUp_contents _ _ _ _ _ (by omega) le_rfl,
    contents_succ, Function.update_self]
  congr 1
  apply contents_congr
  intro i _ high
  rw [Function.update_of_ne (by omega)]

theorem wcEventAdd_ordered {st : WcState F A} (func : F) (arg : A) (key : Timeval)
    (order : Ordered Qelm.key st.queue.array st.queue.size) :
    Ordered Qelm.key (wcEventAdd st func arg key).2.queue.array
      (wcEventAdd st func arg key).2.queue.size := by
  rw [wcEventAdd_size, wcEventAdd_array]
  apply siftUp_ordered _ _ _ _ _ le_rfl
  constructor
  · intro c low high notLast
    rw [Function.update_of_ne (by omega), Function.update_of_ne (by omega)]
    exact order c low (by omega)
  · intro _ c high child
    omega

theorem wcEventAdd_valid {st : WcState F A} (valid : Valid st) (func : F) (arg : A)
    (key : Timeval) (noWrap : st.wcEventId + 1 < 2 ^ 31) :
    Valid (wcEventAdd st func arg key).2 := by
  have next : (wcEventAdd st func arg key).2.wcEventId = st.wcEventId + 1 := by
    have counting := valid.counting
    rw [wcEventAdd_nextId, int32_of_range (by omega) noWrap]
  constructor
  · have capacity := valid.capacity
    rw [wcEventAdd_size, wcEventAdd_length]
    split_ifs <;> omega
  · exact wcEventAdd_ordered func arg key valid.ordered
  · intro e member
    rw [wcEventAdd_queued, Multiset.mem_add, Multiset.mem_singleton] at member
    rcases member with old | new
    · exact valid.stamped e old
    · subst new
      rfl
  · rw [wcEventAdd_queued, Multiset.map_add, Multiset.map_singleton, Multiset.nodup_add]
    refine ⟨valid.distinct, Multiset.nodup_singleton _, ?_⟩
    rw [Multiset.disjoint_singleton]
    intro known
    obtain ⟨e, member, same⟩ := Multiset.mem_map.mp known
    have older := valid.issued e member
    rw [same] at older
    exact lt_irrefl _ older
  · intro e member
    rw [next]
    rw [wcEventAdd_queued, Multiset.mem_add, Multiset.mem_singleton] at member
    rcases member with old | new
    · have older := valid.issued e old
      omega
    · subst new
      change st.wcEventId < st.wcEventId + 1
      omega
  · have counting := valid.counting
    rw [next]
    omega

theorem taken_valid {st : WcState F A} (valid : Valid st) {i : Nat} (low : 1 ≤ i)
    (high : i ≤ st.queue.size) : Valid { st with queue := taken st.queue i } := by
  have capacity := valid.capacity
  have shrunk := taken_queued st.queue low high
  have subset : ∀ e ∈ queued (taken st.queue i), e ∈ queued st.queue := by
    intro e member
    rw [← shrunk]
    exact Multiset.mem_add.mpr (Or.inl member)
  have distinct := valid.distinct
  rw [← shrunk, Multiset.map_add, Multiset.nodup_add] at distinct
  refine ⟨?_, taken_ordered low valid.ordered, fun e member => valid.stamped e (subset e member),
    distinct.1, fun e member => valid.issued e (subset e member), valid.counting⟩
  change st.queue.size - 1 < st.queue.length
  omega

theorem wcQueueExtract_empty {pq : WcQueue F A} (empty : pq.size < 1) :
    wcQueueExtract pq = (-1, none, pq) := by
  unfold wcQueueExtract
  rw [if_pos empty]

theorem wcQueueExtract_root {pq : WcQueue F A} (occupied : ¬pq.size < 1) :
    wcQueueExtract pq = (0, some ((pq.array 1).id, (pq.array 1).key, (pq.array 1).data.func,
      (pq.array 1).data.arg), taken pq 1) := by
  unfold wcQueueExtract taken
  rw [if_neg occupied]
  dsimp only
  rw [heapify_eq_siftDown, repair, if_neg (by decide)]

theorem wcEventRemove_missing {pq : WcQueue F A} {id : Int}
    (absent : ∀ i, 1 ≤ i → i ≤ pq.size → (pq.array i).id ≠ id) :
    wcEventRemove pq id = (-1, none, pq) := by
  unfold wcEventRemove
  rcases findSlot_spec pq.array id 1 pq.size with ⟨stop, -⟩ | ⟨low, high, found⟩
  · rw [stop, if_pos (by omega)]
  · exact absurd found (absent _ low (by omega))

theorem wcEventRemove_found {pq : WcQueue F A} {id : Int} {j : Nat} (low : 1 ≤ j)
    (high : j ≤ pq.size) (there : (pq.array j).id = id) :
    ∃ i, 1 ≤ i ∧ i ≤ pq.size ∧ (pq.array i).id = id ∧
      wcEventRemove pq id =
        (0, some ((pq.array i).data.func, (pq.array i).data.arg), taken pq i) := by
  unfold wcEventRemove taken
  rcases findSlot_spec pq.array id 1 pq.size with ⟨-, absent⟩ | ⟨low', high', found⟩
  · exact absurd there (absent j low (by omega))
  · refine ⟨_, low', by omega, found, ?_⟩
    rw [if_neg (by omega)]
    dsimp only
    rw [repairUp_eq_repair]

def isAdd : Op F A → Bool
  | .add _ _ _ => true
  | _ => false

def adds (ops : List (Op F A)) : Nat := ops.countP isAdd

theorem add_refines (q : TimerQueue F A) (func : F) (arg : A) (key : Timeval)
    (noWrap : q.state.wcEventId + 1 < 2 ^ 31) :
    ∃ q' : TimerQueue F A, (step q.state (.add func arg key)).2 = q'.state ∧
      MapStep q.toMap (.add func arg key) (step q.state (.add func arg key)).1 q'.toMap := by
  have fresh : q.state.wcEventId ∉ q.toMap := by
    rw [q.mem_toMap]
    rintro ⟨e, member, same⟩
    have older := q.valid.issued e member
    omega
  let q' : TimerQueue F A := ⟨_, wcEventAdd_valid q.valid func arg key noWrap⟩
  have grown : q'.toMap = q.toMap.insert q.state.wcEventId ⟨key, func, arg⟩ :=
    toMap_of_add q q' (newElement q.state func arg key) fresh
      (wcEventAdd_queued q.state func arg key)
  refine ⟨q', rfl, ?_⟩
  rw [grown]
  exact MapStep.add q.toMap func arg key q.state.wcEventId fresh

theorem remove_refines (q : TimerQueue F A) (id : Int) :
    ∃ q' : TimerQueue F A, (step q.state (.remove id)).2 = q'.state ∧
      MapStep q.toMap (.remove id) (step q.state (.remove id)).1 q'.toMap := by
  by_cases known : id ∈ q.toMap
  · obtain ⟨e, member, same⟩ := (q.mem_toMap id).mp known
    obtain ⟨j, lowj, highj, there⟩ := mem_contents.mp member
    obtain ⟨i, low, high, found, result⟩ := wcEventRemove_found lowj highj (there ▸ same)
    let q' : TimerQueue F A := ⟨_, taken_valid q.valid low high⟩
    obtain ⟨binding, erased⟩ := toMap_of_take q q' (taken_queued q.state.queue low high)
    rw [found] at binding erased
    refine ⟨q', by simp only [step, result]; rfl, ?_⟩
    simp only [step, result]
    rw [erased]
    exact MapStep.remove q.toMap id _ binding
  · have absent : ∀ i, 1 ≤ i → i ≤ q.state.queue.size → (q.state.queue.array i).id ≠ id := by
      intro i low high same
      exact known ((q.mem_toMap id).mpr ⟨_, mem_contents.mpr ⟨i, low, high, rfl⟩, same⟩)
    refine ⟨q, by simp only [step, wcEventRemove_missing absent], ?_⟩
    simp only [step, wcEventRemove_missing absent]
    exact MapStep.removeMissing q.toMap id known

theorem extract_refines (q : TimerQueue F A) :
    ∃ q' : TimerQueue F A, (step q.state .extract).2 = q'.state ∧
      MapStep q.toMap .extract (step q.state .extract).1 q'.toMap := by
  by_cases empty : q.state.queue.size < 1
  · have none : q.toMap = ∅ := by
      apply Finmap.ext
      change (queued q.state.queue).map toPair = 0
      have zero : q.state.queue.size = 0 := by omega
      rw [queued, zero, contents_zero, Multiset.map_zero]
    refine ⟨q, by simp only [step, wcQueueExtract_empty empty], ?_⟩
    simp only [step, wcQueueExtract_empty empty]
    rw [none]
    exact MapStep.extractEmpty
  · let q' : TimerQueue F A := ⟨_, taken_valid q.valid le_rfl (not_lt.mp empty)⟩
    obtain ⟨binding, erased⟩ :=
      toMap_of_take q q' (taken_queued q.state.queue le_rfl (not_lt.mp empty))
    refine ⟨q', by simp only [step, wcQueueExtract_root empty]; rfl, ?_⟩
    simp only [step, wcQueueExtract_root empty]
    rw [erased]
    apply MapStep.extract q.toMap _ _ binding
    intro id' entry' found
    obtain ⟨e, member, -, same⟩ := TimerQueue.lookup_toMap found
    obtain ⟨i, low, high, there⟩ := mem_contents.mp member
    rw [← same, ← there]
    exact q.valid.ordered.root_le i low high

theorem step_nextId (st : WcState F A) (op : Op F A) :
    (step st op).2.wcEventId = if isAdd op then int32 (st.wcEventId + 1) else st.wcEventId := by
  cases op <;> rfl

theorem step_refines (q : TimerQueue F A) (op : Op F A)
    (noWrap : isAdd op → q.state.wcEventId + 1 < 2 ^ 31) :
    ∃ q' : TimerQueue F A, (step q.state op).2 = q'.state ∧
      MapStep q.toMap op (step q.state op).1 q'.toMap := by
  cases op with
  | add func arg key => exact add_refines q func arg key (noWrap rfl)
  | remove id => exact remove_refines q id
  | extract => exact extract_refines q

theorem run_refines (q : TimerQueue F A) (ops : List (Op F A))
    (few : q.state.wcEventId + adds ops < 2 ^ 31) :
    ∃ q' : TimerQueue F A, (run q.state ops).2 = q'.state ∧
      MapRun q.toMap ops (run q.state ops).1 q'.toMap := by
  induction ops generalizing q with
  | nil => exact ⟨q, rfl, MapRun.nil _⟩
  | cons op ops ih =>
    unfold adds at few ih
    rw [List.countP_cons] at few
    have counting := q.valid.counting
    obtain ⟨mid, reached, first⟩ :=
      step_refines q op (by intro isadd; rw [if_pos isadd] at few; omega)
    have nextId : mid.state.wcEventId + ops.countP isAdd < 2 ^ 31 := by
      rw [← reached, step_nextId]
      split_ifs with isadd
      · rw [if_pos isadd] at few
        rw [int32_of_range (by omega) (by omega)]
        omega
      · omega
    obtain ⟨last, final, rest⟩ := ih mid nextId
    refine ⟨last, ?_, ?_⟩
    · simp only [run, reached]
      exact final
    · simp only [run, reached]
      exact MapRun.cons first rest

/-- A fresh queue; the file's id counter may have advanced before. -/
def initial (initSize : Nat) (uninitialised : Nat → Qelm F A) (firstId : Int) : WcState F A :=
  { queue := wcQueueInit initSize uninitialised, wcEventId := firstId }

theorem initial_valid (initSize : Nat) (positive : 1 ≤ initSize)
    (uninitialised : Nat → Qelm F A) (firstId : Int) (counting : 0 ≤ firstId) :
    Valid (initial initSize uninitialised firstId) where
  capacity := positive
  ordered := by
    intro c low high
    change c ≤ 0 at high
    omega
  stamped := by simp [queued, initial, wcQueueInit, contents_zero]
  distinct := by simp [queued, initial, wcQueueInit, contents_zero]
  issued := by simp [queued, initial, wcQueueInit, contents_zero]
  counting := counting

/-- Every run of the timer queue from `wc_queue_init` answers call by call as the finite
map from ids to entries does, starting from the empty map, and ends in the map's entries. -/
theorem timer_queue_refines_map (initSize : Nat) (positive : 1 ≤ initSize)
    (uninitialised : Nat → Qelm F A) (firstId : Int) (counting : 0 ≤ firstId)
    (ops : List (Op F A)) (few : firstId + adds ops < 2 ^ 31) :
    ∃ q : TimerQueue F A, (run (initial initSize uninitialised firstId) ops).2 = q.state ∧
      MapRun ∅ ops (run (initial initSize uninitialised firstId) ops).1 q.toMap := by
  let start : TimerQueue F A := ⟨_, initial_valid initSize positive uninitialised firstId counting⟩
  have empty : start.toMap = ∅ := by
    apply Finmap.ext
    change (contents uninitialised 0).map toPair = 0
    rw [contents_zero, Multiset.map_zero]
  rw [← empty]
  exact run_refines start ops few

def junk : Nat → Qelm Nat Nat := fun _ => ⟨-1, ⟨0, 0⟩, ⟨⟨0, 0⟩, 0, 0⟩⟩

theorem timer_queue_refines_map_small :
    let ops : List (Op Nat Nat) :=
      [.add 7 70 ⟨5, 0⟩, .add 8 80 ⟨3, 0⟩, .remove 0, .remove 9, .extract, .extract]
    ∃ q : TimerQueue Nat Nat, (run (initial 1 junk 0) ops).2 = q.state ∧
      MapRun ∅ ops (run (initial 1 junk 0) ops).1 q.toMap := by
  intro ops
  exact timer_queue_refines_map 1 (by decide) junk 0 (by decide) ops (by decide)

end Oflops.Timer.Refinement
