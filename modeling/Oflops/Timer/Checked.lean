import Oflops.Lib.Loop
import Oflops.Timer.Refinement

/-! The timer queue of `wc_event.c` with every access to its array checked, and with its loops run
on fuel. No access leaves the slots 1..length-1, no loop runs out, and the heap that
`verify_heap` asks for is there after every operation. -/

namespace Oflops.Timer.Checked
open Time Lib.BinaryHeap Lib.Loop Lib.MachineInt TimerMap Queue Refinement

variable {F A : Type}

/-- `pq->array[i]`, read. -/
def slot (pq : WcQueue F A) (i : Nat) : Option (Qelm F A) :=
  if 1 ≤ i ∧ i < pq.length then some (pq.array i) else none

/-- `pq->array[i]`, written. -/
def setSlot (pq : WcQueue F A) (i : Nat) (e : Qelm F A) : Option (WcQueue F A) :=
  if 1 ≤ i ∧ i < pq.length then some { pq with array := Function.update pq.array i e } else none

/-- The two tests of `heapify`: there is such a child, and it is earlier. -/
def childEarlier (pq : WcQueue F A) (child i : Nat) : Option Bool :=
  if child ≤ pq.size then do
    let c ← slot pq child
    let e ← slot pq i
    some (timercmp c.key e.key lt)
  else some false

def heapifyBody (state : WcQueue F A × Nat) : Option (Iter (WcQueue F A × Nat) (WcQueue F A)) := do
  let (pq, i) := state
  let earlier ← childEarlier pq (left i) i
  let largest := if earlier then left i else i
  let earlier ← childEarlier pq (right i) largest
  let largest := if earlier then right i else largest
  if largest ≠ i then do
    let tmp ← slot pq i
    let e ← slot pq largest
    let pq ← setSlot pq i e
    let pq ← setSlot pq largest tmp
    some (.again (pq, largest))
  else some (.leave pq)

def heapify (pq : WcQueue F A) (i : Nat) : Option (WcQueue F A) :=
  loop heapifyBody (pq.size + 1) (pq, i)

def shiftBody (key : Timeval) (state : WcQueue F A × Nat) :
    Option (Iter (WcQueue F A × Nat) (WcQueue F A × Nat)) := do
  let (pq, i) := state
  if i > 1 then do
    let e ← slot pq (parent i)
    if timercmp e.key key gt then do
      let pq ← setSlot pq i e
      some (.again (pq, parent i))
    else some (.leave (pq, i))
  else some (.leave (pq, i))

def wcEventAdd (st : WcState F A) (func : F) (arg : A) (key : Timeval) :
    Option (Int × WcState F A) := do
  let pq := if st.queue.size + 1 ≥ st.queue.length then wcQueueDouble st.queue else st.queue
  let pq := { pq with size := pq.size + 1 }
  let (pq, i) ← loop (shiftBody key) (pq.size + 1) (pq, pq.size)
  let pq ← setSlot pq i { id := st.wcEventId, key := key, data := ⟨key, func, arg⟩ }
  some (st.wcEventId, { queue := pq, wcEventId := int32 (st.wcEventId + 1) })

def wcQueueExtract (pq : WcQueue F A) :
    Option (Int × Option (Int × Timeval × F × A) × WcQueue F A) :=
  if pq.size < 1 then some (-1, none, pq)
  else do
    let top ← slot pq 1
    let last ← slot pq pq.size
    let pq ← setSlot pq 1 last
    let pq ← heapify { pq with size := pq.size - 1 } 1
    some (0, some (top.id, top.key, top.data.func, top.data.arg), pq)

def findSlot (pq : WcQueue F A) (id : Int) (i : Nat) : Nat → Option Nat
  | 0 => some i
  | fuel + 1 => do
    let e ← slot pq i
    if e.id = id then some i else findSlot pq id (i + 1) fuel

def repairBody (state : WcQueue F A × Nat) : Option (Iter (WcQueue F A × Nat) (WcQueue F A)) := do
  let (pq, i) := state
  let pq ← heapify pq i
  if parent i > 0 then some (.again (pq, parent i)) else some (.leave pq)

def wcEventRemove (pq : WcQueue F A) (id : Int) : Option (Int × Option (F × A) × WcQueue F A) := do
  let i ← findSlot pq id 1 pq.size
  if i > pq.size then some (-1, none, pq)
  else do
    let e ← slot pq i
    let last ← slot pq pq.size
    let pq ← setSlot pq i last
    let pq ← loop repairBody (i + 1) ({ pq with size := pq.size - 1 }, i)
    some (0, some (e.data.func, e.data.arg), pq)

def step (st : WcState F A) : Op F A → Option (Reply F A × WcState F A)
  | .add func arg key => do
    let (id, st) ← wcEventAdd st func arg key
    some (.add id, st)
  | .remove id => do
    let (ret, out, pq) ← wcEventRemove st.queue id
    some (.remove ret out, { st with queue := pq })
  | .extract => do
    let (ret, out, pq) ← wcQueueExtract st.queue
    some (.extract ret out, { st with queue := pq })

def run (st : WcState F A) : List (Op F A) → Option (List (Reply F A) × WcState F A)
  | [] => some ([], st)
  | op :: ops => do
    let (reply, st) ← step st op
    let (replies, st) ← run st ops
    some (reply :: replies, st)

def verifyHeap (pq : WcQueue F A) : Bool :=
  (List.range' 1 pq.size).all fun i =>
    (!decide (left i ≤ pq.size) || timercmp (pq.array (left i)).key (pq.array i).key ge) &&
      (!decide (right i ≤ pq.size) || timercmp (pq.array (right i)).key (pq.array i).key ge)

/-- A timer queue between two operations. -/
structure Heap (pq : WcQueue F A) : Prop where
  ordered : ∀ i, 2 ≤ i → i ≤ pq.size → (pq.array (i / 2)).key ≤ (pq.array i).key
  capacity : pq.size < pq.length

/-! The checks never strike. -/

section Access

variable {pq : WcQueue F A} {i : Nat}

theorem slot_inside (low : 1 ≤ i) (high : i < pq.length) : slot pq i = some (pq.array i) :=
  if_pos ⟨low, high⟩

theorem setSlot_inside (low : 1 ≤ i) (high : i < pq.length) (e : Qelm F A) :
    setSlot pq i e = some { pq with array := Function.update pq.array i e } :=
  if_pos ⟨low, high⟩

theorem childEarlier_inside (capacity : pq.size < pq.length) {child : Nat} (some' : 1 ≤ child)
    (low : 1 ≤ i) (high : i < pq.length) :
    childEarlier pq child i =
      some (decide (child ≤ pq.size) && timercmp (pq.array child).key (pq.array i).key lt) := by
  unfold childEarlier
  split_ifs with there
  · rw [slot_inside some' (by omega), slot_inside low high, decide_eq_true there]
    rfl
  · rw [decide_eq_false there]
    rfl

theorem heapifyBody_eq (capacity : pq.size < pq.length) (low : 1 ≤ i) (high : i < pq.length) :
    heapifyBody (pq, i) =
      if largest pq i ≠ i then
        some (.again ({ pq with array := swapAt pq.array i (largest pq i) }, largest pq i))
      else some (.leave pq) := by
  have first : 1 ≤ left i ∧ 1 ≤ right i := by
    unfold left right
    rw [Nat.shiftLeft_eq]
    omega
  unfold heapifyBody
  dsimp only
  rw [childEarlier_inside capacity first.1 low high, Option.bind_eq_bind, Option.bind_some]
  have least' : ∃ m, m = (if (decide (left i ≤ pq.size) &&
      timercmp (pq.array (left i)).key (pq.array i).key lt) = true then left i else i) ∧
      1 ≤ m ∧ m < pq.length := by
    refine ⟨_, rfl, ?_⟩
    split_ifs with taken
    · rw [Bool.and_eq_true, decide_eq_true_eq] at taken
      exact ⟨first.1, by omega⟩
    · exact ⟨low, high⟩
  obtain ⟨m, same, lowM, highM⟩ := least'
  rw [← same, childEarlier_inside capacity first.2 lowM highM, Option.bind_some]
  have final : largest pq i = if (decide (right i ≤ pq.size) &&
      timercmp (pq.array (right i)).key (pq.array m).key lt) = true then right i else m := by
    rw [same]
    unfold largest
    simp only [Bool.and_eq_true, decide_eq_true_eq]
  rw [← final]
  split_ifs with moved
  · have moves := least_moves (by rwa [largest_eq_least] at moved)
    rw [← largest_eq_least] at moves
    have inside : 1 ≤ largest pq i ∧ largest pq i < pq.length := by omega
    rw [slot_inside low high, Option.bind_eq_bind, Option.bind_some, slot_inside inside.1 inside.2,
      Option.bind_eq_bind, Option.bind_some, setSlot_inside low high, Option.bind_some,
      setSlot_inside inside.1 (by exact inside.2)]
    rfl
  · rfl

theorem loop_heapify (capacity : pq.size < pq.length) (low : 1 ≤ i) (high : i < pq.length)
    {fuel : Nat} (enough : pq.size - i < fuel) :
    loop heapifyBody fuel (pq, i) = some (Queue.heapify pq i) := by
  -- the slot moves down the heap, so `pq.size - i` bounds the turns
  fun_induction Queue.heapify pq i generalizing fuel with
  | case1 pq i moved ih =>
    obtain ⟨fuel, rfl⟩ : ∃ less, fuel = less + 1 := ⟨fuel - 1, by omega⟩
    have moves := least_moves (by rwa [largest_eq_least] at moved)
    rw [← largest_eq_least] at moves
    have turn := heapifyBody_eq capacity low high
    rw [if_pos moved] at turn
    rw [loop_again turn]
    exact ih capacity (by omega) (by dsimp only; omega) (by dsimp only; omega)
  | case2 pq i stays =>
    obtain ⟨fuel, rfl⟩ : ∃ less, fuel = less + 1 := ⟨fuel - 1, by omega⟩
    have turn := heapifyBody_eq capacity low high
    rw [if_neg stays] at turn
    exact loop_leave turn fuel

theorem heapify_inside (capacity : pq.size < pq.length) (low : 1 ≤ i) (high : i < pq.length) :
    heapify pq i = some (Queue.heapify pq i) :=
  loop_heapify capacity low high (by omega)

theorem heapify_bounds (pq : WcQueue F A) (i : Nat) :
    (Queue.heapify pq i).size = pq.size ∧ (Queue.heapify pq i).length = pq.length := by
  rw [heapify_eq_siftDown]
  exact ⟨rfl, rfl⟩

theorem loop_shift (key : Timeval) (low : 1 ≤ i) (high : i < pq.length) {fuel : Nat}
    (enough : i ≤ fuel) :
    loop (shiftBody key) (fuel + 1) (pq, i) =
      some ({ pq with array := (shiftParents pq.array key i).1 },
        (shiftParents pq.array key i).2) := by
  -- the slot climbs to its parent, so `i` bounds the turns
  induction i using Nat.strongRecOn generalizing pq fuel with
  | ind i ih =>
    unfold shiftParents
    by_cases deep : 1 < i
    · have above : 1 ≤ parent i ∧ parent i < i := by
        unfold parent
        omega
      have read : slot pq (parent i) = some (pq.array (parent i)) := slot_inside above.1 (by omega)
      by_cases later : timercmp (pq.array (parent i)).key key gt = true
      · have turn : shiftBody key (pq, i) =
            some (.again ({ pq with
              array := Function.update pq.array i (pq.array (parent i)) }, parent i)) := by
          unfold shiftBody
          dsimp only
          rw [if_pos deep, read, Option.bind_eq_bind, Option.bind_some, if_pos later,
            setSlot_inside low high]
          rfl
        obtain ⟨less, rfl⟩ : ∃ less, fuel = less + 1 := ⟨fuel - 1, by omega⟩
        rw [if_pos ⟨deep, later⟩, loop_again turn]
        exact ih (parent i) above.2 above.1 (by dsimp only; omega) (by omega)
      · have turn : shiftBody key (pq, i) = some (.leave (pq, i)) := by
          unfold shiftBody
          dsimp only
          rw [if_pos deep, read, Option.bind_eq_bind, Option.bind_some, if_neg later]
        rw [if_neg (fun both => later both.2)]
        exact loop_leave turn fuel
    · have turn : shiftBody key (pq, i) = some (.leave (pq, i)) := by
        unfold shiftBody
        dsimp only
        rw [if_neg deep]
      rw [if_neg (fun both => deep both.1)]
      exact loop_leave turn fuel

theorem shiftParents_slot (array : Nat → Qelm F A) (key : Timeval) (low : 1 ≤ i) :
    1 ≤ (shiftParents array key i).2 ∧ (shiftParents array key i).2 ≤ i := by
  fun_induction shiftParents array key i with
  | case1 array i later ih =>
    unfold parent at ih ⊢
    have above := ih (by omega)
    omega
  | case2 array i stays => exact ⟨low, Nat.le_refl i⟩

theorem findSlot_inside (id : Int) (low : 1 ≤ i) {fuel : Nat} (high : i + fuel ≤ pq.length) :
    findSlot pq id i fuel = some (Queue.findSlot pq.array id i fuel) := by
  induction fuel generalizing i with
  | zero => rfl
  | succ fuel ih =>
    rw [findSlot, Queue.findSlot, slot_inside low (by omega), Option.bind_eq_bind, Option.bind_some,
      ih (by omega) (by omega)]
    split_ifs <;> rfl

theorem loop_repair (capacity : pq.size < pq.length) (low : 1 ≤ i) (high : i < pq.length)
    {fuel : Nat} (enough : i ≤ fuel) :
    loop repairBody (fuel + 1) (pq, i) = some (repairUp pq i) := by
  -- one turn for each ancestor, so `i` bounds them
  fun_induction repairUp pq i generalizing fuel with
  | case1 pq i climbs ih =>
    obtain ⟨size, length⟩ := heapify_bounds pq i
    have above : parent i < i := by
      unfold parent
      omega
    have turn : repairBody (pq, i) = some (.again (Queue.heapify pq i, parent i)) := by
      unfold repairBody
      dsimp only
      rw [heapify_inside capacity low high, Option.bind_eq_bind, Option.bind_some, if_pos climbs]
    obtain ⟨less, rfl⟩ : ∃ less, fuel = less + 1 := ⟨fuel - 1, by omega⟩
    rw [loop_again turn]
    exact ih (by omega) (by omega) (by omega) (by omega)
  | case2 pq i top =>
    have turn : repairBody (pq, i) = some (.leave (Queue.heapify pq i)) := by
      unfold repairBody
      dsimp only
      rw [heapify_inside capacity low high, Option.bind_eq_bind, Option.bind_some, if_neg top]
    exact loop_leave turn fuel

end Access

/-! The operations. -/

section Operations

variable {st : WcState F A} (capacity : st.queue.size < st.queue.length)
include capacity

theorem wcEventAdd_inside (func : F) (arg : A) (key : Timeval) :
    wcEventAdd st func arg key = some (Queue.wcEventAdd st func arg key) := by
  unfold wcEventAdd Queue.wcEventAdd
  dsimp only
  have room : (if st.queue.size + 1 ≥ st.queue.length then wcQueueDouble st.queue
      else st.queue).size + 1 <
      (if st.queue.size + 1 ≥ st.queue.length then wcQueueDouble st.queue
        else st.queue).length := by
    unfold wcQueueDouble
    split_ifs
    · dsimp only
      omega
    · omega
  generalize (if st.queue.size + 1 ≥ st.queue.length then wcQueueDouble st.queue else st.queue) = pq
    at room ⊢
  have place := shiftParents_slot pq.array key (show 1 ≤ pq.size + 1 by omega)
  have looped : loop (shiftBody key) (pq.size + 1 + 1) ({ pq with size := pq.size + 1 },
      pq.size + 1) = _ :=
    loop_shift key (by omega) (by exact room) (Nat.le_refl _)
  rw [looped, Option.bind_eq_bind, Option.bind_some]
  dsimp only
  rw [setSlot_inside place.1 (by dsimp only; omega)]
  rfl

theorem wcQueueExtract_inside : wcQueueExtract st.queue = some (Queue.wcQueueExtract st.queue) := by
  unfold wcQueueExtract Queue.wcQueueExtract
  split_ifs with empty
  · rfl
  · have one : 1 < st.queue.length := by omega
    rw [slot_inside (Nat.le_refl 1) one, Option.bind_eq_bind, Option.bind_some,
      slot_inside (by omega) capacity, Option.bind_eq_bind, Option.bind_some,
      setSlot_inside (Nat.le_refl 1) one, Option.bind_some]
    dsimp only
    rw [heapify_inside (by dsimp only; omega) (Nat.le_refl 1) (by exact one)]
    rfl

theorem wcEventRemove_inside (id : Int) :
    wcEventRemove st.queue id = some (Queue.wcEventRemove st.queue id) := by
  unfold wcEventRemove Queue.wcEventRemove
  rw [findSlot_inside id (Nat.le_refl 1) (by omega), Option.bind_eq_bind, Option.bind_some]
  dsimp only
  have found := findSlot_spec st.queue.array id 1 st.queue.size
  generalize Queue.findSlot st.queue.array id 1 st.queue.size = i at found ⊢
  split_ifs with missing
  · rfl
  · have low : 1 ≤ i := by omega
    have high : i < st.queue.length := by omega
    rw [slot_inside low high, Option.bind_eq_bind, Option.bind_some,
      slot_inside (by omega) capacity, Option.bind_eq_bind, Option.bind_some,
      setSlot_inside low high, Option.bind_some]
    dsimp only
    rw [loop_repair (by dsimp only; omega) low (by exact high) (Nat.le_refl i)]
    rfl

theorem step_inside (op : Op F A) : step st op = some (Queue.step st op) := by
  cases op with
  | add func arg key => rw [step, wcEventAdd_inside capacity]; rfl
  | remove id => rw [step, wcEventRemove_inside capacity]; rfl
  | extract => rw [step, wcQueueExtract_inside capacity]; rfl

end Operations

/-! The heap. -/

theorem initial_heap (initSize : Nat) (positive : 1 ≤ initSize) (uninitialised : Nat → Qelm F A)
    (firstId : Int) : Heap (initial initSize uninitialised firstId).queue where
  ordered := fun _ low high => absurd high (Nat.not_le.mpr (Nat.lt_of_lt_of_le Nat.two_pos low))
  capacity := positive

theorem taken_heap {pq : WcQueue F A} (heap : Heap pq) {i : Nat} (low : 1 ≤ i)
    (high : i ≤ pq.size) : Heap (taken pq i) := by
  have capacity := heap.capacity
  refine ⟨taken_ordered low heap.ordered, ?_⟩
  change pq.size - 1 < pq.length
  omega

theorem wcEventAdd_heap {st : WcState F A} (heap : Heap st.queue) (func : F) (arg : A)
    (key : Timeval) : Heap (Queue.wcEventAdd st func arg key).2.queue := by
  have capacity := heap.capacity
  refine ⟨wcEventAdd_ordered func arg key heap.ordered, ?_⟩
  rw [wcEventAdd_size, wcEventAdd_length]
  split_ifs <;> omega

theorem wcQueueExtract_heap {pq : WcQueue F A} (heap : Heap pq) :
    Heap (Queue.wcQueueExtract pq).2.2 := by
  by_cases empty : pq.size < 1
  · rw [wcQueueExtract_empty empty]
    exact heap
  · rw [wcQueueExtract_root empty]
    exact taken_heap heap (Nat.le_refl 1) (by omega)

theorem wcEventRemove_heap {pq : WcQueue F A} (heap : Heap pq) (id : Int) :
    Heap (Queue.wcEventRemove pq id).2.2 := by
  by_cases known : ∃ j, 1 ≤ j ∧ j ≤ pq.size ∧ (pq.array j).id = id
  · obtain ⟨j, low, high, there⟩ := known
    obtain ⟨i, low', high', -, removed⟩ := wcEventRemove_found low high there
    rw [removed]
    exact taken_heap heap low' high'
  · rw [wcEventRemove_missing fun i low high same => known ⟨i, low, high, same⟩]
    exact heap

theorem step_heap {st : WcState F A} (heap : Heap st.queue) (op : Op F A) :
    Heap (Queue.step st op).2.queue := by
  cases op with
  | add func arg key => exact wcEventAdd_heap heap func arg key
  | remove id => exact wcEventRemove_heap heap id
  | extract => exact wcQueueExtract_heap heap

theorem run_inside {st : WcState F A} (heap : Heap st.queue) (ops : List (Op F A)) :
    run st ops = some (Queue.run st ops) ∧ Heap (Queue.run st ops).2.queue := by
  induction ops generalizing st with
  | nil => exact ⟨rfl, heap⟩
  | cons op ops ih =>
    obtain ⟨passed, kept⟩ := ih (step_heap heap op)
    refine ⟨?_, kept⟩
    rw [run, step_inside heap.capacity op, Option.bind_eq_bind, Option.bind_some]
    change (run (Queue.step st op).2 ops).bind
      (fun out => some ((Queue.step st op).1 :: out.1, out.2)) = some (Queue.run st (op :: ops))
    rw [passed]
    rfl

theorem Heap.verified {pq : WcQueue F A} (heap : Heap pq) : verifyHeap pq = true := by
  have edge {i child : Nat} (low : 1 ≤ i) (below : child / 2 = i) :
      (!decide (child ≤ pq.size) || timercmp (pq.array child).key (pq.array i).key ge) = true := by
    by_cases there : child ≤ pq.size
    · have order := heap.ordered child (by omega) there
      rw [below] at order
      rw [(timercmp_ge _ _).mpr order, Bool.or_true]
    · rw [decide_eq_false there]
      rfl
  rw [verifyHeap, List.all_eq_true]
  intro i member
  have low : 1 ≤ i := (List.mem_range'_1.mp member).1
  rw [Bool.and_eq_true]
  constructor
  · apply edge low
    unfold left
    rw [Nat.shiftLeft_eq]
    omega
  · apply edge low
    unfold right
    rw [Nat.shiftLeft_eq]
    omega

theorem step_length_le (st : WcState F A) (op : Op F A) :
    (Queue.step st op).2.queue.size ≤ st.queue.size + (if isAdd op then 1 else 0) ∧
      (Queue.step st op).2.queue.length ≤
        max st.queue.length (2 * (st.queue.size + if isAdd op then 1 else 0)) := by
  cases op with
  | add func arg key =>
    have size := wcEventAdd_size st func arg key
    have length := wcEventAdd_length_le st func arg key
    change (Queue.wcEventAdd st func arg key).2.queue.size ≤ st.queue.size + 1 ∧
      (Queue.wcEventAdd st func arg key).2.queue.length ≤
        max st.queue.length (2 * (st.queue.size + 1))
    omega
  | remove id =>
    have fewer : (Queue.wcEventRemove st.queue id).2.2.size ≤ st.queue.size ∧
        (Queue.wcEventRemove st.queue id).2.2.length = st.queue.length := by
      unfold Queue.wcEventRemove
      dsimp only
      split_ifs
      · exact ⟨Nat.le_refl _, rfl⟩
      · rw [repairUp_eq_repair]
        exact ⟨Nat.sub_le _ _, rfl⟩
    change (Queue.wcEventRemove st.queue id).2.2.size ≤ _ ∧
      (Queue.wcEventRemove st.queue id).2.2.length ≤ _
    omega
  | extract =>
    have fewer : (Queue.wcQueueExtract st.queue).2.2.size ≤ st.queue.size ∧
        (Queue.wcQueueExtract st.queue).2.2.length = st.queue.length := by
      unfold Queue.wcQueueExtract
      split_ifs
      · exact ⟨Nat.le_refl _, rfl⟩
      · obtain ⟨size, length⟩ := heapify_bounds { st.queue with
          array := Function.update st.queue.array 1 (st.queue.array st.queue.size),
          size := st.queue.size - 1 } 1
        exact ⟨size.trans_le (Nat.sub_le _ _), length⟩
    change (Queue.wcQueueExtract st.queue).2.2.size ≤ _ ∧
      (Queue.wcQueueExtract st.queue).2.2.length ≤ _
    omega

theorem run_length_le (st : WcState F A) (ops : List (Op F A)) :
    (Queue.run st ops).2.queue.size ≤ st.queue.size + adds ops ∧
      (Queue.run st ops).2.queue.length ≤ max st.queue.length (2 * (st.queue.size + adds ops)) := by
  induction ops generalizing st with
  | nil =>
    change st.queue.size ≤ st.queue.size + 0 ∧ st.queue.length ≤ max st.queue.length _
    omega
  | cons op ops ih =>
    have later := ih (Queue.step st op).2
    have first := step_length_le st op
    have count : adds (op :: ops) = adds ops + if isAdd op then 1 else 0 := List.countP_cons
    change (Queue.run (Queue.step st op).2 ops).2.queue.size ≤ _ ∧
      (Queue.run (Queue.step st op).2 ops).2.queue.length ≤ _
    omega

/-- After any operations on a new queue: no access has left the array and every loop has ended, the
keys are in heap order, a slot is free, and `verify_heap` has nothing to object. -/
theorem timer_heap_invariant (initSize : Nat) (positive : 1 ≤ initSize)
    (uninitialised : Nat → Qelm F A) (firstId : Int) (ops : List (Op F A)) :
    ∃ replies st, run (initial initSize uninitialised firstId) ops = some (replies, st) ∧
      Queue.run (initial initSize uninitialised firstId) ops = (replies, st) ∧
      (∀ i, 2 ≤ i → i ≤ st.queue.size → (st.queue.array (i / 2)).key ≤ (st.queue.array i).key) ∧
      st.queue.size < st.queue.length ∧ verifyHeap st.queue = true := by
  obtain ⟨passed, heap⟩ := run_inside (initial_heap initSize positive uninitialised firstId) ops
  exact ⟨_, _, passed, rfl, heap.ordered, heap.capacity, heap.verified⟩

/-- Two events in a queue of one slot; the later one is removed, then the only one left. -/
theorem timer_heap_invariant_doubled :
    1 ≤ 1 ∧ ∃ replies st,
      run (initial 1 junk 0) [.add 7 70 ⟨5, 0⟩, .add 8 80 ⟨3, 0⟩, .remove 0, .extract] =
        some (replies, st) ∧
      Queue.run (initial 1 junk 0) [.add 7 70 ⟨5, 0⟩, .add 8 80 ⟨3, 0⟩, .remove 0, .extract] =
        (replies, st) ∧
      (∀ i, 2 ≤ i → i ≤ st.queue.size → (st.queue.array (i / 2)).key ≤ (st.queue.array i).key) ∧
      st.queue.size < st.queue.length ∧ verifyHeap st.queue = true :=
  ⟨Nat.le_refl 1, timer_heap_invariant 1 (Nat.le_refl 1) junk 0 _⟩

end Oflops.Timer.Checked
