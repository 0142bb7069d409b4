import Oflops.Lib.BinaryHeap
import Oflops.Timer.TimerMap

/-! The timer queue of `wc_event.c`: an implicit heap in slots 1..size of an array that
doubles when it is full. An array is a function from slots to elements; what it holds
from `length` on is not allocated yet, and becomes the uninitialised tail when it is. -/

namespace Oflops.Timer.Queue
open Time Lib.MachineInt Lib.BinaryHeap TimerMap

variable {F A : Type}

structure WcEvent (F A : Type) where
  eventtime : Timeval
  func : F
  arg : A

structure Qelm (F A : Type) where
  id : Int
  key : Timeval
  data : WcEvent F A

structure WcQueue (F A : Type) where
  array : Nat → Qelm F A
  length : Nat
  size : Nat

def wcQueueInit (initSize : Nat) (uninitialised : Nat → Qelm F A) : WcQueue F A :=
  { array := uninitialised, length := initSize, size := 0 }

def wcQueueIsempty (pq : WcQueue F A) : Bool := decide (pq.size < 1)

def parent (x : Nat) : Nat := x / 2
def left (x : Nat) : Nat := x <<< 1
def right (x : Nat) : Nat := (x <<< 1) + 1

/-- The local `largest` of `heapify` after both comparisons. -/
def largest (pq : WcQueue F A) (i : Nat) : Nat :=
  let l := left i
  let r := right i
  let m := if l ≤ pq.size ∧ timercmp (pq.array l).key (pq.array i).key lt then l else i
  if r ≤ pq.size ∧ timercmp (pq.array r).key (pq.array m).key lt then r else m

theorem largest_eq_least (pq : WcQueue F A) (i : Nat) :
    largest pq i = least Qelm.key pq.size pq.array i := by
  simp only [largest, least, left, right, timercmp_lt, Nat.shiftLeft_eq, pow_one, Nat.mul_comm i 2]

def heapify (pq : WcQueue F A) (i : Nat) : WcQueue F A :=
  if largest pq i ≠ i then
    heapify { pq with array := swapAt pq.array i (largest pq i) } (largest pq i)
  else pq
termination_by pq.size - i
decreasing_by
  rename_i moved
  rw [largest_eq_least] at moved ⊢
  have step := least_moves moved
  omega

/-- The copy loop of `wc_event_add`: parents with a later key move down one level. -/
def shiftParents (array : Nat → Qelm F A) (key : Timeval) (i : Nat) : (Nat → Qelm F A) × Nat :=
  if 1 < i ∧ timercmp (array (parent i)).key key gt then
    shiftParents (Function.update array i (array (parent i))) key (parent i)
  else (array, i)
termination_by i
decreasing_by
  unfold parent
  omega

/-- The old slots are copied; the array beyond them is fresh memory. -/
def wcQueueDouble (pq : WcQueue F A) : WcQueue F A := { pq with length := pq.length * 2 }

/-- The queue together with the file's static `WC_EVENT_ID`. -/
structure WcState (F A : Type) where
  queue : WcQueue F A
  wcEventId : Int

def wcEventAdd (st : WcState F A) (func : F) (arg : A) (key : Timeval) : Int × WcState F A :=
  let pq := if st.queue.size + 1 ≥ st.queue.length then wcQueueDouble st.queue else st.queue
  let data : WcEvent F A := { eventtime := key, func := func, arg := arg }
  let (array, i) := shiftParents pq.array key (pq.size + 1)
  let array := Function.update array i { id := st.wcEventId, key := key, data := data }
  (st.wcEventId, { queue := { pq with array := array, size := pq.size + 1 },
                   wcEventId := int32 (st.wcEventId + 1) })

def wcQueueExtract (pq : WcQueue F A) : Int × Option (Int × Timeval × F × A) × WcQueue F A :=
  if pq.size < 1 then (-1, none, pq)
  else
    let top := pq.array 1
    let pq' := { pq with
      array := Function.update pq.array 1 (pq.array pq.size), size := pq.size - 1 }
    (0, some (top.id, top.key, top.data.func, top.data.arg), heapify pq' 1)

def findSlot (array : Nat → Qelm F A) (id : Int) (i : Nat) : Nat → Nat
  | 0 => i
  | fuel + 1 => if (array i).id = id then i else findSlot array id (i + 1) fuel

/-- The repair loop of `wc_event_remove`: `heapify` at the slot and at each ancestor. -/
def repairUp (pq : WcQueue F A) (i : Nat) : WcQueue F A :=
  if parent i > 0 then repairUp (heapify pq i) (parent i) else heapify pq i
termination_by i
decreasing_by
  unfold parent at *
  omega

def wcEventRemove (pq : WcQueue F A) (id : Int) : Int × Option (F × A) × WcQueue F A :=
  let i := findSlot pq.array id 1 pq.size
  if i > pq.size then (-1, none, pq)
  else
    let data := (pq.array i).data
    let pq' := { pq with
      array := Function.update pq.array i (pq.array pq.size), size := pq.size - 1 }
    (0, some (data.func, data.arg), repairUp pq' i)

def step (st : WcState F A) : Op F A → Reply F A × WcState F A
  | .add func arg key =>
      let (id, st') := wcEventAdd st func arg key
      (.add id, st')
  | .remove id =>
      let (ret, out, pq) := wcEventRemove st.queue id
      (.remove ret out, { st with queue := pq })
  | .extract =>
      let (ret, out, pq) := wcQueueExtract st.queue
      (.extract ret out, { st with queue := pq })

def run (st : WcState F A) : List (Op F A) → List (Reply F A) × WcState F A
  | [] => ([], st)
  | op :: ops =>
      let (reply, st') := step st op
      let (replies, st'') := run st' ops
      (reply :: replies, st'')

theorem heapify_eq_siftDown (pq : WcQueue F A) (i : Nat) :
    heapify pq i = { pq with array := siftDown Qelm.key pq.size pq.array i } := by
  fun_induction heapify pq i with
  | case1 pq i moved ih =>
    conv_rhs => rw [siftDown, ← largest_eq_least, if_pos moved]
    exact ih
  | case2 pq i stays => rw [siftDown, ← largest_eq_least, if_neg stays]

theorem shiftParents_eq_siftUp (array : Nat → Qelm F A) (x : Qelm F A) (i : Nat) :
    Function.update (shiftParents array x.key i).1 (shiftParents array x.key i).2 x =
      siftUp Qelm.key array i x := by
  fun_induction shiftParents array x.key i with
  | case1 array i later ih =>
    unfold parent at later ih ⊢
    rw [timercmp_gt] at later
    conv_rhs => rw [siftUp, if_pos later]
    exact ih
  | case2 array i fits =>
    unfold parent at fits
    rw [timercmp_gt] at fits
    rw [siftUp, if_neg fits]

theorem repairUp_eq_repair (pq : WcQueue F A) (i : Nat) :
    repairUp pq i = { pq with array := repair Qelm.key pq.size pq.array i } := by
  fun_induction repairUp pq i with
  | case1 pq i climbs ih =>
    unfold parent at climbs ih ⊢
    conv_rhs => rw [repair, if_pos climbs]
    rw [ih, heapify_eq_siftDown]
  | case2 pq i top =>
    unfold parent at top
    rw [heapify_eq_siftDown, repair, if_neg top]

theorem findSlot_spec (array : Nat → Qelm F A) (id : Int) (i fuel : Nat) :
    (findSlot array id i fuel = i + fuel ∧ ∀ j, i ≤ j → j < i + fuel → (array j).id ≠ id) ∨
      (i ≤ findSlot array id i fuel ∧ findSlot array id i fuel < i + fuel ∧
        (array (findSlot array id i fuel)).id = id) := by
  induction fuel generalizing i with
  | zero => exact Or.inl ⟨rfl, fun j low high => by omega⟩
  | succ fuel ih =>
    unfold findSlot
    split_ifs with here
    · exact Or.inr ⟨le_rfl, by omega, here⟩
    · rcases ih (i + 1) with ⟨stop, absent⟩ | ⟨low, high, found⟩
      · refine Or.inl ⟨by omega, ?_⟩
        intro j low high
        by_cases same : j = i
        · exact same ▸ here
        · exact absent j (by omega) (by omega)
      · exact Or.inr ⟨by omega, by omega, found⟩

end Oflops.Timer.Queue
