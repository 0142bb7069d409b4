import Mathlib.Algebra.BigOperators.Fin
import Mathlib.Data.Set.Card
import Mathlib.Tactic.FinCases
import Mathlib.Tactic.Ring
import Oflops.Lib.Segments
import Oflops.NetFpga.PktGen

/-! The budget that `load_packet` enforces is what `queue_reorganize` needs: whatever has been
loaded, the twelve queues divide the memory of the card between them. -/

namespace Oflops.NetFpga.Partition
open PktGen Lib.Float32 Lib.MachineInt Lib.Segments

/-! The words loaded so far. -/

/-- The transmit queues hold the counted words, and no more than allowed. -/
structure Budget (globals : Globals) : Prop where
  total : globals.totalWords = ∑ port, ((globals.queueWords port).toNat : Int)
  bounded : globals.totalWords ≤ maxTxQueueSize

theorem initial_budget : Budget initial where
  total := by simp [initial]
  bounded := by decide

theorem wordLen_le (len : UInt32) : (wordLen len).toNat ≤ 2 ^ 29 := by
  have rounded : toFloat len.toNat ≤ 2 ^ 32 := toFloat_le len.toNat_lt
  rw [wordLen, UInt32.toNat_ofNat_of_lt' (by rw [UInt32.size]; omega)]
  omega

theorem packetWords_le (globals : Globals) (load : Load) :
    (packetWords globals load).toNat ≤ 2 ^ 29 + 3 := by
  have words : load.nonPadWordLen.toNat ≤ 2 ^ 29 := by
    unfold Load.nonPadWordLen
    split_ifs
    · decide
    · exact wordLen_le _
  have flag (p : Prop) [Decidable p] : (if p then (1 : UInt32) else 0).toNat ≤ 1 := by
    split_ifs <;> decide
  unfold packetWords
  dsimp only
  simp only [UInt32.toNat_add, UInt32.toNat_one]
  have delay := flag (0 < if load.delay = -1 then pcapDelay globals load.port load.sec load.usec
    else load.delay)
  have padding := flag (load.padded = true)
  omega

theorem Budget.nonneg {globals : Globals} (budget : Budget globals) : 0 ≤ globals.totalWords := by
  rw [budget.total]
  exact Finset.sum_nonneg fun port _ => Int.natCast_nonneg _

theorem Budget.queueWords_le {globals : Globals} (budget : Budget globals) (port : Port) :
    ((globals.queueWords port).toNat : Int) ≤ globals.totalWords := by
  rw [budget.total]
  exact Finset.single_le_sum (f := fun port => ((globals.queueWords port).toNat : Int))
    (fun port _ => Int.natCast_nonneg _) (Finset.mem_univ port)

theorem maxTxQueueSize_eq : maxTxQueueSize = 376816 := by decide

theorem Budget.sum {globals : Globals} (budget : Budget globals) (load : Load) :
    ((UInt32.ofInt globals.totalWords + packetWords globals load).toNat : Int) =
      globals.totalWords + (packetWords globals load).toNat := by
  have nonneg := budget.nonneg
  have bounded := budget.bounded
  have words := packetWords_le globals load
  rw [maxTxQueueSize_eq] at bounded
  have counted := toNat_ofInt nonneg (by omega)
  rw [UInt32.toNat_add]
  omega

theorem Budget.admitted {globals : Globals} (budget : Budget globals) {load : Load}
    (room : ¬ packetWords globals load + UInt32.ofInt globals.totalWords >
      UInt32.ofNat maxTxQueueSize) :
    globals.totalWords + (packetWords globals load).toNat ≤ maxTxQueueSize := by
  rw [← budget.sum load, UInt32.add_comm]
  have below := UInt32.le_iff_toNat_le.mp (UInt32.not_lt.mp room)
  rw [UInt32.toNat_ofNat_of_lt' (by decide)] at below
  exact_mod_cast below

theorem sum_grown {queueWords : Port → UInt32} {port : Port} {words : UInt32}
    (fits : (queueWords port).toNat + words.toNat < 2 ^ 32) :
    ∑ other, ((Function.update queueWords port (queueWords port + words) other).toNat : Int) =
      ∑ other, ((queueWords other).toNat : Int) + words.toNat := by
  have grown (other : Port) :
      ((Function.update queueWords port (queueWords port + words) other).toNat : Int) =
        (queueWords other).toNat + if other = port then (words.toNat : Int) else 0 := by
    by_cases same : other = port
    · subst same
      rw [Function.update_self, if_pos rfl, UInt32.toNat_add]
      omega
    · rw [Function.update_of_ne same, if_neg same, add_zero]
  rw [Finset.sum_congr rfl fun other _ => grown other, Finset.sum_add_distrib,
    Finset.sum_ite_eq', if_pos (Finset.mem_univ _)]

theorem loadPacket_budget {globals : Globals} (budget : Budget globals) (load : Load) :
    Budget (loadPacket globals load).2 := by
  unfold loadPacket
  dsimp only
  split_ifs with full
  · exact budget
  · have bounded := budget.admitted full
    have nonneg := budget.nonneg
    have own := budget.queueWords_le load.port
    have limit := maxTxQueueSize_eq
    have counted : int32 (UInt32.ofInt globals.totalWords + packetWords globals load).toNat =
        globals.totalWords + (packetWords globals load).toNat := by
      rw [budget.sum load, int32_of_range (by omega) (by omega)]
    constructor
    · dsimp only
      rw [counted, sum_grown (by omega), budget.total]
    · dsimp only
      rw [counted]
      exact bounded

theorem loadAll_budget {globals : Globals} (budget : Budget globals) (loads : List Load) :
    Budget (loadAll globals loads) := by
  induction loads generalizing globals with
  | nil => exact budget
  | cons load rest ih => exact ih (loadPacket_budget budget load)

/-! The registers written. -/

def written (reg : Nat) (writes : List Write) : List UInt32 :=
  (writes.filter (·.1 = reg)).map (·.2)

theorem written_append (reg : Nat) (first second : List Write) :
    written reg (first ++ second) = written reg first ++ written reg second := by
  simp [written]

def sizes (globals : Globals) : List UInt32 :=
  ports.flatMap (fun port => [UInt32.ofNat xmitQueueSize, rxQueueSize globals port]) ++
    ports.map fun port => UInt32.ofInt (getQueueSize globals port)

def placed : Nat → UInt32 → List UInt32 → List Write
  | _, _, [] => []
  | queue, currAddr, size :: rest =>
    setQueue queue currAddr size ++ placed (queue + 1) (currAddr + size) rest

def setAll (value : UInt32) (queues : Nat) : List Write :=
  (List.range queues).map fun queue => (ctrlReg queue, value)

theorem queueReorganize_writes (globals : Globals) :
    (queueReorganize globals).2 =
      setAll 0 (3 * numPorts) ++ placed 0 0 (sizes globals) ++ setAll 1 (2 * numPorts) := by
  simp only [queueReorganize, setAll, sizes, ports, Resizing.receive, Resizing.transmit,
    Resizing.place, List.foldl_cons, List.foldl_nil, List.flatMap_cons, List.flatMap_nil,
    List.map_cons, List.map_nil, List.cons_append, List.nil_append, placed, List.append_assoc,
    List.append_nil]
  rfl

theorem queueReorganize_base (globals : Globals) (port : Port) :
    (queueReorganize globals).1.queueBaseAddr port =
      int32 ((sizes globals).take (port + 8)).sum.toNat := by
  simp only [queueReorganize, sizes, ports, Resizing.receive, Resizing.transmit,
    Resizing.place, List.foldl_cons, List.foldl_nil, List.flatMap_cons, List.flatMap_nil,
    List.map_cons, List.map_nil, List.cons_append, List.nil_append, List.append_nil]
  -- only the order of the sizes matters
  generalize UInt32.ofNat xmitQueueSize = xmit
  generalize rxQueueSize globals = rx
  fin_cases port <;> simp [UInt32.add_assoc]

section
variable {reg : Nat → Nat} {value : UInt32 → UInt32 → UInt32}

/-- A kind of register that is written once for each queue. -/
def Records (reg : Nat → Nat) (value : UInt32 → UInt32 → UInt32) : Prop :=
  ∀ queue other currAddr size, written (reg queue) (setQueue other currAddr size) =
    if queue = other then [value currAddr size] else []

theorem registers (queue other : Nat) :
    (addrLoReg queue = addrLoReg other ↔ queue = other) ∧
    (addrHiReg queue = addrHiReg other ↔ queue = other) ∧
    addrLoReg queue ≠ addrHiReg other ∧ addrHiReg queue ≠ addrLoReg other ∧
    ctrlReg queue ≠ addrLoReg other ∧ ctrlReg queue ≠ addrHiReg other := by
  unfold addrLoReg addrHiReg ctrlReg queueAddrOffset oqQueue0AddrLoReg oqQueue0AddrHiReg
    oqQueue0CtrlReg oqQueue1AddrLoReg
  omega

theorem addrLoReg_records : Records addrLoReg fun currAddr _ => currAddr := by
  intro queue other currAddr size
  by_cases same : queue = other
  · subst same
    simp [written, setQueue, registers]
  · simp [written, setQueue, registers, same, Ne.symm same]

theorem addrHiReg_records : Records addrHiReg fun currAddr size => currAddr + size - 1 := by
  intro queue other currAddr size
  by_cases same : queue = other
  · subst same
    simp [written, setQueue, registers]
  · simp [written, setQueue, registers, same, Ne.symm same]

theorem written_placed_before (records : Records reg value) {queue first : Nat}
    (before : queue < first) (currAddr : UInt32) (sizes : List UInt32) :
    written (reg queue) (placed first currAddr sizes) = [] := by
  induction sizes generalizing first currAddr with
  | nil => rfl
  | cons size rest ih =>
    rw [placed, written_append, records, if_neg (by omega), ih (by omega), List.append_nil]

theorem written_placed (records : Records reg value) (first : Nat) (currAddr : UInt32)
    {sizes : List UInt32} {q : Nat} (inside : q < sizes.length) :
    written (reg (first + q)) (placed first currAddr sizes) =
      [value (currAddr + (sizes.take q).sum) sizes[q]] := by
  induction sizes generalizing first currAddr q with
  | nil => simp at inside
  | cons size rest ih =>
    rw [placed, written_append, records]
    cases q with
    | zero => simp [written_placed_before records]
    | succ q =>
      rw [if_neg (by omega), List.nil_append, show first + (q + 1) = first + 1 + q by omega,
        ih (first + 1) (currAddr + size) (by simpa using inside)]
      simp [UInt32.add_assoc]

theorem written_setAll {queue : Nat} (other : ∀ r, ctrlReg r ≠ reg queue) (value : UInt32)
    (queues : Nat) : written (reg queue) (setAll value queues) = [] := by
  simp [written, setAll, other]

theorem queueReorganize_written (records : Records reg value)
    (other : ∀ queue r, ctrlReg r ≠ reg queue) (globals : Globals) {q : Nat}
    (inside : q < (sizes globals).length) :
    written (reg q) (queueReorganize globals).2 =
      [value ((sizes globals).take q).sum (sizes globals)[q]] := by
  have own := written_placed records 0 0 inside
  rw [Nat.zero_add, UInt32.zero_add] at own
  rw [queueReorganize_writes, written_append, written_append, written_setAll (other q),
    written_setAll (other q), own, List.nil_append, List.append_nil]

end

/-! The sizes of the queues. -/

theorem sum_queues (xmit : UInt32) (rx tx : Port → UInt32) :
    ((ports.flatMap (fun port => [xmit, rx port]) ++ ports.map tx).map UInt32.toNat).sum =
      numPorts * xmit.toNat + ∑ port, (rx port).toNat + ∑ port, (tx port).toNat := by
  -- For any size of the setup queues: the actual one is a large literal that the kernel would
  -- count down.
  simp only [ports, List.flatMap_cons, List.flatMap_nil, List.map_cons, List.map_nil,
    List.cons_append, List.nil_append, List.append_nil, List.sum_cons, List.sum_nil,
    Fin.sum_univ_four, numPorts]
  ring

def txWords (globals : Globals) (port : Port) : Nat :=
  max minTxQueueSize (globals.queueWords port).toNat

section
variable {globals : Globals} (budget : Budget globals)
include budget

theorem txWords_le (port : Port) : txWords globals port ≤ maxTxQueueSize := by
  have own := budget.queueWords_le port
  have bounded := budget.bounded
  have limit := maxTxQueueSize_eq
  unfold txWords minTxQueueSize
  omega

/-- Topping up the small queues takes no more than was set aside for it. -/
theorem sum_txWords_le :
    ∑ port, txWords globals port ≤ maxTxQueueSize + numPorts * minTxQueueSize := by
  have total := budget.total
  have bounded := budget.bounded
  rw [Fin.sum_univ_four] at total ⊢
  unfold txWords minTxQueueSize numPorts
  omega

theorem getQueueSize_eq (port : Port) : getQueueSize globals port = txWords globals port := by
  have own := budget.queueWords_le port
  have bounded := budget.bounded
  have limit := maxTxQueueSize_eq
  unfold getQueueSize txWords
  split_ifs with small
  · have few : (globals.queueWords port).toNat < minTxQueueSize := small
    omega
  · have many : ¬ (globals.queueWords port).toNat < minTxQueueSize := small
    rw [int32_of_range (by omega) (by omega)]
    omega

theorem toNat_getQueueSize (port : Port) :
    (UInt32.ofInt (getQueueSize globals port)).toNat = txWords globals port := by
  have bound := txWords_le budget port
  have limit := maxTxQueueSize_eq
  rw [getQueueSize_eq budget]
  exact_mod_cast toNat_ofInt (x := txWords globals port) (by omega) (by omega)

theorem toNat_queueFree : (queueFree globals).toNat + ∑ port, txWords globals port =
    memSize - numPorts * xmitQueueSize := by
  have bound := sum_txWords_le budget
  rw [maxTxQueueSize_eq] at bound
  rw [Fin.sum_univ_four] at bound ⊢
  unfold minTxQueueSize numPorts at bound
  simp only [queueFree, ports, List.foldl_cons, List.foldl_nil, UInt32.toNat_sub,
    toNat_getQueueSize budget]
  rw [UInt32.toNat_ofNat_of_lt' (by decide)]
  unfold memSize numPorts xmitQueueSize
  omega

theorem queueFree_range : numPorts * minRxQueueSize ≤ (queueFree globals).toNat ∧
    (queueFree globals).toNat < 2 ^ 24 := by
  have free := toNat_queueFree budget
  have bound := sum_txWords_le budget
  rw [maxTxQueueSize_eq] at bound
  unfold minTxQueueSize numPorts at bound
  unfold memSize numPorts xmitQueueSize at free
  unfold numPorts minRxQueueSize memSize numPorts
  omega

/-- The division in `float` is exact, and the first queue takes the remainder. -/
theorem toNat_rxQueueSize (port : Port) :
    (rxQueueSize globals port).toNat = (queueFree globals).toNat / numPorts +
      if port = 0 then (queueFree globals).toNat % numPorts else 0 := by
  have small := (queueFree_range budget).2
  have share : (UInt32.ofNat ((queueFree globals).toNat / numPorts)).toNat =
      (queueFree globals).toNat / numPorts :=
    UInt32.toNat_ofNat_of_lt' (by unfold numPorts UInt32.size; omega)
  have four : (UInt32.ofNat numPorts).toNat = 4 := rfl
  unfold rxQueueSize
  dsimp only
  rw [toFloat_small small]
  split_ifs
  · rw [UInt32.toNat_add, UInt32.toNat_sub, UInt32.toNat_mul, share, four]
    unfold numPorts
    omega
  · rw [share, Nat.add_zero]

theorem minRxQueueSize_le (port : Port) : minRxQueueSize ≤ (rxQueueSize globals port).toNat := by
  have enough := (queueFree_range budget).1
  rw [toNat_rxQueueSize budget]
  unfold numPorts at enough ⊢
  omega

theorem sum_rxQueueSize :
    ∑ port, (rxQueueSize globals port).toNat = (queueFree globals).toNat := by
  simp only [toNat_rxQueueSize budget, Finset.sum_add_distrib, Finset.sum_const,
    Finset.card_univ, Fintype.card_fin, Finset.sum_ite_eq', Finset.mem_univ, if_true, smul_eq_mul]
  exact Nat.div_add_mod _ _

theorem sum_sizes : ((sizes globals).map UInt32.toNat).sum = memSize := by
  have free := toNat_queueFree budget
  have xmit : (UInt32.ofNat xmitQueueSize).toNat = xmitQueueSize :=
    UInt32.toNat_ofNat_of_lt' (by decide)
  have room : numPorts * xmitQueueSize ≤ memSize := by decide
  rw [sizes, sum_queues, xmit, sum_rxQueueSize budget]
  simp only [toNat_getQueueSize budget]
  omega

theorem sizes_pos {size : Nat} (member : size ∈ (sizes globals).map UInt32.toNat) : 0 < size := by
  simp only [sizes, List.map_append, List.map_flatMap, List.map_map, List.mem_append,
    List.mem_flatMap, List.mem_map] at member
  obtain ⟨port, -, inside⟩ | ⟨port, -, rfl⟩ := member
  · have rx := minRxQueueSize_le budget port
    have some : 0 < minRxQueueSize := by decide
    simp only [List.mem_cons, List.not_mem_nil, or_false] at inside
    obtain ⟨_, rfl | rfl, rfl⟩ := inside
    · decide
    · omega
  · rw [Function.comp_apply, toNat_getQueueSize budget]
    exact lt_max_of_lt_left (by decide)

def layout : Composition memSize where
  blocks := (sizes globals).map UInt32.toNat
  blocks_pos := sizes_pos budget
  blocks_sum := sum_sizes budget

theorem toNat_start (q : Nat) :
    ((sizes globals).take q).sum.toNat = (layout budget).sizeUpTo q := by
  have upTo : (((sizes globals).take q).map UInt32.toNat).sum =
      (layout budget).sizeUpTo q := by
    rw [List.map_take]
    rfl
  have inside := (layout budget).sizeUpTo_le q
  rw [toNat_sum (by rw [upTo]; exact inside.trans_lt (by decide)), upTo]

theorem sizeUpTo_succ {q : Nat} (inside : q < (sizes globals).length) :
    (layout budget).sizeUpTo (q + 1) =
      (layout budget).sizeUpTo q + (sizes globals)[q].toNat := by
  rw [(layout budget).sizeUpTo_succ (by simpa [layout, Composition.length] using inside)]
  simp [layout]

theorem toNat_end {q : Nat} (inside : q < (sizes globals).length) :
    (((sizes globals).take q).sum + (sizes globals)[q] - 1).toNat + 1 =
      (layout budget).sizeUpTo (q + 1) := by
  have start := toNat_start budget q
  have next := sizeUpTo_succ budget inside
  have fits : (layout budget).sizeUpTo (q + 1) ≤ 0x80000 := (layout budget).sizeUpTo_le (q + 1)
  have some : 0 < (sizes globals)[q].toNat :=
    sizes_pos budget (List.mem_map_of_mem (List.getElem_mem inside))
  rw [UInt32.toNat_sub, UInt32.toNat_add, UInt32.toNat_one]
  omega

end

/-! The partition. -/

def range (lo hi : UInt32) : Set Nat := Set.Icc lo.toNat hi.toNat

def receiveQueue (port : Port) : Fin 12 := ⟨port * 2 + 1, by omega⟩
def transmitQueue (port : Port) : Fin 12 := ⟨port + 2 * numPorts, by unfold numPorts; omega⟩

/-- The bounds of the twelve queues, as they are written to the registers, divide the memory
and leave each queue the words it needs. -/
structure Divides (globals : Globals) (writes : List Write) (lo hi : Fin 12 → UInt32) :
    Prop where
  lo_written : ∀ q : Fin 12, written (addrLoReg q) writes = [lo q]
  hi_written : ∀ q : Fin 12, written (addrHiReg q) writes = [hi q]
  nonempty : ∀ q, (range (lo q) (hi q)).Nonempty
  disjoint : ∀ q r, q ≠ r → Disjoint (range (lo q) (hi q)) (range (lo r) (hi r))
  covers : ⋃ q, range (lo q) (hi q) = Set.Iio memSize
  receive : ∀ port, minRxQueueSize ≤
    (range (lo (receiveQueue port)) (hi (receiveQueue port))).ncard
  transmit : ∀ port, (globals.queueWords port).toNat ≤
    (range (lo (transmitQueue port)) (hi (transmitQueue port))).ncard
  base : ∀ port, globals.queueBaseAddr port = (lo (transmitQueue port)).toNat

section
variable (globals : Globals)

theorem sizes_length : (sizes globals).length = 12 := rfl

def size (q : Fin 12) : UInt32 := (sizes globals).get (q.cast (sizes_length globals).symm)
def lo (q : Fin 12) : UInt32 := ((sizes globals).take q).sum
def hi (q : Fin 12) : UInt32 := lo globals q + size globals q - 1

theorem size_receive (port : Port) :
    size globals (receiveQueue port) = rxQueueSize globals port := by
  fin_cases port <;> rfl

theorem size_transmit (port : Port) :
    size globals (transmitQueue port) = UInt32.ofInt (getQueueSize globals port) := by
  fin_cases port <;> rfl

end

section
variable {globals : Globals} (budget : Budget globals)
include budget

theorem range_eq (q : Fin 12) :
    range (lo globals q) (hi globals q) = block (layout budget) q := by
  have start := toNat_start budget q
  have stop := toNat_end budget (q := q) q.isLt
  ext addr
  change (lo globals q).toNat ≤ addr ∧ addr ≤ (hi globals q).toNat ↔
    (layout budget).sizeUpTo q ≤ addr ∧ addr < (layout budget).sizeUpTo (q + 1)
  rw [← start, ← stop, Nat.lt_succ_iff]
  rfl

theorem ncard_range (q : Fin 12) :
    (range (lo globals q) (hi globals q)).ncard = (size globals q).toNat := by
  rw [range_eq budget, block, Set.ncard_eq_toFinset_card', Set.toFinset_Ico, Nat.card_Ico,
    sizeUpTo_succ budget q.isLt, Nat.add_sub_cancel_left]
  rfl

theorem queueReorganize_divides :
    Divides (queueReorganize globals).1 (queueReorganize globals).2 (lo globals) (hi globals) where
  lo_written q := queueReorganize_written addrLoReg_records
    (fun queue r => (registers r queue).2.2.2.2.1) globals q.isLt
  hi_written q := queueReorganize_written addrHiReg_records
    (fun queue r => (registers r queue).2.2.2.2.2) globals q.isLt
  nonempty q := by
    rw [range_eq budget]
    exact Set.nonempty_Ico.mpr ((layout budget).sizeUpTo_strict_mono q.isLt)
  disjoint q r different := by
    rw [range_eq budget, range_eq budget]
    exact block_disjoint _ (Fin.val_ne_of_ne different)
  covers := by
    rw [← iUnion_block (layout budget)]
    exact Set.iUnion_congr (range_eq budget)
  receive port := by
    rw [ncard_range budget, size_receive]
    exact minRxQueueSize_le budget port
  transmit port := by
    rw [ncard_range budget, size_transmit, toNat_getQueueSize budget]
    exact le_max_right _ _
  base port := by
    have inside := (layout budget).sizeUpTo_le (port + 8)
    rw [← toNat_start budget] at inside
    unfold memSize at inside
    rw [queueReorganize_base, int32_of_range (by omega) (by omega)]
    rfl

end

/-- Whatever has been loaded and refused, `queue_reorganize` divides the memory. -/
theorem queues_partition_memory (loads : List Load) :
    ∃ lo hi : Fin 12 → UInt32,
      Divides (queueReorganize (loadAll initial loads)).1
        (queueReorganize (loadAll initial loads)).2 lo hi :=
  ⟨_, _, queueReorganize_divides (loadAll_budget initial_budget loads)⟩

end Oflops.NetFpga.Partition
