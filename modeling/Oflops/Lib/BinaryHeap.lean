import Mathlib.Algebra.BigOperators.Intervals
import Mathlib.Algebra.Order.Group.Multiset

/-! An implicit binary min-heap kept in the slots 1..n of an array, the children
of slot i being 2i and 2i+1. `Lifted` allows one bad edge, the one that enters a
given slot; sifting up moves that edge towards the root, and sifting down turns a
slot whose own value is arbitrary into one whose only bad edge enters it. -/

namespace Oflops.Lib.BinaryHeap

variable {α κ : Type*} [LinearOrder κ]

def contents (a : Nat → α) (n : Nat) : Multiset α :=
  ∑ i ∈ Finset.Icc 1 n, {a i}

def swapAt (a : Nat → α) (i j : Nat) : Nat → α :=
  Function.update (Function.update a i (a j)) j (a i)

def Ordered (key : α → κ) (a : Nat → α) (n : Nat) : Prop :=
  ∀ c, 2 ≤ c → c ≤ n → key (a (c / 2)) ≤ key (a c)

/-- Every edge is in order except possibly the one entering `i`, and the parent of
`i` may take the place of `i` without harming the edges that leave `i`. -/
structure Lifted (key : α → κ) (a : Nat → α) (n i : Nat) : Prop where
  others : ∀ c, 2 ≤ c → c ≤ n → c ≠ i → key (a (c / 2)) ≤ key (a c)
  grand : 2 ≤ i → ∀ c, c ≤ n → c / 2 = i → key (a (i / 2)) ≤ key (a c)

/-- Nothing is known about the value at `i` itself; every edge that avoids `i` is in
order, also across `i`. -/
structure Vacant (key : α → κ) (a : Nat → α) (n i : Nat) : Prop where
  others : ∀ c, 2 ≤ c → c ≤ n → c ≠ i → c / 2 ≠ i → key (a (c / 2)) ≤ key (a c)
  grand : 2 ≤ i → ∀ c, c ≤ n → c / 2 = i → key (a (i / 2)) ≤ key (a c)

theorem contents_zero (a : Nat → α) : contents a 0 = 0 := by
  simp [contents]

theorem contents_succ (a : Nat → α) (n : Nat) :
    contents a (n + 1) = contents a n + {a (n + 1)} := by
  unfold contents
  rw [Finset.sum_Icc_succ_top (by omega)]

theorem mem_contents {a : Nat → α} {n : Nat} {x : α} :
    x ∈ contents a n ↔ ∃ i, 1 ≤ i ∧ i ≤ n ∧ a i = x := by
  induction n with
  | zero =>
    simp only [contents_zero, Multiset.notMem_zero, false_iff]
    rintro ⟨i, low, high, -⟩
    omega
  | succ n ih =>
    rw [contents_succ, Multiset.mem_add, ih, Multiset.mem_singleton]
    constructor
    · rintro (⟨i, low, high, same⟩ | same)
      · exact ⟨i, low, by omega, same⟩
      · exact ⟨n + 1, by omega, le_rfl, same.symm⟩
    · rintro ⟨i, low, high, same⟩
      by_cases last : i = n + 1
      · exact Or.inr (last ▸ same.symm)
      · exact Or.inl ⟨i, low, by omega, same⟩

theorem contents_congr {a b : Nat → α} {n : Nat} (same : ∀ i, 1 ≤ i → i ≤ n → a i = b i) :
    contents a n = contents b n := by
  apply Finset.sum_congr rfl
  intro i member
  rw [Finset.mem_Icc] at member
  rw [same i member.1 member.2]

theorem contents_update {a : Nat → α} {n i : Nat} (x : α) (low : 1 ≤ i) (high : i ≤ n) :
    contents (Function.update a i x) n + {a i} = contents a n + {x} := by
  have member : i ∈ Finset.Icc 1 n := Finset.mem_Icc.mpr ⟨low, high⟩
  unfold contents
  rw [← Finset.add_sum_erase _ _ member, ← Finset.add_sum_erase (Finset.Icc 1 n) _ member]
  have rest : ∑ j ∈ (Finset.Icc 1 n).erase i, ({Function.update a i x j} : Multiset α) =
      ∑ j ∈ (Finset.Icc 1 n).erase i, {a j} := by
    apply Finset.sum_congr rfl
    intro j away
    rw [Function.update_of_ne (Finset.ne_of_mem_erase away)]
  rw [rest, Function.update_self]
  ac_rfl

theorem contents_swapAt {a : Nat → α} {n i j : Nat} (lowi : 1 ≤ i) (highi : i ≤ n)
    (lowj : 1 ≤ j) (highj : j ≤ n) : contents (swapAt a i j) n = contents a n := by
  by_cases same : i = j
  · subst same
    simp [swapAt]
  · have first := contents_update (a := a) (a j) lowi highi
    have second := contents_update (a := Function.update a i (a j)) (a i) lowj highj
    rw [Function.update_of_ne (Ne.symm same), first] at second
    exact add_right_cancel second

theorem contents_fill {a : Nat → α} {n i : Nat} (low : 1 ≤ i) (high : i ≤ n) :
    contents (Function.update a i (a n)) (n - 1) + {a i} = contents a n := by
  obtain ⟨m, rfl⟩ : ∃ m, n = m + 1 := ⟨n - 1, by omega⟩
  rw [Nat.add_sub_cancel, contents_succ]
  by_cases last : i = m + 1
  · subst last
    rw [contents_congr (b := a)]
    intro j _ below
    rw [Function.update_of_ne (by omega)]
  · exact contents_update _ low (by omega)

theorem swapAt_left (a : Nat → α) (i j : Nat) : swapAt a i j i = a j := by
  by_cases same : i = j
  · subst same
    simp [swapAt]
  · rw [swapAt, Function.update_of_ne same, Function.update_self]

theorem swapAt_right (a : Nat → α) (i j : Nat) : swapAt a i j j = a i := by
  rw [swapAt, Function.update_self]

theorem swapAt_other (a : Nat → α) {i j k : Nat} (fromLeft : k ≠ i) (fromRight : k ≠ j) :
    swapAt a i j k = a k := by
  rw [swapAt, Function.update_of_ne fromRight, Function.update_of_ne fromLeft]

theorem Ordered.root_le {key : α → κ} {a : Nat → α} {n : Nat} (order : Ordered key a n) :
    ∀ i, 1 ≤ i → i ≤ n → key (a 1) ≤ key (a i) := by
  intro i
  induction i using Nat.strong_induction_on with
  | _ i ih =>
    intro low high
    by_cases root : i = 1
    · rw [root]
    · exact (ih (i / 2) (by omega) (by omega) (by omega)).trans (order i (by omega) high)

theorem Ordered.vacant {key : α → κ} {a : Nat → α} {n i : Nat} (order : Ordered key a n)
    (x : α) (m : Nat) (shorter : m ≤ n) : Vacant key (Function.update a i x) m i where
  others := by
    intro c low high notSelf notChild
    rw [Function.update_of_ne notSelf, Function.update_of_ne notChild]
    exact order c low (by omega)
  grand := by
    intro deep c high child
    rw [Function.update_of_ne (by omega), Function.update_of_ne (by omega)]
    have upper := order i deep (by omega)
    have lower := order c (by omega) (by omega)
    rw [child] at lower
    exact upper.trans lower

theorem Lifted.ordered {key : α → κ} {a : Nat → α} {n i : Nat} (lifted : Lifted key a n i)
    (settled : 2 ≤ i → i ≤ n → key (a (i / 2)) ≤ key (a i)) : Ordered key a n := by
  intro c low high
  by_cases same : c = i
  · subst same
    exact settled low high
  · exact lifted.others c low high same

theorem Ordered.lifted {key : α → κ} {a : Nat → α} {n : Nat} (order : Ordered key a n)
    (i : Nat) : Lifted key a n i where
  others := fun c low high _ => order c low high
  grand := by
    intro deep c high child
    have lower := order c (by omega) high
    rw [child] at lower
    exact (order i deep (by omega)).trans lower

theorem Lifted.swap {key : α → κ} {a : Nat → α} {n i : Nat} (lifted : Lifted key a n i)
    (deep : 2 ≤ i) (high : i ≤ n) (bad : key (a i) < key (a (i / 2))) :
    Lifted key (swapAt a i (i / 2)) n (i / 2) where
  others := by
    -- the swap touches the edges into `i`, into its children and into its sibling
    intro c low high' notParent
    by_cases same : c = i
    · subst same
      rw [swapAt_left, swapAt_right]
      exact bad.le
    · rw [swapAt_other a same notParent]
      by_cases child : c / 2 = i
      · rw [child, swapAt_left]
        exact lifted.grand deep c high' child
      · by_cases sibling : c / 2 = i / 2
        · rw [sibling, swapAt_right]
          have upper := lifted.others c low high' same
          rw [sibling] at upper
          exact bad.le.trans upper
        · rw [swapAt_other a child sibling]
          exact lifted.others c low high' same
  grand := by
    intro deep' c high' child
    have upper := lifted.others (i / 2) deep' (by omega) (by omega)
    rw [swapAt_other a (by omega) (by omega)]
    by_cases same : c = i
    · subst same
      rw [swapAt_left]
      exact upper
    · rw [swapAt_other a same (by omega)]
      have lower := lifted.others c (by omega) high' same
      rw [child] at lower
      exact upper.trans lower

/-- Shift the parents down until `x` fits, then store it. -/
def siftUp (key : α → κ) (a : Nat → α) (i : Nat) (x : α) : Nat → α :=
  if 1 < i ∧ key x < key (a (i / 2)) then
    siftUp key (Function.update a i (a (i / 2))) (i / 2) x
  else Function.update a i x
termination_by i
decreasing_by omega

private theorem shift_eq_swapAt (a : Nat → α) (x : α) {i : Nat} (deep : 1 < i) :
    Function.update (Function.update a i (a (i / 2))) (i / 2) x =
      swapAt (Function.update a i x) i (i / 2) := by
  unfold swapAt
  rw [Function.update_self, Function.update_idem, Function.update_of_ne (by omega : i / 2 ≠ i)]

theorem siftUp_contents (key : α → κ) (a : Nat → α) (n i : Nat) (x : α) (low : 1 ≤ i)
    (high : i ≤ n) :
    contents (siftUp key a i x) n = contents (Function.update a i x) n := by
  fun_induction siftUp key a i x with
  | case1 a i smaller ih =>
    rw [ih (by omega) (by omega), shift_eq_swapAt a x smaller.1,
      contents_swapAt low high (by omega) (by omega)]
  | case2 a i stop => rfl

theorem siftUp_ordered (key : α → κ) (a : Nat → α) (n i : Nat) (x : α) (high : i ≤ n)
    (lifted : Lifted key (Function.update a i x) n i) : Ordered key (siftUp key a i x) n := by
  fun_induction siftUp key a i x with
  | case1 a i smaller ih =>
    apply ih (by omega)
    rw [shift_eq_swapAt a x smaller.1]
    apply lifted.swap (by omega) high
    rw [Function.update_self, Function.update_of_ne (by omega)]
    exact smaller.2
  | case2 a i stop =>
    apply lifted.ordered
    intro deep _
    rw [Function.update_self, Function.update_of_ne (by omega)]
    exact not_lt.mp (fun smaller => stop ⟨by omega, smaller⟩)

/-- The slot of the smallest value among `i` and its children, the left child and
then `i` winning ties. -/
def least (key : α → κ) (n : Nat) (a : Nat → α) (i : Nat) : Nat :=
  let m := if 2 * i ≤ n ∧ key (a (2 * i)) < key (a i) then 2 * i else i
  if 2 * i + 1 ≤ n ∧ key (a (2 * i + 1)) < key (a m) then 2 * i + 1 else m

theorem least_moves {key : α → κ} {n : Nat} {a : Nat → α} {i : Nat}
    (moved : least key n a i ≠ i) :
    least key n a i / 2 = i ∧ i < least key n a i ∧ least key n a i ≤ n ∧
      key (a (least key n a i)) < key (a i) := by
  unfold least at moved ⊢
  dsimp only at moved ⊢
  by_cases left : 2 * i ≤ n ∧ key (a (2 * i)) < key (a i)
  · have positive : i ≠ 0 := by
      rintro rfl
      exact lt_irrefl _ left.2
    rw [if_pos left] at moved ⊢
    split_ifs with right
    · exact ⟨by omega, by omega, right.1, right.2.trans left.2⟩
    · exact ⟨by omega, by omega, left.1, left.2⟩
  · rw [if_neg left] at moved ⊢
    split_ifs at moved ⊢ with right
    · exact ⟨by omega, by omega, right.1, right.2⟩
    · exact absurd rfl moved

theorem least_le_child (key : α → κ) (n : Nat) (a : Nat → α) {i c : Nat} (high : c ≤ n)
    (child : c / 2 = i) (low : 1 ≤ c) : key (a (least key n a i)) ≤ key (a c) := by
  have side : c = 2 * i ∨ c = 2 * i + 1 := by omega
  unfold least
  dsimp only
  rcases side with rfl | rfl
  · have picked : key (a (if 2 * i ≤ n ∧ key (a (2 * i)) < key (a i) then 2 * i else i)) ≤
        key (a (2 * i)) := by
      split_ifs with left
      · exact le_rfl
      · exact not_lt.mp (fun smaller => left ⟨high, smaller⟩)
    generalize (if 2 * i ≤ n ∧ key (a (2 * i)) < key (a i) then 2 * i else i) = m at picked ⊢
    split_ifs with right
    · exact right.2.le.trans picked
    · exact picked
  · generalize (if 2 * i ≤ n ∧ key (a (2 * i)) < key (a i) then 2 * i else i) = m
    split_ifs with right
    · exact le_rfl
    · exact not_lt.mp (fun smaller => right ⟨high, smaller⟩)

/-- Swap the slot with its smallest child until it has none smaller. -/
def siftDown (key : α → κ) (n : Nat) (a : Nat → α) (i : Nat) : Nat → α :=
  if least key n a i ≠ i then siftDown key n (swapAt a i (least key n a i)) (least key n a i)
  else a
termination_by n - i
decreasing_by
  have moved := least_moves ‹_›
  omega

theorem siftDown_contents (key : α → κ) (n : Nat) (a : Nat → α) (i : Nat) (low : 1 ≤ i) :
    contents (siftDown key n a i) n = contents a n := by
  fun_induction siftDown key n a i with
  | case1 a i moved ih =>
    have step := least_moves moved
    rw [ih (by omega),
      contents_swapAt low (by omega) (by omega) (by omega)]
  | case2 a i stays => rfl

theorem siftDown_above (key : α → κ) (n : Nat) (a : Nat → α) (i : Nat) {j : Nat} (above : j < i) :
    siftDown key n a i j = a j := by
  fun_induction siftDown key n a i with
  | case1 a i moved ih =>
    have step := least_moves moved
    rw [ih (by omega), swapAt_other a (by omega) (by omega)]
  | case2 a i stays => rfl

theorem siftDown_at (key : α → κ) (n : Nat) (a : Nat → α) (i : Nat) :
    siftDown key n a i i = a (least key n a i) := by
  rw [siftDown]
  split_ifs with moved
  · rw [siftDown_above key n _ _ (least_moves moved).2.1, swapAt_left]
  · rw [not_not.mp moved]

theorem siftDown_fixed {key : α → κ} {n : Nat} {a : Nat → α} {i : Nat}
    (below : ∀ c, c ≤ n → c / 2 = i → key (a i) ≤ key (a c)) : siftDown key n a i = a := by
  rw [siftDown, if_neg]
  intro moved
  obtain ⟨child, _, high, smaller⟩ := least_moves moved
  exact absurd smaller (not_lt.mpr (below _ high child))

section Sink
variable {key : α → κ} {a : Nat → α} {n i m : Nat}

theorem Vacant.below_child (vacant : Vacant key a n i) (low : 1 ≤ i) (child : m / 2 = i) {c : Nat}
    (high : c ≤ n) (grandchild : c / 2 = m) : key (a m) ≤ key (a c) := by
  have edge := vacant.others c (by omega) high (by omega) (by omega)
  rwa [grandchild] at edge

theorem Vacant.sink (vacant : Vacant key a n i) (low : 1 ≤ i) (child : m / 2 = i) (above : i < m)
    (high : m ≤ n) (minimal : ∀ c, c ≤ n → c / 2 = i → key (a m) ≤ key (a c)) :
    Vacant key (swapAt a i m) n m := by
  -- the least child moves up, and the vacant slot down to its place
  constructor
  · intro c deep high' notSelf notChild
    by_cases same : c = i
    · subst same
      rw [swapAt_left, swapAt_other a (by omega) (by omega)]
      exact vacant.grand deep m high child
    · rw [swapAt_other a same notSelf]
      by_cases sibling : c / 2 = i
      · rw [sibling, swapAt_left]
        exact minimal c high' sibling
      · rw [swapAt_other a sibling notChild]
        exact vacant.others c deep high' same sibling
  · intro _ c high' child'
    rw [child, swapAt_left, swapAt_other a (by omega) (by omega)]
    exact vacant.below_child low child high' child'

end Sink

/-- After sifting down, the only edge still in doubt is the one entering the slot. -/
theorem siftDown_lifted (key : α → κ) (n : Nat) (a : Nat → α) (i : Nat) (low : 1 ≤ i)
    (vacant : Vacant key a n i) : Lifted key (siftDown key n a i) n i := by
  fun_induction siftDown key n a i with
  | case1 a i moved ih =>
    obtain ⟨child, above, high, smaller⟩ := least_moves moved
    generalize chosen : least key n a i = m at *
    have minimal : ∀ c, c ≤ n → c / 2 = i → key (a m) ≤ key (a c) := by
      intro c high' child'
      rw [← chosen]
      exact least_le_child key n a high' child' (by omega)
    have next := vacant.sink low child above high minimal
    have rest := ih (by omega) next
    -- the edge from i to m: the value left at i bounds everything that can surface at m
    have settled : key (siftDown key n (swapAt a i m) m i) ≤
        key (siftDown key n (swapAt a i m) m m) := by
      rw [siftDown_above key n _ m above, swapAt_left, siftDown_at]
      by_cases stays : least key n (swapAt a i m) m = m
      · rw [stays, swapAt_right]
        exact smaller.le
      · obtain ⟨child', above', high', _⟩ := least_moves stays
        rw [swapAt_other a (by omega) (by omega)]
        exact vacant.below_child low child high' child'
    have order : Ordered key (siftDown key n (swapAt a i m) m) n :=
      rest.ordered (fun _ _ => child.symm ▸ settled)
    exact order.lifted i
  | case2 a i stays =>
    refine ⟨?_, vacant.grand⟩
    intro c deep high notSelf
    by_cases child : c / 2 = i
    · have minimal := least_le_child key n a high child (by omega)
      rwa [not_not.mp stays, ← child] at minimal
    · exact vacant.others c deep high notSelf child

theorem siftDown_parent_lifted (key : α → κ) (n : Nat) (a : Nat → α) (i : Nat) (deep : 2 ≤ i)
    (lifted : Lifted key a n i) : Lifted key (siftDown key n a (i / 2)) n (i / 2) := by
  -- one round of the repair: sifting down at the parent carries the doubtful edge up
  by_cases bad : i ≤ n ∧ key (a i) < key (a (i / 2))
  · have swapped := lifted.swap deep bad.1 bad.2
    have chosen : least key n a (i / 2) = i := by
      have minimal := least_le_child key n a bad.1 rfl (by omega)
      have moved : least key n a (i / 2) ≠ i / 2 := by
        intro stays
        rw [stays] at minimal
        exact absurd bad.2 (not_lt.mpr minimal)
      obtain ⟨child, _, high, smaller⟩ := least_moves moved
      by_contra other
      have sibling := lifted.others _ (by omega) high other
      rw [child] at sibling
      exact absurd smaller (not_lt.mpr sibling)
    rw [siftDown, if_pos (by omega), chosen, siftDown_fixed]
    · have turned : swapAt a (i / 2) i = swapAt a i (i / 2) := by
        unfold swapAt
        exact Function.update_comm (by omega) _ _ _
      rwa [turned]
    · intro c high child
      rw [swapAt_right, swapAt_other a (by omega) (by omega)]
      exact lifted.grand deep c high child
  · have order : Ordered key a n := lifted.ordered
      (fun _ high => not_lt.mp (fun smaller => bad ⟨high, smaller⟩))
    rw [siftDown_fixed]
    · exact order.lifted _
    · intro c high child
      have edge := order c (by omega) high
      rwa [child] at edge

/-- Sift down at `i` and then at each of its ancestors. -/
def repair (key : α → κ) (n : Nat) (a : Nat → α) (i : Nat) : Nat → α :=
  if 0 < i / 2 then repair key n (siftDown key n a i) (i / 2) else siftDown key n a i
termination_by i
decreasing_by omega

theorem repair_contents (key : α → κ) (n : Nat) (a : Nat → α) (i : Nat) (low : 1 ≤ i) :
    contents (repair key n a i) n = contents a n := by
  fun_induction repair key n a i with
  | case1 a i climbs ih =>
    rw [ih (by omega), siftDown_contents key n a i low]
  | case2 a i top => rw [siftDown_contents key n a i low]

theorem repair_ordered_of_lifted (key : α → κ) (n : Nat) (a : Nat → α) (i : Nat) (low : 1 ≤ i)
    (lifted : Lifted key (siftDown key n a i) n i) : Ordered key (repair key n a i) n := by
  -- the ancestors finish what the first sift left open
  fun_induction repair key n a i with
  | case1 a i climbs ih =>
    exact ih (by omega) (siftDown_parent_lifted key n _ i (by omega) lifted)
  | case2 a i top =>
    exact lifted.ordered (fun deep _ => by omega)

theorem repair_ordered (key : α → κ) (n : Nat) (a : Nat → α) (i : Nat) (low : 1 ≤ i)
    (vacant : Vacant key a n i) : Ordered key (repair key n a i) n :=
  repair_ordered_of_lifted key n a i low (siftDown_lifted key n a i low vacant)

end Oflops.Lib.BinaryHeap
