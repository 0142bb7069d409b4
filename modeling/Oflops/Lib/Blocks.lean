import Mathlib.Data.Nat.Bitwise
import Mathlib.Order.Interval.Finset.Nat
import Mathlib.Tactic.Ring

/-! Blocks of numbers that agree above their low bits: how a block splits into smaller ones, and
which intervals of a cyclic number range lie in one block. -/

namespace Oflops.Lib.Blocks

/-- The two numbers agree above the low `bits` bits. -/
def SameBlock (bits a b : Nat) : Prop := a / 2 ^ bits = b / 2 ^ bits

instance (bits a b : Nat) : Decidable (SameBlock bits a b) := inferInstanceAs (Decidable (_ = _))

theorem and_mask {width n : Nat} (bits : Nat) (small : n < 2 ^ width) :
    n &&& (((2 ^ width - 1) <<< bits) % 2 ^ width) = n / 2 ^ bits * 2 ^ bits := by
  rw [← Nat.shiftRight_eq_div_pow, ← Nat.shiftLeft_eq]
  apply Nat.eq_of_testBit_eq
  intro i
  rw [Nat.testBit_and, Nat.testBit_mod_two_pow, Nat.testBit_shiftLeft, Nat.testBit_shiftLeft,
    Nat.testBit_shiftRight, Nat.testBit_two_pow_sub_one]
  by_cases inside : i < width
  · by_cases high : bits ≤ i
    · have near : i - bits < width := by omega
      simp [inside, high, near]
    · simp [high]
  · have zero : n.testBit i = false :=
      Nat.testBit_lt_two_pow (small.trans_le (Nat.pow_le_pow_right (by decide) (by omega)))
    by_cases high : bits ≤ i
    · simp [high, inside, zero]
    · simp [high]

theorem block_end_le {bits width n : Nat} (le : bits ≤ width) (small : n < 2 ^ width) :
    n / 2 ^ bits * 2 ^ bits + 2 ^ bits ≤ 2 ^ width := by
  obtain ⟨extra, rfl⟩ := Nat.exists_eq_add_of_le le
  rw [pow_add] at small ⊢
  rw [← Nat.succ_mul, Nat.mul_comm (2 ^ bits)]
  exact Nat.mul_le_mul_right _ (Nat.div_lt_of_lt_mul small)

theorem sameBlock_base (bits n : Nat) {more : Nat} (le : bits ≤ more) (a : Nat) :
    SameBlock more a (n / 2 ^ bits * 2 ^ bits) ↔ SameBlock more a n := by
  obtain ⟨extra, rfl⟩ := Nat.exists_eq_add_of_le le
  have same : n / 2 ^ bits * 2 ^ bits / 2 ^ (bits + extra) = n / 2 ^ (bits + extra) := by
    rw [pow_add, ← Nat.div_div_eq_div_mul, Nat.mul_div_cancel _ (Nat.two_pow_pos bits),
      Nat.div_div_eq_div_mul]
  rw [SameBlock, same, SameBlock]

theorem sameBlock_part {bits more j : Nat} (le : bits ≤ more) (inside : j < 2 ^ (more - bits))
    (n a : Nat) :
    SameBlock bits a (n / 2 ^ more * 2 ^ more + j * 2 ^ bits) ↔
      SameBlock more a n ∧ a / 2 ^ bits % 2 ^ (more - bits) = j := by
  obtain ⟨extra, rfl⟩ := Nat.exists_eq_add_of_le le
  rw [Nat.add_sub_cancel_left] at inside ⊢
  have split : n / 2 ^ (bits + extra) * 2 ^ (bits + extra) + j * 2 ^ bits =
      (n / 2 ^ (bits + extra) * 2 ^ extra + j) * 2 ^ bits := by
    rw [pow_add]
    ring
  have above : a / 2 ^ (bits + extra) = a / 2 ^ bits / 2 ^ extra := by
    rw [pow_add, Nat.div_div_eq_div_mul]
  rw [SameBlock, SameBlock, split, Nat.mul_div_cancel _ (Nat.two_pow_pos bits), above]
  generalize a / 2 ^ bits = x
  generalize n / 2 ^ (bits + extra) = y
  have parts := Nat.div_add_mod x (2 ^ extra)
  constructor
  · rintro rfl
    rw [Nat.mul_comm, Nat.mul_add_div (Nat.two_pow_pos extra), Nat.div_eq_of_lt inside,
      Nat.mul_add_mod, Nat.mod_eq_of_lt inside]
    exact ⟨rfl, rfl⟩
  · rintro ⟨rfl, rfl⟩
    rw [Nat.mul_comm]
    exact parts.symm

theorem interval_sameBlock_iff {bits width n first count : Nat} (le : bits < width)
    (small : n < 2 ^ width) (near : n % 2 ^ bits + first ≤ 2 ^ bits) :
    (∀ i < count, SameBlock bits ((n + first + i) % 2 ^ width) n) ↔
      n % 2 ^ bits + first + count ≤ 2 ^ bits := by
  obtain ⟨extra, rfl⟩ := Nat.exists_eq_add_of_lt le
  have wide : 2 ^ (bits + extra + 1) = 2 ^ bits * 2 ^ (extra + 1) := by rw [← pow_add, add_assoc]
  have many : 2 ≤ 2 ^ (extra + 1) := by
    rw [pow_succ]
    have := Nat.two_pow_pos extra
    omega
  have positive := Nat.two_pow_pos bits
  have parts := Nat.div_add_mod n (2 ^ bits)
  rw [wide] at small ⊢
  have block : n / 2 ^ bits < 2 ^ (extra + 1) := Nat.div_lt_of_lt_mul small
  unfold SameBlock
  generalize 2 ^ (extra + 1) = blocks at *
  generalize 2 ^ bits = size at *
  generalize n / size = k at *
  generalize n % size = r at *
  constructor
  · intro all
    by_contra beyond
    have at_end := all (size - r - first) (by omega)
    have sum : n + first + (size - r - first) = size * (k + 1) := by
      rw [Nat.mul_add, Nat.mul_one]
      omega
    rw [sum, Nat.mul_mod_mul_left, Nat.mul_div_cancel_left _ positive] at at_end
    rcases Nat.lt_or_ge (k + 1) blocks with within | wraps
    · rw [Nat.mod_eq_of_lt within] at at_end
      omega
    · have last : k + 1 = blocks := by omega
      rw [last, Nat.mod_self] at at_end
      omega
  · intro fits i inside
    have bound : n + first + i < size * blocks := by
      have top : size * k + size ≤ size * blocks := by
        rw [← Nat.mul_succ]
        exact Nat.mul_le_mul_left size block
      omega
    have sum : n + first + i = size * k + (r + first + i) := by omega
    rw [Nat.mod_eq_of_lt bound, sum, Nat.mul_add_div positive,
      Nat.div_eq_of_lt (by omega), Nat.add_zero]

theorem exists_residue (first : Nat) {n r : Nat} (inside : r < n) :
    ∃ j < n, (first + j) % n = r := by
  refine ⟨(r + (n - first % n)) % n, Nat.mod_lt _ (by omega), ?_⟩
  have below := Nat.mod_lt first (by omega : 0 < n)
  have parts := Nat.div_add_mod first n
  have round : first + (r + (n - first % n)) = r + n * (first / n + 1) := by
    rw [Nat.mul_add, Nat.mul_one]
    omega
  rw [Nat.add_mod_mod, round, Nat.add_mul_mod_self_left, Nat.mod_eq_of_lt inside]

/-! ### Consecutive numbers of a cyclic range -/

/-- `count` numbers from `first` on; behind the last number of the range comes 0. -/
def consecutive (modulus first count : Nat) : Set Nat :=
  {a | ∃ i < count, (first + i) % modulus = a}

theorem interval_length_le {modulus first count low high : Nat}
    (same : Set.Icc low high = consecutive modulus first count) : high + 1 - low ≤ count := by
  have image : Finset.Icc low high = (Finset.range count).image fun i => (first + i) % modulus := by
    ext a
    rw [Finset.mem_Icc, ← Set.mem_Icc, same, Finset.mem_image]
    simp only [consecutive, Set.mem_ofPred_eq, Finset.mem_range]
  calc high + 1 - low = (Finset.Icc low high).card := (Nat.card_Icc low high).symm
    _ ≤ (Finset.range count).card := by
      rw [image]
      exact Finset.card_image_le
    _ = count := Finset.card_range count

theorem interval_eq_consecutive_iff {modulus first count low : Nat} (room : low + count ≤ modulus)
    (some : 0 < count) (short : count < modulus) (inside : first < modulus) :
    Set.Icc low (low + (count - 1)) = consecutive modulus first count ↔ first = low := by
  constructor
  · intro same
    have start : first ∈ Set.Icc low (low + (count - 1)) := by
      rw [same]
      exact ⟨0, some, Nat.mod_eq_of_lt inside⟩
    by_contra other
    -- the number before the first one would be in the interval too
    have before : first - 1 ∈ Set.Icc low (low + (count - 1)) := by
      rw [Set.mem_Icc] at start ⊢
      omega
    rw [Set.mem_Icc] at start
    rw [same] at before
    obtain ⟨i, few, value⟩ := before
    rcases Nat.lt_or_ge (first + i) modulus with below | wraps
    · rw [Nat.mod_eq_of_lt below] at value
      omega
    · rw [Nat.mod_eq_sub_mod wraps, Nat.mod_eq_of_lt (by omega)] at value
      omega
  · rintro rfl
    ext a
    rw [Set.mem_Icc]
    constructor
    · intro between
      refine ⟨a - first, by omega, ?_⟩
      rw [Nat.add_sub_cancel' between.1]
      exact Nat.mod_eq_of_lt (by omega)
    · rintro ⟨i, few, rfl⟩
      rw [Nat.mod_eq_of_lt (by omega)]
      omega

end Oflops.Lib.Blocks
