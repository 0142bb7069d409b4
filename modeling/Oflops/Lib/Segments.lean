import Mathlib.Combinatorics.Enumerative.Composition
import Mathlib.Data.UInt
import Mathlib.Order.CompletePartialOrder

/-! Consecutive blocks of positive sizes, laid out from zero on: block `q` is the interval from
the sum of the sizes before it to the sum of the sizes up to it. -/

namespace Oflops.Lib.Segments

section
variable {n : Nat} (c : Composition n)

def block (q : Nat) : Set Nat := Set.Ico (c.sizeUpTo q) (c.sizeUpTo (q + 1))

theorem block_disjoint {q r : Nat} (different : q ≠ r) :
    Disjoint (block c q) (block c r) := by
  rw [Set.disjoint_left]
  rintro addr ⟨lowQ, highQ⟩ ⟨lowR, highR⟩
  rcases lt_or_gt_of_ne different with before | after
  · have ends : c.sizeUpTo (q + 1) ≤ c.sizeUpTo r := c.monotone_sizeUpTo before
    omega
  · have ends : c.sizeUpTo (r + 1) ≤ c.sizeUpTo q := c.monotone_sizeUpTo after
    omega

theorem iUnion_block : ⋃ q : Fin c.length, block c q = Set.Iio n := by
  ext addr
  rw [Set.mem_iUnion, Set.mem_Iio]
  constructor
  · rintro ⟨q, -, high⟩
    exact high.trans_le (c.sizeUpTo_le _)
  · intro inside
    exact ⟨c.index ⟨addr, inside⟩, c.sizeUpTo_index_le ⟨addr, inside⟩,
      c.lt_sizeUpTo_index_succ ⟨addr, inside⟩⟩

end

theorem toNat_sum {sizes : List UInt32} (fits : (sizes.map UInt32.toNat).sum < 2 ^ 32) :
    sizes.sum.toNat = (sizes.map UInt32.toNat).sum := by
  induction sizes with
  | nil => rfl
  | cons size rest ih =>
    rw [List.map_cons, List.sum_cons] at fits
    rw [List.sum_cons, List.map_cons, List.sum_cons, UInt32.toNat_add, ih (by omega),
      Nat.mod_eq_of_lt fits]

end Oflops.Lib.Segments
