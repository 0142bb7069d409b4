import Mathlib.Algebra.Order.Floor.Ring
import Mathlib.Data.Int.Log
import Mathlib.Data.Rat.Floor
import Mathlib.Tactic.Linarith
import Mathlib.Tactic.Ring

/-! Binary floating-point numbers with `p` significant bits, as rationals, and rounding to the
nearest of them, ties to even. Exponents are unbounded: neither overflow nor underflow. -/

namespace Oflops.Lib.FloatRounding

/-- The nearest integer, of two the even one. -/
def nearestEven (y : ℚ) : ℤ :=
  if 1 / 2 < y - ⌊y⌋ ∨ y - ⌊y⌋ = 1 / 2 ∧ ⌊y⌋ % 2 = 1 then ⌊y⌋ + 1 else ⌊y⌋

def unit (p : ℕ) (x : ℚ) : ℚ := 2 ^ (Int.log 2 x - (p - 1))

def roundTo (p : ℕ) (x : ℚ) : ℚ := nearestEven (x / unit p x) * unit p x

def roundSigned (p : ℕ) (x : ℚ) : ℚ := if x < 0 then -roundTo p (-x) else roundTo p x

def Representable (p : ℕ) (x : ℚ) : Prop := ∃ (m : ℕ) (e : ℤ), m < 2 ^ p ∧ x = m * 2 ^ e

variable {p : ℕ} {x y : ℚ}

theorem nearestEven_le {n : ℤ} (below : y ≤ n) : nearestEven y ≤ n := by
  have floor : ⌊y⌋ ≤ n := Int.cast_le.mp ((Int.floor_le y).trans below)
  unfold nearestEven
  split_ifs with up
  · -- rounding up happens only strictly between two integers
    have apart : (⌊y⌋ : ℚ) ≠ n := by
      intro same
      rw [← same] at below
      rcases up with more | ⟨half, -⟩ <;> linarith
    have strict : ⌊y⌋ < n := lt_of_le_of_ne floor (fun same => apart (congrArg Int.cast same))
    omega
  · exact floor

theorem le_nearestEven {n : ℤ} (above : (n : ℚ) ≤ y) : n ≤ nearestEven y := by
  have floor : n ≤ ⌊y⌋ := Int.le_floor.mpr above
  unfold nearestEven
  split_ifs <;> omega

theorem nearestEven_le_add_half (y : ℚ) : (nearestEven y : ℚ) ≤ y + 1 / 2 := by
  have floor := Int.floor_le y
  unfold nearestEven
  split_ifs with up
  · push_cast
    rcases up with more | ⟨half, -⟩ <;> linarith
  · linarith

theorem unit_pos : 0 < unit p x := zpow_pos two_pos _

theorem Representable.whole (rep : Representable p y) (large : (2 : ℚ) ^ Int.log 2 x ≤ y) :
    ∃ n : ℤ, y = n * unit p x := by
  obtain ⟨m, e, few, rfl⟩ := rep
  have bits : (m : ℚ) < 2 ^ (p : ℤ) := by exact_mod_cast few
  -- the exponent cannot be smaller than that of the unit
  have exponent : Int.log 2 x - (p - 1) ≤ e := by
    by_contra low
    have small : (m : ℚ) * 2 ^ e < 2 ^ (p : ℤ) * 2 ^ e :=
      mul_lt_mul_of_pos_right bits (zpow_pos two_pos e)
    rw [← zpow_add₀ two_ne_zero] at small
    have bound : (2 : ℚ) ^ ((p : ℤ) + e) ≤ 2 ^ Int.log 2 x :=
      zpow_le_zpow_right₀ one_le_two (by omega)
    linarith
  obtain ⟨k, split⟩ := Int.le.dest exponent
  refine ⟨m * 2 ^ k, ?_⟩
  rw [unit, ← split, zpow_add₀ two_ne_zero, zpow_natCast]
  push_cast
  ring

theorem roundTo_le (positive : 0 < x) (rep : Representable p y) (below : x ≤ y) :
    roundTo p x ≤ y := by
  have floor := Int.zpow_log_le_self (b := 2) (by decide) positive
  push_cast at floor
  obtain ⟨n, rfl⟩ := rep.whole (floor.trans below)
  have fits : nearestEven (x / unit p x) ≤ n := nearestEven_le ((div_le_iff₀ unit_pos).mpr below)
  exact mul_le_mul_of_nonneg_right (Int.cast_le.mpr fits) unit_pos.le

theorem le_roundTo (positive : 0 < y) (bits : 0 < p) (rep : Representable p y) (below : y ≤ x) :
    y ≤ roundTo p x := by
  have positive' : 0 < x := positive.trans_le below
  have floor := Int.zpow_log_le_self (b := 2) (by decide) positive'
  push_cast at floor
  by_cases large : (2 : ℚ) ^ Int.log 2 x ≤ y
  · obtain ⟨n, rfl⟩ := rep.whole large
    have fits : n ≤ nearestEven (x / unit p x) := le_nearestEven ((le_div_iff₀ unit_pos).mpr below)
    exact mul_le_mul_of_nonneg_right (Int.cast_le.mpr fits) unit_pos.le
  · -- the power of two below `x` is in between
    have power : Representable p ((2 : ℚ) ^ Int.log 2 x) :=
      ⟨1, Int.log 2 x, Nat.one_lt_two_pow bits.ne', by rw [Nat.cast_one, one_mul]⟩
    obtain ⟨n, whole⟩ := power.whole le_rfl
    have fits : n ≤ nearestEven (x / unit p x) :=
      le_nearestEven ((le_div_iff₀ unit_pos).mpr (whole ▸ floor))
    have above : (2 : ℚ) ^ Int.log 2 x ≤ roundTo p x := by
      rw [whole]
      exact mul_le_mul_of_nonneg_right (Int.cast_le.mpr fits) unit_pos.le
    linarith

theorem roundTo_of_representable (positive : 0 < x) (bits : 0 < p) (rep : Representable p x) :
    roundTo p x = x :=
  le_antisymm (roundTo_le positive rep le_rfl) (le_roundTo positive bits rep le_rfl)

theorem representable_roundTo (bits : 0 < p) (positive : 0 < x) :
    Representable p (roundTo p x) := by
  have ceiling := Int.lt_zpow_succ_log_self (b := 2) (by decide) x
  push_cast at ceiling
  have units : x / unit p x ≤ ((2 ^ p : ℕ) : ℤ) := by
    rw [div_le_iff₀ unit_pos, unit, Int.cast_natCast, Nat.cast_pow, Nat.cast_ofNat, ← zpow_natCast,
      ← zpow_add₀ two_ne_zero]
    refine ceiling.le.trans (zpow_le_zpow_right₀ one_le_two (by omega))
  have most := nearestEven_le units
  have least := le_nearestEven (y := x / unit p x) (n := 0)
    (by rw [Int.cast_zero]; exact div_nonneg positive.le unit_pos.le)
  obtain ⟨m, whole⟩ := Int.eq_ofNat_of_zero_le least
  rw [whole] at most
  have few : m ≤ 2 ^ p := by exact_mod_cast most
  rcases few.lt_or_eq with less | full
  · exact ⟨m, Int.log 2 x - (p - 1), less, by rw [roundTo, whole, unit]; rfl⟩
  · -- a carry into the next binade
    refine ⟨1, Int.log 2 x + 1, Nat.one_lt_two_pow bits.ne', ?_⟩
    rw [roundTo, whole, full, unit, Nat.cast_one, one_mul]
    have split : Int.log 2 x + 1 = (p : ℤ) + (Int.log 2 x - (p - 1)) := by ring
    rw [split, zpow_add₀ two_ne_zero, zpow_natCast]
    norm_num

theorem representable_natCast {n : ℕ} (few : n < 2 ^ p) : Representable p n :=
  ⟨n, 0, few, by rw [zpow_zero, mul_one]⟩

theorem roundTo_zero (p : ℕ) : roundTo p 0 = 0 := by
  rw [roundTo, zero_div]
  simp [nearestEven]

theorem roundTo_nonneg (nonneg : 0 ≤ x) : 0 ≤ roundTo p x := by
  have whole : (0 : ℤ) ≤ nearestEven (x / unit p x) :=
    le_nearestEven (by rw [Int.cast_zero]; exact div_nonneg nonneg unit_pos.le)
  exact mul_nonneg (Int.cast_nonneg whole) unit_pos.le

theorem roundSigned_le (nonneg : 0 ≤ y) (rep : Representable p y) (below : x ≤ y) :
    roundSigned p x ≤ y := by
  unfold roundSigned
  split_ifs with negative
  · have positive := roundTo_nonneg (p := p) (neg_nonneg.mpr negative.le)
    linarith
  · rcases (Rat.not_lt.mp negative).lt_or_eq with positive | rfl
    · exact roundTo_le positive rep below
    · rw [roundTo_zero]
      exact nonneg

theorem le_roundSigned (nonneg : 0 ≤ y) (bits : 0 < p) (rep : Representable p y) (below : y ≤ x) :
    y ≤ roundSigned p x := by
  rw [roundSigned, if_neg (not_lt.mpr (nonneg.trans below))]
  rcases nonneg.lt_or_eq with positive | rfl
  · exact le_roundTo positive bits rep below
  · exact roundTo_nonneg below

theorem roundSigned_neg_le (positive : 0 < y) (bits : 0 < p) (rep : Representable p y)
    (below : x ≤ -y) : roundSigned p x ≤ -y := by
  have negative : x < 0 := by linarith
  rw [roundSigned, if_pos negative]
  exact neg_le_neg (le_roundTo positive bits rep (by linarith))

theorem roundSigned_natCast {n : ℕ} (bits : 0 < p) (few : n < 2 ^ p) : roundSigned p n = n := by
  rw [roundSigned, if_neg (Rat.not_lt.mpr (Nat.cast_nonneg n))]
  rcases Nat.eq_zero_or_pos n with rfl | positive
  · rw [Nat.cast_zero, roundTo_zero]
  · exact roundTo_of_representable (Nat.cast_pos.mpr positive) bits (representable_natCast few)

theorem roundTo_le_add {k : ℤ} (positive : 0 < x) (bound : x < 2 ^ (k + p)) :
    roundTo p x ≤ x + 2 ^ k / 2 := by
  have exponent : Int.log 2 x < k + p :=
    (Int.lt_zpow_iff_log_lt (b := 2) (by decide) positive).mp (by exact_mod_cast bound)
  have small : unit p x ≤ 2 ^ k := zpow_le_zpow_right₀ one_le_two (by omega)
  have step := mul_le_mul_of_nonneg_right (nearestEven_le_add_half (x / unit p x))
    (unit_pos (p := p) (x := x)).le
  rw [add_mul, div_mul_cancel₀ _ unit_pos.ne'] at step
  unfold roundTo
  linarith

/-- Below a multiple of a power of two, representable numbers keep the distance of that power, or
have a smaller exponent. -/
theorem Representable.gap (rep : Representable p x) (n k : ℤ) (below : x < n * 2 ^ k) :
    x ≤ n * 2 ^ k - 2 ^ k ∨ x < 2 ^ (k - 1 + p) := by
  obtain ⟨m, e, few, rfl⟩ := rep
  by_cases high : k ≤ e
  · left
    obtain ⟨j, rfl⟩ := Int.le.dest high
    have positive : (0 : ℚ) < 2 ^ k := zpow_pos two_pos k
    have scaled : (m : ℚ) * 2 ^ (k + (j : ℤ)) = (m * 2 ^ j : ℕ) * 2 ^ k := by
      rw [zpow_add₀ two_ne_zero, zpow_natCast]
      push_cast
      ring
    rw [scaled] at below ⊢
    have whole : ((m * 2 ^ j : ℕ) : ℤ) < n := by
      exact_mod_cast lt_of_mul_lt_mul_right below positive.le
    have next : ((m * 2 ^ j : ℕ) : ℚ) + 1 ≤ n := by exact_mod_cast whole
    have product := mul_le_mul_of_nonneg_right next positive.le
    linarith
  · right
    have bits : (m : ℚ) < 2 ^ (p : ℤ) := by exact_mod_cast few
    calc
      (m : ℚ) * 2 ^ e < 2 ^ (p : ℤ) * 2 ^ e := mul_lt_mul_of_pos_right bits (zpow_pos two_pos e)
      _ = 2 ^ ((p : ℤ) + e) := (zpow_add₀ two_ne_zero _ _).symm
      _ ≤ 2 ^ (k - 1 + p) := zpow_le_zpow_right₀ one_le_two (by omega)

theorem Representable.scale (rep : Representable p x) (k : ℤ) : Representable p (x * 2 ^ k) := by
  obtain ⟨m, e, few, rfl⟩ := rep
  exact ⟨m, e + k, few, by rw [zpow_add₀ two_ne_zero, mul_assoc]⟩

theorem nearestEven_eq {n : ℤ} (above : (n : ℚ) - 1 / 2 < y) (below : y < n + 1 / 2) :
    nearestEven y = n := by
  have floor := Int.floor_le y
  have ceiling := Int.lt_floor_add_one y
  unfold nearestEven
  by_cases left : y < n
  · have place : ⌊y⌋ = n - 1 := by
      rw [Int.floor_eq_iff]
      push_cast
      constructor <;> linarith
    rw [place]
    push_cast
    rw [if_pos (Or.inl (by linarith)), sub_add_cancel]
  · have place : ⌊y⌋ = n := by
      rw [Int.floor_eq_iff]
      constructor <;> linarith
    rw [place, if_neg]
    rintro (more | ⟨half, -⟩) <;> linarith

theorem roundTo_eq {n : ℤ} (above : n * unit p x - unit p x / 2 < x)
    (below : x < n * unit p x + unit p x / 2) : roundTo p x = n * unit p x := by
  have positive := unit_pos (p := p) (x := x)
  have near : nearestEven (x / unit p x) = n := by
    apply nearestEven_eq
    · rw [lt_div_iff₀ positive]
      linarith
    · rw [div_lt_iff₀ positive]
      linarith
  rw [roundTo, near]

theorem unit_eq {e : ℤ} (low : 2 ^ e ≤ x) (high : x < 2 ^ (e + 1)) :
    unit p x = 2 ^ (e - (p - 1)) := by
  have positive : 0 < x := (zpow_pos two_pos e).trans_le low
  have least : e ≤ Int.log 2 x :=
    (Int.zpow_le_iff_le_log (b := 2) (by decide) positive).mp (by exact_mod_cast low)
  have most : Int.log 2 x < e + 1 :=
    (Int.lt_zpow_iff_log_lt (b := 2) (by decide) positive).mp (by exact_mod_cast high)
  rw [unit, show Int.log 2 x = e by omega]

end Oflops.Lib.FloatRounding
