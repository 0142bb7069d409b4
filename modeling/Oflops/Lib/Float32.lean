import Mathlib.Data.Nat.Log
import Mathlib.Tactic.NormNum
import Mathlib.Tactic.SplitIfs

/-! Integers converted to `float`: rounded to 24 significant bits, ties to even. -/

namespace Oflops.Lib.Float32

def ulp (n : Nat) : Nat := 2 ^ (Nat.log 2 n - 23)

def toFloat (n : Nat) : Nat :=
  let q := n / ulp n
  let r := n % ulp n
  if 2 * r > ulp n ∨ 2 * r = ulp n ∧ q % 2 = 1 then (q + 1) * ulp n else q * ulp n

theorem toFloat_small {n : Nat} (small : n < 2 ^ 24) : toFloat n = n := by
  have one : ulp n = 1 := by
    have bits : Nat.log 2 n < 24 := Nat.log_lt_of_lt_pow' (by decide) small
    rw [ulp, show Nat.log 2 n - 23 = 0 by omega, pow_zero]
  simp [toFloat, one, Nat.mod_one]

theorem toFloat_le {n k : Nat} (bound : n < 2 ^ k) : toFloat n ≤ 2 ^ k := by
  have bits : Nat.log 2 n ≤ k :=
    (Nat.log_mono_right bound.le).trans_eq (Nat.log_pow (by decide) k)
  obtain ⟨m, whole⟩ : ulp n ∣ 2 ^ k := pow_dvd_pow 2 (by omega)
  have below : n / ulp n < m := Nat.div_lt_of_lt_mul (whole ▸ bound)
  have up : (n / ulp n + 1) * ulp n ≤ 2 ^ k := by
    rw [whole, mul_comm]
    exact Nat.mul_le_mul_left _ below
  have down : n / ulp n * ulp n ≤ (n / ulp n + 1) * ulp n :=
    Nat.mul_le_mul_right _ (Nat.le_succ _)
  unfold toFloat
  dsimp only
  split_ifs
  · exact up
  · exact down.trans up

theorem le_toFloat {n k : Nat} (bound : 2 ^ k ≤ n) : 2 ^ k ≤ toFloat n := by
  have positive : n ≠ 0 := ((Nat.two_pow_pos k).trans_le bound).ne'
  have bits : k ≤ Nat.log 2 n := (Nat.le_log_iff_pow_le (by decide) positive).mpr bound
  obtain ⟨m, whole⟩ : ulp n ∣ 2 ^ Nat.log 2 n := pow_dvd_pow 2 (Nat.sub_le _ _)
  have least : m ≤ n / ulp n := by
    rw [Nat.le_div_iff_mul_le (by unfold ulp; positivity), mul_comm, ← whole]
    exact Nat.pow_log_le_self 2 positive
  have down : 2 ^ k ≤ n / ulp n * ulp n := by
    calc
      2 ^ k ≤ 2 ^ Nat.log 2 n := Nat.pow_le_pow_right (by decide) bits
      _ = m * ulp n := by rw [whole, mul_comm]
      _ ≤ n / ulp n * ulp n := Nat.mul_le_mul_right _ least
  have up : n / ulp n * ulp n ≤ (n / ulp n + 1) * ulp n := Nat.mul_le_mul_right _ (Nat.le_succ _)
  unfold toFloat
  dsimp only
  split_ifs
  · exact down.trans up
  · exact down

end Oflops.Lib.Float32
