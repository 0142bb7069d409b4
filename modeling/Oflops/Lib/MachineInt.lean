import Mathlib.Data.Int.ModEq
import Mathlib.Tactic.NormNum

/-! Conversions to fixed-width C integers. Signed conversions wrap around modulo the
width, as the usual compilers define them. -/

namespace Oflops.Lib.MachineInt

def int32 (x : Int) : Int := x.bmod (2 ^ 32)

def int64 (x : Int) : Int := x.bmod (2 ^ 64)

/-- The value of a signed number once it is compared with an unsigned 64-bit one. -/
def uint64 (x : Int) : Int := x % 2 ^ 64

/-- A result of signed arithmetic that is no `int` has no value. -/
def checkedInt (x : Int) : Option Int := if -2 ^ 31 ≤ x ∧ x < 2 ^ 31 then some x else none

theorem checkedInt_eq_some {x y : Int} :
    checkedInt x = some y ↔ (-2 ^ 31 ≤ x ∧ x < 2 ^ 31) ∧ x = y := by
  rw [checkedInt, Option.ite_none_right_eq_some, Option.some.injEq]

/-- A number of things that is kept in an `int`. -/
def intCount (n : Nat) : Option Nat := if n < 2 ^ 31 then some n else none

theorem intCount_eq_some {n m : Nat} : intCount n = some m ↔ n < 2 ^ 31 ∧ n = m := by
  rw [intCount, Option.ite_none_right_eq_some, Option.some.injEq]

theorem int32_of_range {x : Int} (low : -2 ^ 31 ≤ x) (high : x < 2 ^ 31) : int32 x = x := by
  unfold int32
  rw [Int.bmod_eq_of_le]
  · norm_num
    omega
  · norm_num
    omega

theorem int64_of_range {x : Int} (low : -2 ^ 63 ≤ x) (high : x < 2 ^ 63) : int64 x = x := by
  unfold int64
  rw [Int.bmod_eq_of_le]
  · norm_num
    omega
  · norm_num
    omega

/-- Only the low 32 bits of an intermediate 64-bit result matter. -/
theorem int32_int64 (x : Int) : int32 (int64 x) = int32 x :=
  Int.bmod_bmod_of_dvd (by norm_num)

theorem int64_modEq (x : Int) : int64 x ≡ x [ZMOD 2 ^ 32] := by
  unfold int64
  rw [Int.bmod_def]
  norm_num [Int.ModEq]
  split_ifs <;> omega

theorem int32_eq_of_modEq {x y : Int} (same : x ≡ y [ZMOD 2 ^ 32]) : int32 x = int32 y := by
  unfold int32
  rw [← Int.emod_bmod x, ← Int.emod_bmod y]
  exact congrArg (Int.bmod · _) same

theorem int32_pos_iff (x : Int) : 0 < int32 x ↔ 0 < x % 2 ^ 32 ∧ x % 2 ^ 32 < 2 ^ 31 := by
  unfold int32
  rw [Int.bmod_def]
  norm_num
  split_ifs with small <;> omega

theorem int32_le {x : Int} (positive : 0 < x) : int32 x ≤ x := by
  unfold int32
  rw [Int.bmod_def]
  norm_num
  split_ifs <;> omega

theorem int32_neg {x : Int} (low : 2 ^ 31 ≤ x) (high : x < 2 ^ 32) : int32 x < 0 := by
  unfold int32
  rw [Int.bmod_def]
  norm_num
  split_ifs with small <;> omega

theorem toNat_ofInt {x : Int} (low : 0 ≤ x) (high : x < 2 ^ 32) :
    ((UInt32.ofInt x).toNat : Int) = x := by
  simp only [UInt32.ofInt, UInt32.toNat_ofNat']
  omega

end Oflops.Lib.MachineInt
