import Mathlib.Algebra.Order.Ring.Int
import Mathlib.Data.List.Induction

/-! A walk of unit steps on the integers that is reflected at zero: a step down from zero stays
there. -/

namespace Oflops.Lib.ReflectedWalk

inductive Move where
  | up
  | down
  deriving DecidableEq, Repr

def move (height : Int) : Move → Int
  | .up => height + 1
  | .down => max (height - 1) 0

def walk (moves : List Move) : Int := moves.foldl move 0

def balance (moves : List Move) : Int := moves.count .up - moves.count .down

theorem walk_append (moves : List Move) (last : Move) :
    walk (moves ++ [last]) = move (walk moves) last := by
  rw [walk, List.foldl_append, List.foldl_cons, List.foldl_nil, walk]

theorem balance_up (moves : List Move) : balance (moves ++ [.up]) = balance moves + 1 := by
  simp [balance, List.count_append]
  omega

theorem balance_down (moves : List Move) : balance (moves ++ [.down]) = balance moves - 1 := by
  simp [balance, List.count_append]
  omega

theorem walk_nonneg (moves : List Move) : 0 ≤ walk moves := by
  induction moves using List.reverseRecOn with
  | nil => exact le_refl 0
  | append_singleton moves last ih =>
    rw [walk_append]
    cases last with
    | up => exact Int.le_add_one ih
    | down => exact le_max_right _ _

theorem balance_le_walk (moves : List Move) : balance moves ≤ walk moves := by
  induction moves using List.reverseRecOn with
  | nil => exact le_refl 0
  | append_singleton moves last ih =>
    rw [walk_append]
    cases last with
    | up =>
      rw [balance_up]
      exact Int.add_le_add_right ih 1
    | down =>
      rw [balance_down]
      exact le_max_of_le_left (Int.sub_le_sub_right ih 1)

theorem walk_le_ups (moves : List Move) : walk moves ≤ moves.count .up := by
  induction moves using List.reverseRecOn with
  | nil => exact le_refl 0
  | append_singleton moves last ih =>
    rw [walk_append]
    cases last with
    | up =>
      simp only [move, List.count_append, List.count_singleton_self, Nat.cast_add, Nat.cast_one]
      exact Int.add_le_add_right ih 1
    | down =>
      simp only [move, List.count_append]
      omega

/-- A walk that never wants to go below zero is a free walk. -/
theorem walk_eq_balance {moves : List Move} (free : ∀ early, early <+: moves → 0 ≤ balance early) :
    walk moves = balance moves := by
  induction moves using List.reverseRecOn with
  | nil => rfl
  | append_singleton moves last ih =>
    have whole := free _ (List.prefix_refl _)
    have before := ih (fun early shorter => free early (shorter.trans (List.prefix_append _ _)))
    rw [walk_append]
    cases last with
    | up => rw [balance_up, move, before]
    | down =>
      rw [balance_down] at whole ⊢
      rw [move, before, max_eq_left whole]

end Oflops.Lib.ReflectedWalk
