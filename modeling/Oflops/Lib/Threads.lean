import Mathlib.Algebra.BigOperators.Group.Finset.Basic
import Mathlib.Algebra.BigOperators.Group.List.Basic
import Mathlib.Algebra.GroupWithZero.Nat
import Mathlib.Logic.Function.Basic

/-! Threads as lists of the operations they still have to do, and weights of operations that are
summed over all threads: how a sum changes when one thread goes on. -/

namespace Oflops.Lib.Threads

variable {Thread Op : Type*}

def weigh (weight : Op → Nat) (code : List Op) : Nat := (code.map weight).sum

@[simp] theorem weigh_nil (weight : Op → Nat) : weigh weight [] = 0 := rfl

@[simp] theorem weigh_cons (weight : Op → Nat) (op : Op) (code : List Op) :
    weigh weight (op :: code) = weight op + weigh weight code := List.sum_cons

@[simp] theorem weigh_append (weight : Op → Nat) (first second : List Op) :
    weigh weight (first ++ second) = weigh weight first + weigh weight second := by
  rw [weigh, List.map_append, List.sum_append, weigh, weigh]

theorem weigh_eq_zero {weight : Op → Nat} {code : List Op} (light : ∀ op ∈ code, weight op = 0) :
    weigh weight code = 0 := by
  apply List.sum_eq_zero
  intro n member
  obtain ⟨op, inside, rfl⟩ := List.mem_map.mp member
  exact light op inside

variable [Fintype Thread] [DecidableEq Thread]

def total (weight : Op → Nat) (code : Thread → List Op) : Nat :=
  ∑ thread, weigh weight (code thread)

theorem total_update (weight : Op → Nat) (code : Thread → List Op) (thread : Thread)
    (next : List Op) :
    total weight (Function.update code thread next) + weigh weight (code thread) =
      total weight code + weigh weight next := by
  have others : ∑ other ∈ Finset.univ.erase thread,
      weigh weight (Function.update code thread next other) =
      ∑ other ∈ Finset.univ.erase thread, weigh weight (code other) := by
    apply Finset.sum_congr rfl
    intro other member
    rw [Function.update_of_ne (Finset.ne_of_mem_erase member)]
  unfold total
  rw [← Finset.add_sum_erase _ _ (Finset.mem_univ thread),
    ← Finset.add_sum_erase _ (fun thread => weigh weight (code thread)) (Finset.mem_univ thread),
    others, Function.update_self]
  omega

theorem total_advance (weight : Op → Nat) {code : Thread → List Op} {thread : Thread} {op : Op}
    {rest : List Op} (current : code thread = op :: rest) (next : List Op) :
    total weight (Function.update code thread (next ++ rest)) + weight op =
      total weight code + weigh weight next := by
  have changed := total_update weight code thread (next ++ rest)
  rw [current, weigh_cons, weigh_append] at changed
  omega

theorem total_wake (weight : Op → Nat) {code : Thread → List Op} {thread : Thread}
    (idle : code thread = []) (next : List Op) :
    total weight (Function.update code thread next) = total weight code + weigh weight next := by
  have changed := total_update weight code thread next
  rwa [idle, weigh_nil, Nat.add_zero] at changed

end Oflops.Lib.Threads
