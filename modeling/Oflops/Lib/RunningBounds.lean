import Mathlib.Order.Bounds.Basic
import Mathlib.Order.MinMax

/-! Running minimum and maximum: which values decide the bound that is kept over several batches. -/

namespace Oflops.Lib.RunningBounds

variable {α : Type*} [LinearOrder α]

theorem foldl_min_isLeast (start : α) (values : List α) :
    IsLeast {x | x ∈ start :: values} (values.foldl min start) := by
  induction values generalizing start with
  | nil => exact ⟨List.mem_singleton.mpr rfl, fun x member => (List.mem_singleton.mp member).ge⟩
  | cons value values ih =>
    obtain ⟨member, lower⟩ := ih (min start value)
    rw [List.foldl_cons]
    constructor
    · rcases List.mem_cons.mp member with first | later
      · rw [Set.mem_ofPred_eq, first]
        rcases min_choice start value with same | same <;> simp [same]
      · exact List.mem_cons_of_mem _ (List.mem_cons_of_mem _ later)
    · intro x inside
      have first := lower List.mem_cons_self
      rcases List.mem_cons.mp inside with rfl | inside
      · exact first.trans (min_le_left _ _)
      rcases List.mem_cons.mp inside with rfl | inside
      · exact first.trans (min_le_right _ _)
      · exact lower (List.mem_cons_of_mem _ inside)

theorem own_isLeast_iff (start : α) (past own : List α) :
    IsLeast {x | x ∈ own} ((past ++ own).foldl min start) ↔ ∀ x ∈ start :: past,
      ∃ y ∈ own, y ≤ x := by
  obtain ⟨member, lower⟩ := foldl_min_isLeast start (past ++ own)
  constructor
  · rintro ⟨mine, -⟩ x inside
    refine ⟨_, mine, lower ?_⟩
    rw [Set.mem_ofPred_eq, ← List.cons_append]
    exact List.mem_append_left _ inside
  · intro reached
    refine ⟨?_, fun x inside => lower (List.mem_cons_of_mem _ (List.mem_append_right _ inside))⟩
    rw [Set.mem_ofPred_eq, ← List.cons_append] at member
    rcases List.mem_append.mp member with early | mine
    · obtain ⟨y, inside, below⟩ := reached _ early
      have above := lower (List.mem_cons_of_mem _ (List.mem_append_right past inside))
      exact le_antisymm above below ▸ inside
    · exact mine

theorem own_isGreatest_iff (start : α) (past own : List α) :
    IsGreatest {x | x ∈ own} ((past ++ own).foldl max start) ↔
      ∀ x ∈ start :: past, ∃ y ∈ own, x ≤ y :=
  own_isLeast_iff (α := αᵒᵈ) start past own

end Oflops.Lib.RunningBounds
