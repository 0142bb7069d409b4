import Mathlib.Algebra.Order.Monoid.Defs
import Mathlib.Algebra.Order.Monoid.Unbundled.Basic
import Mathlib.Data.List.Basic
import Mathlib.Logic.Function.Basic

/-! A scheduler of periodic jobs: each job has a time at which it is due next and a delay that
is added whenever it is served. The job that is due first is served, the lowest one of several. -/

namespace Oflops.Lib.Schedule

variable {ι T : Type*} [LinearOrder ι] [AddCommMonoid T] [LinearOrder T]

structure First (active : ι → Prop) (due : ι → T) (i : ι) : Prop where
  known : active i
  least : ∀ j, active j → due i ≤ due j
  lowest : ∀ j, active j → j < i → due i < due j

def advance (delay due : ι → T) (i : ι) : ι → T := Function.update due i (due i + delay i)

/-- The jobs served, each with the time it was due at. -/
inductive Run (active : ι → Prop) (delay : ι → T) : (ι → T) → List (ι × T) → (ι → T) → Prop where
  | done (due : ι → T) : Run active delay due [] due
  | serve {due final : ι → T} {i : ι} {later : List (ι × T)} (first : First active due i)
      (run : Run active delay (advance delay due i) later final) :
      Run active delay due ((i, due i) :: later) final

def served (i : ι) (log : List (ι × T)) : Nat := log.countP (fun entry => entry.1 = i)

variable {active : ι → Prop} {delay due final : ι → T} {log : List (ι × T)}

theorem Run.final_eq (run : Run active delay due log final) (i : ι) :
    final i = due i + served i log • delay i := by
  induction run with
  | done due => simp [served]
  | @serve due final k later first run ih =>
    rw [ih]
    by_cases same : k = i
    · subst same
      rw [advance, Function.update_self, served, served, List.countP_cons_of_pos (by simp),
        succ_nsmul', add_assoc]
    · simp [advance, served, same, Ne.symm same]

theorem Run.before {before later : List (ι × T)} {i : ι} {t : T}
    (run : Run active delay due (before ++ (i, t) :: later) final) :
    ∃ mid, Run active delay due before mid ∧ First active mid i ∧ t = mid i := by
  induction before generalizing due with
  | nil =>
    cases run with
    | serve first _ => exact ⟨due, Run.done due, first, rfl⟩
  | cons entry before ih =>
    cases run with
    | serve first run =>
      obtain ⟨mid, start, next, time⟩ := ih run
      exact ⟨mid, Run.serve first start, next, time⟩

/-- Each service is at the job's own next time, and no active job is due earlier, nor a lower
one at the same time. -/
theorem Run.entry {before later : List (ι × T)} {i : ι} {t : T}
    (run : Run active delay due (before ++ (i, t) :: later) final) :
    t = due i + served i before • delay i ∧
      ∀ j, active j → t ≤ due j + served j before • delay j ∧
        (j < i → t < due j + served j before • delay j) := by
  obtain ⟨mid, start, first, rfl⟩ := run.before
  refine ⟨start.final_eq i, fun j known => ?_⟩
  rw [← start.final_eq j]
  exact ⟨first.least j known, first.lowest j known⟩

section Ordered
variable [IsOrderedAddMonoid T]

theorem Run.bound (nonneg : ∀ i, active i → 0 ≤ delay i) {t : T}
    (run : Run active delay due log final) (late : ∀ j, active j → t ≤ due j) :
    ∀ entry ∈ log, t ≤ entry.2 := by
  induction run with
  | done due =>
    intro entry member
    cases member
  | @serve due final i later first run ih =>
    intro entry member
    rcases List.mem_cons.mp member with rfl | behind
    · exact late i first.known
    · refine ih (fun j known => ?_) entry behind
      by_cases same : j = i
      · subst same
        rw [advance, Function.update_self]
        exact le_add_of_le_of_nonneg (late j known) (nonneg j known)
      · rw [advance, Function.update_of_ne same]
        exact late j known

theorem Run.sorted (nonneg : ∀ i, active i → 0 ≤ delay i)
    (run : Run active delay due log final) : (log.map Prod.snd).Pairwise (· ≤ ·) := by
  induction run with
  | done due => exact List.Pairwise.nil
  | @serve due final i later first run ih =>
    refine List.Pairwise.cons ?_ ih
    intro time member
    obtain ⟨entry, behind, rfl⟩ := List.mem_map.mp member
    refine run.bound nonneg (fun j known => ?_) entry behind
    by_cases same : j = i
    · subst same
      rw [advance, Function.update_self]
      exact le_add_of_nonneg_right (nonneg j known)
    · rw [advance, Function.update_of_ne same]
      exact first.least j known

end Ordered

end Oflops.Lib.Schedule
