import Mathlib.Data.Finset.Card
import Mathlib.Data.List.ReduceOption

/-! Waiting until every one of a finite set of targets has turned up. Items arrive one at a time,
or none does; an alarm is raised at a target that is new once enough of them have been seen. -/

namespace Oflops.Lib.Coverage

variable {α : Type*}

theorem append_some (past : List α) (item : α) (items : List (Option α)) :
    past ++ (some item :: items).reduceOption = past ++ [item] ++ items.reduceOption := by
  rw [List.reduceOption_cons_of_some, List.append_assoc, List.singleton_append]

variable [DecidableEq α]

def covered (targets : Finset α) (items : List α) : Finset α := targets.filter (· ∈ items)

/-- For each arrival, whether it is a new target with which at least `threshold` are seen. -/
def alarms (targets : Finset α) (threshold : Nat) : List α → List (Option α) → List Bool
  | _, [] => []
  | past, none :: items => false :: alarms targets threshold past items
  | past, some item :: items =>
      decide (item ∈ targets ∧ item ∉ past ∧ threshold ≤ (covered targets (past ++ [item])).card) ::
        alarms targets threshold (past ++ [item]) items

/-- For each arrival, whether it is the first one after which all targets are seen. -/
def completions (targets : Finset α) : List α → List (Option α) → List Bool
  | _, [] => []
  | past, none :: items => false :: completions targets past items
  | past, some item :: items =>
      decide (covered targets past ≠ targets ∧ covered targets (past ++ [item]) = targets) ::
        completions targets (past ++ [item]) items

variable {targets : Finset α} {past : List α} {item : α}

theorem covered_subset (targets : Finset α) (items : List α) : covered targets items ⊆ targets :=
  Finset.filter_subset _ _

theorem covered_nil (targets : Finset α) : covered targets [] = ∅ := by
  simp [covered]

theorem mem_covered {items : List α} {target : α} :
    target ∈ covered targets items ↔ target ∈ targets ∧ target ∈ items :=
  Finset.mem_filter

theorem covered_append_subset (past more : List α) :
    covered targets past ⊆ covered targets (past ++ more) := by
  intro target seen
  rw [mem_covered] at seen ⊢
  exact ⟨seen.1, List.mem_append_left _ seen.2⟩

theorem covered_new (among : item ∈ targets) :
    covered targets (past ++ [item]) = insert item (covered targets past) := by
  ext target
  simp only [mem_covered, Finset.mem_insert, List.mem_append, List.mem_singleton]
  constructor
  · rintro ⟨inside, seen | rfl⟩
    · exact Or.inr ⟨inside, seen⟩
    · exact Or.inl rfl
  · rintro (rfl | ⟨inside, seen⟩)
    · exact ⟨among, Or.inr rfl⟩
    · exact ⟨inside, Or.inl seen⟩

theorem card_covered_new (among : item ∈ targets) (new : item ∉ past) :
    (covered targets (past ++ [item])).card = (covered targets past).card + 1 := by
  rw [covered_new among, Finset.card_insert_of_notMem]
  exact fun seen => new (mem_covered.mp seen).2

theorem covered_known (known : ¬ (item ∈ targets ∧ item ∉ past)) :
    covered targets (past ++ [item]) = covered targets past := by
  ext target
  simp only [mem_covered, List.mem_append, List.mem_singleton]
  constructor
  · rintro ⟨inside, seen | rfl⟩
    · exact ⟨inside, seen⟩
    · exact ⟨inside, not_not.mp fun new => known ⟨inside, new⟩⟩
  · rintro ⟨inside, seen⟩
    exact ⟨inside, Or.inl seen⟩

theorem card_covered_le (targets : Finset α) (items : List α) :
    (covered targets items).card ≤ targets.card :=
  Finset.card_le_card (covered_subset targets items)

theorem covered_eq_iff (items : List α) :
    covered targets items = targets ↔ targets.card ≤ (covered targets items).card :=
  ⟨fun all => (congrArg Finset.card all).ge,
    Finset.eq_of_subset_of_card_le (covered_subset targets items)⟩

theorem completes_iff :
    (covered targets past ≠ targets ∧ covered targets (past ++ [item]) = targets) ↔
      item ∈ targets ∧ item ∉ past ∧ targets.card ≤ (covered targets (past ++ [item])).card := by
  rw [ne_eq, covered_eq_iff, covered_eq_iff]
  constructor
  · rintro ⟨missing, all⟩
    have fresh : item ∈ targets ∧ item ∉ past := by
      by_contra known
      rw [covered_known known] at all
      exact missing all
    exact ⟨fresh.1, fresh.2, all⟩
  · rintro ⟨among, new, all⟩
    have grows := card_covered_new among new
    have most := card_covered_le targets (past ++ [item])
    exact ⟨by omega, all⟩

theorem alarms_card (targets : Finset α) (past : List α) (items : List (Option α)) :
    alarms targets targets.card past items = completions targets past items := by
  induction items generalizing past with
  | nil => rfl
  | cons arrival items ih =>
    cases arrival with
    | none => rw [alarms, completions, ih]
    | some item => rw [alarms, completions, ih, decide_eq_decide.mpr completes_iff.symm]

theorem completions_count (targets : Finset α) (past : List α) (items : List (Option α)) :
    (completions targets past items).count true =
      if covered targets past ≠ targets ∧
        covered targets (past ++ items.reduceOption) = targets then 1
      else 0 := by
  induction items generalizing past with
  | nil => simp [completions]
  | cons arrival items ih =>
    cases arrival with
    | none =>
      rw [completions, List.count_cons_of_ne (by decide), ih]
      rfl
    | some item =>
      rw [completions, List.count_cons, ih, append_some]
      by_cases before : covered targets past = targets
      · have still : covered targets (past ++ [item]) = targets :=
          Finset.Subset.antisymm (covered_subset _ _)
            (before.ge.trans (covered_append_subset past [item]))
        simp [before, still]
      · by_cases now : covered targets (past ++ [item]) = targets
        · have later : covered targets (past ++ [item] ++ items.reduceOption) = targets :=
            Finset.Subset.antisymm (covered_subset _ _)
              (now.ge.trans (covered_append_subset (past ++ [item]) _))
          rw [decide_eq_true ⟨before, now⟩, if_neg (fun missing => missing.1 now)]
          exact (if_pos ⟨before, later⟩).symm
        · simp [before, now]

theorem alarms_zero (targets : Finset α) (past : List α) (items : List (Option α)) :
    alarms targets 0 past items = alarms targets 1 past items := by
  induction items generalizing past with
  | nil => rfl
  | cons arrival items ih =>
    cases arrival with
    | none => rw [alarms, alarms, ih]
    | some item =>
      have seen : item ∈ targets → 1 ≤ (covered targets (past ++ [item])).card := by
        intro among
        rw [covered_new among]
        exact Finset.card_pos.mpr ⟨item, Finset.mem_insert_self item _⟩
      rw [alarms, alarms, ih, List.cons_eq_cons, decide_eq_decide]
      exact ⟨⟨fun new => ⟨new.1, new.2.1, seen new.1⟩, fun new => ⟨new.1, new.2.1, Nat.zero_le _⟩⟩,
        rfl⟩

theorem alarms_early (targets : Finset α) (past : List α) (items : List (Option α))
    (before : (covered targets past).card + 1 < targets.card) :
    alarms targets (targets.card - 1) past items = completions targets past items ↔
      (covered targets (past ++ items.reduceOption)).card + 1 < targets.card := by
  induction items generalizing past with
  | nil => simpa [alarms, completions] using before
  | cons arrival items ih =>
    cases arrival with
    | none =>
      rw [alarms, completions, List.cons_eq_cons, ih past before]
      exact and_iff_right rfl
    | some item =>
      have later : (covered targets (past ++ [item])).card ≤
          (covered targets (past ++ [item] ++ items.reduceOption)).card :=
        Finset.card_le_card (covered_append_subset _ _)
      rw [alarms, completions, List.cons_eq_cons, append_some, decide_eq_decide, completes_iff]
      by_cases soon : (covered targets (past ++ [item])).card + 1 < targets.card
      · rw [ih _ soon]
        refine and_iff_right ⟨fun ⟨_, _, enough⟩ => ?_, fun ⟨_, _, enough⟩ => ?_⟩
        · omega
        · omega
      · -- the arrival that leaves one target missing
        have fresh : item ∈ targets ∧ item ∉ past := by
          by_contra known
          rw [covered_known known] at soon
          exact soon before
        have grows := card_covered_new fresh.1 fresh.2
        constructor
        · rintro ⟨same, -⟩
          have all := (same.mp ⟨fresh.1, fresh.2, by omega⟩).2.2
          omega
        · intro few
          omega

theorem alarms_one_short_iff {targets : Finset α} (some' : 1 ≤ targets.card)
    (items : List (Option α)) :
    alarms targets (targets.card - 1) [] items = completions targets [] items ↔
      targets.card = 1 ∨ (covered targets items.reduceOption).card + 1 < targets.card := by
  rcases Nat.eq_or_lt_of_le some' with single | several
  · have right : alarms targets (targets.card - 1) [] items = completions targets [] items := by
      rw [← alarms_card, ← single, alarms_zero]
    exact iff_of_true right (Or.inl single.symm)
  · have missing : (covered targets []).card + 1 < targets.card := by
      rw [covered_nil, Finset.card_empty]
      exact several
    rw [alarms_early targets [] items missing, List.nil_append]
    exact (or_iff_right (by omega)).symm

end Oflops.Lib.Coverage
