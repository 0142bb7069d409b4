import Mathlib.Data.List.Basic
import Mathlib.Tactic.SplitIfs

/-! Arrays with one slot for each key, which keep the first value stored under the key, or the last
one. A slot that still counts as unset may be written; an index outside the array has no result. -/

namespace Oflops.Lib.Slots

variable {α : Type*}

def under (i : Nat) (past : List (Nat × α)) : List α :=
  (past.filter fun item => item.1 = i).map Prod.snd

@[simp] theorem under_nil (i : Nat) : under i ([] : List (Nat × α)) = [] := rfl

theorem under_concat (i j : Nat) (x : α) (past : List (Nat × α)) :
    under i (past ++ [(j, x)]) = under i past ++ if j = i then [x] else [] := by
  unfold under
  rw [List.filter_append, List.map_append]
  split_ifs with same <;> simp [same]

theorem under_ne_nil_iff {i : Nat} {past : List (Nat × α)} :
    under i past ≠ [] ↔ ∃ x, (i, x) ∈ past := by
  unfold under
  rw [← List.isEmpty_eq_false_iff, List.isEmpty_eq_false_iff_exists_mem]
  simp

def storeFirst (unset : α → Bool) (slots : List α) (id : Int) (x : α) : Option (List α) :=
  if id < 0 then none
  else do
    let old ← slots[id.toNat]?
    some (if unset old then slots.set id.toNat x else slots)

def storeLast (slots : List α) (id : Int) (x : α) : Option (List α) :=
  if id < 0 ∨ slots.length ≤ id then none else some (slots.set id.toNat x)

/-- The value that a slot has after these were stored: the first one that does not count as unset,
or the last one if they all do. -/
def settled (unset : α → Bool) (blank : α) (values : List α) : α :=
  (values.find? fun x => !unset x).getD (values.getLast?.getD blank)

theorem settled_concat {unset : α → Bool} {blank : α} (empty : unset blank = true) (values : List α)
    (x : α) :
    settled unset blank (values ++ [x]) =
      if unset (settled unset blank values) then x else settled unset blank values := by
  unfold settled
  cases found : values.find? fun x => !unset x with
  | some first =>
    have set := List.find?_some found
    have kept : ¬unset first = true := by simpa using set
    rw [List.find?_append, found, Option.some_or, Option.getD_some, Option.getD_some, if_neg kept]
  | none =>
    have all : unset (values.getLast?.getD blank) = true := by
      cases last : values.getLast? with
      | none => exact empty
      | some y => simpa using List.find?_eq_none.mp found y (List.mem_of_getLast? last)
    rw [List.find?_append, found, Option.none_or, Option.getD_none, if_pos all,
      List.getLast?_concat]
    cases here : unset x <;> simp [here]

section
variable {unset : α → Bool} {slots : List α}

theorem storeFirst_inside {i : Nat} {old : α} (inside : slots[i]? = some old) (x : α) :
    storeFirst unset slots i x = some (if unset old then slots.set i x else slots) := by
  have index : ¬((i : Int) < 0) := by omega
  rw [storeFirst, if_neg index, Int.toNat_natCast, inside]
  rfl

theorem storeFirst_outside {id : Int} (x : α) (outside : id < 0 ∨ slots.length ≤ id) :
    storeFirst unset slots id x = none := by
  unfold storeFirst
  split_ifs with negative
  · rfl
  · rw [List.getElem?_eq_none (by omega)]
    rfl

end

/-! ### What one store does to the slots -/

section
variable {unset : α → Bool} {slots : List α} {blank : α} {i n : Nat}

theorem getD_set (length : slots.length = n) (inside : i < n) (x : α) (j : Nat) :
    (slots.set i x)[j]?.getD blank = if j = i then x else slots[j]?.getD blank := by
  split_ifs with same
  · rw [same, List.getElem?_set_self (by rw [length]; exact inside), Option.getD_some]
  · rw [List.getElem?_set_ne (Ne.symm same)]

theorem storeFirst_slots (blank : α) (length : slots.length = n) (inside : i < n) (x : α) :
    ∃ after, storeFirst unset slots i x = some after ∧ after.length = n ∧
      ∀ j, after[j]?.getD blank =
      if j = i ∧ unset (slots[i]?.getD blank) = true then x else slots[j]?.getD blank := by
  obtain ⟨old, here⟩ : ∃ old, slots[i]? = some old :=
    ⟨_, List.getElem?_eq_getElem (length ▸ inside)⟩
  refine ⟨_, storeFirst_inside here x, ?_, ?_⟩
  · split_ifs
    · rw [List.length_set, length]
    · exact length
  · intro j
    rw [here, Option.getD_some]
    by_cases free : unset old = true
    · rw [if_pos free, getD_set length inside]
      simp only [free, and_true]
    · rw [if_neg free, if_neg (fun both => free both.2)]

theorem storeLast_slots (blank : α) (length : slots.length = n) (inside : i < n) (x : α) :
    ∃ after, storeLast slots i x = some after ∧ after.length = n ∧ ∀ j, after[j]?.getD blank =
      if j = i then x else slots[j]?.getD blank := by
  have index : ¬((i : Int) < 0 ∨ slots.length ≤ (i : Int)) := by omega
  rw [storeLast, if_neg index, Int.toNat_natCast]
  exact ⟨_, rfl, by rw [List.length_set, length], getD_set length inside x⟩

end

/-- Every slot has settled on a value of its key. -/
def HoldsFirst (unset : α → Bool) (n : Nat) (blank : α) (past : List (Nat × α)) (slots : List α) :
    Prop :=
  slots.length = n ∧ ∀ i < n, slots[i]? = some (settled unset blank (under i past))

/-- Every slot holds the first value of its key, written when the key was new. -/
def HoldsNew (n : Nat) (blank : α) (past : List (Nat × α)) (slots : List α) : Prop :=
  slots.length = n ∧ ∀ i < n, slots[i]? = some ((under i past).head?.getD blank)

variable {unset : α → Bool} {n : Nat} {blank : α} {past : List (Nat × α)} {slots : List α}

theorem holdsFirst_blank (unset : α → Bool) (n : Nat) (blank : α) :
    HoldsFirst unset n blank [] (List.replicate n blank) := by
  refine ⟨List.length_replicate, ?_⟩
  intro i inside
  rw [List.getElem?_replicate_of_lt inside]
  rfl

theorem holdsNew_blank (n : Nat) (blank : α) : HoldsNew n blank [] (List.replicate n blank) := by
  refine ⟨List.length_replicate, ?_⟩
  intro i inside
  rw [List.getElem?_replicate_of_lt inside]
  rfl

theorem HoldsFirst.store (holds : HoldsFirst unset n blank past slots) (empty : unset blank = true)
    {i : Nat} (inside : i < n) (x : α) :
    ∃ after, storeFirst unset slots i x = some after ∧
      HoldsFirst unset n blank (past ++ [(i, x)]) after := by
  obtain ⟨length, values⟩ := holds
  refine ⟨_, storeFirst_inside (values i inside) x, ?_, ?_⟩
  · split_ifs
    · rw [List.length_set, length]
    · exact length
  · intro j here
    rw [under_concat]
    by_cases same : i = j
    · subst same
      rw [if_pos rfl, settled_concat empty]
      split_ifs
      · rw [List.getElem?_set_self (by rw [length]; exact inside)]
      · exact values i inside
    · rw [if_neg same, List.append_nil]
      split_ifs
      · rw [List.getElem?_set_ne same, values j here]
      · exact values j here

theorem HoldsNew.store (holds : HoldsNew n blank past slots) {i : Nat} (inside : i < n)
    (new : under i past = []) (x : α) :
    ∃ after, storeLast slots i x = some after ∧ HoldsNew n blank (past ++ [(i, x)]) after := by
  obtain ⟨length, values⟩ := holds
  have index : ¬((i : Int) < 0 ∨ slots.length ≤ (i : Int)) := by omega
  rw [storeLast, if_neg index, Int.toNat_natCast]
  refine ⟨_, rfl, ?_, ?_⟩
  · rw [List.length_set, length]
  · intro j here
    rw [under_concat]
    by_cases same : i = j
    · subst same
      rw [List.getElem?_set_self (by rw [length]; exact inside), if_pos rfl, new]
      rfl
    · rw [List.getElem?_set_ne same, values j here, if_neg same, List.append_nil]

theorem HoldsNew.skip (holds : HoldsNew n blank past slots) {i : Nat} (known : under i past ≠ [])
    (x : α) : HoldsNew n blank (past ++ [(i, x)]) slots := by
  refine ⟨holds.1, ?_⟩
  intro j here
  rw [under_concat, holds.2 j here]
  by_cases same : i = j
  · subst same
    obtain ⟨first, rest, before⟩ := List.exists_cons_of_ne_nil known
    rw [before]
    rfl
  · rw [if_neg same, List.append_nil]

end Oflops.Lib.Slots
