import Mathlib.Data.List.Range
import Mathlib.Logic.Function.Basic

/-! Ring buffers: a fixed number of slots, the one that is written next and how many of the slots
before it are in use. A full ring overwrites its oldest entry. -/

namespace Oflops.Lib.RingBuffer

variable {α : Type*} {n : Nat}

@[ext]
structure Slots (α : Type*) (n : Nat) where
  slots : Nat → α
  head : Nat
  count : Nat
  head_lt : head < n
  count_le : count ≤ n

namespace Slots

variable (ring : Slots α n)

def place (i : Nat) : Nat := if i < ring.head then ring.head - 1 - i else ring.head + n - 1 - i

def newest (i : Nat) : α := ring.slots (ring.place i)

def toList : List α := ((List.range ring.count).map ring.newest).reverse

def push (entry : α) : Slots α n where
  slots := Function.update ring.slots ring.head entry
  head := if ring.head + 1 = n then 0 else ring.head + 1
  count := if ring.count < n then ring.count + 1 else ring.count
  head_lt := by
    have bound := ring.head_lt
    split_ifs <;> omega
  count_le := by
    have bound := ring.count_le
    split_ifs <;> omega

def pop : Slots α n where
  slots := ring.slots
  head := if ring.head = 0 then n - 1 else ring.head - 1
  count := ring.count - 1
  head_lt := by
    have bound := ring.head_lt
    split_ifs <;> omega
  count_le := (Nat.sub_le _ _).trans ring.count_le

@[simp] theorem toList_length : ring.toList.length = ring.count := by
  rw [toList, List.length_reverse, List.length_map, List.length_range]

theorem push_newest_zero (entry : α) : (ring.push entry).newest 0 = entry := by
  have bound := ring.head_lt
  have place : (ring.push entry).place 0 = ring.head := by
    unfold Slots.place push
    dsimp only
    split_ifs <;> omega
  rw [newest, place]
  exact Function.update_self _ _ _

theorem push_newest_succ (entry : α) {i : Nat} (inside : i + 1 < n) :
    (ring.push entry).newest (i + 1) = ring.newest i := by
  have bound := ring.head_lt
  have place : (ring.push entry).place (i + 1) = ring.place i := by
    unfold Slots.place push
    dsimp only
    split_ifs <;> omega
  have elsewhere : ring.place i ≠ ring.head := by
    unfold Slots.place
    split_ifs <;> omega
  rw [newest, place]
  exact Function.update_of_ne elsewhere _ _

theorem pop_newest {i : Nat} (inside : i + 1 < n) : ring.pop.newest i = ring.newest (i + 1) := by
  have bound := ring.head_lt
  have place : ring.pop.place i = ring.place (i + 1) := by
    unfold Slots.place pop
    dsimp only
    split_ifs <;> omega
  rw [newest, place]
  rfl

theorem push_range (entry : α) {count : Nat} (inside : count < n) :
    (List.range (count + 1)).map (ring.push entry).newest = entry ::
      (List.range count).map ring.newest := by
  rw [List.range_succ_eq_map, List.map_cons, List.map_map, push_newest_zero]
  congr 1
  apply List.map_congr_left
  intro i member
  have small := List.mem_range.mp member
  exact ring.push_newest_succ entry (by omega)

theorem push_toList (entry : α) :
    (ring.push entry).toList = (ring.toList ++ [entry]).drop (ring.count + 1 - n) := by
  have bound := ring.count_le
  have positive := ring.head_lt
  by_cases room : ring.count < n
  · have count : (ring.push entry).count = ring.count + 1 := if_pos room
    rw [toList, count, ring.push_range entry room, List.reverse_cons,
      show ring.count + 1 - n = 0 by omega, List.drop_zero, toList]
  · obtain ⟨less, full⟩ : ∃ less, ring.count = less + 1 := ⟨ring.count - 1, by omega⟩
    have count : (ring.push entry).count = less + 1 := (if_neg room).trans full
    rw [toList, count, ring.push_range entry (by omega), List.reverse_cons, toList, full,
      show less + 1 + 1 - n = 1 by omega, List.range_succ, List.map_append, List.reverse_append]
    rfl

theorem toList_pop (used : 0 < ring.count) : ring.toList = ring.pop.toList ++ [ring.newest 0] := by
  obtain ⟨less, full⟩ : ∃ less, ring.count = less + 1 := ⟨ring.count - 1, by omega⟩
  have bound := ring.count_le
  have count : ring.pop.count = less := by
    change ring.count - 1 = less
    omega
  have older : (List.range less).map ring.pop.newest =
      (List.range less).map (ring.newest ∘ Nat.succ) := by
    apply List.map_congr_left
    intro i member
    have small := List.mem_range.mp member
    exact ring.pop_newest (by omega)
  rw [toList, full, List.range_succ_eq_map, List.map_cons, List.map_map, List.reverse_cons,
    toList, count, older]

end Slots

end Oflops.Lib.RingBuffer
