import Mathlib.Data.List.Basic

/-! Flat memory as a function from addresses to cells, with block loads and stores. -/

namespace Oflops.Lib.Memory

variable {β : Type*}

def load (m : Nat → β) (start n : Nat) : List β := (List.range n).map (fun i => m (start + i))

def store (m : Nat → β) (start : Nat) (cells : List β) : Nat → β :=
  fun i => if start ≤ i then cells[i - start]?.getD (m i) else m i

@[simp] theorem load_length (m : Nat → β) (start n : Nat) : (load m start n).length = n := by
  simp [load]

@[simp] theorem load_zero (m : Nat → β) (start : Nat) : load m start 0 = [] := rfl

theorem getElem?_load (m : Nat → β) (start n i : Nat) :
    (load m start n)[i]? = if i < n then some (m (start + i)) else none := by
  unfold load
  split_ifs with inside
  · simp [inside]
  · simp [inside]

theorem load_congr {m m' : Nat → β} {start start' n : Nat}
    (same : ∀ i, i < n → m (start + i) = m' (start' + i)) : load m start n = load m' start' n := by
  unfold load
  apply List.map_congr_left
  intro i inside
  exact same i (List.mem_range.mp inside)

theorem load_add (m : Nat → β) (start n k : Nat) :
    load m start (n + k) = load m start n ++ load m (start + n) k := by
  unfold load
  rw [List.range_add, List.map_append, List.map_map]
  congr 1
  apply List.map_congr_left
  intro i _
  simp only [Function.comp_apply, Nat.add_assoc]

theorem take_load (m : Nat → β) (start : Nat) {n k : Nat} (short : k ≤ n) :
    (load m start n).take k = load m start k := by
  obtain ⟨rest, rfl⟩ := Nat.exists_eq_add_of_le short
  rw [load_add, List.take_left' (load_length m start k)]

theorem drop_load (m : Nat → β) (start : Nat) {n k : Nat} (short : k ≤ n) :
    (load m start n).drop k = load m (start + k) (n - k) := by
  obtain ⟨rest, rfl⟩ := Nat.exists_eq_add_of_le short
  rw [load_add, List.drop_left' (load_length m start k), Nat.add_sub_cancel_left]

theorem load_field {m : Nat → β} {start offset width : Nat} {record : List β}
    (stored : load m start record.length = record) (inside : offset + width ≤ record.length) :
    load m (start + offset) width = (record.drop offset).take width := by
  have dropped := drop_load m start (n := record.length) (k := offset) (by omega)
  have taken := take_load m (start + offset) (n := record.length - offset) (k := width) (by omega)
  rw [← taken, ← dropped, stored]

theorem getD_of_load {m : Nat → β} {start i : Nat} {record : List β} (default : β)
    (stored : load m start record.length = record) (inside : i < record.length) :
    record.getD i default = m (start + i) := by
  have cell := getElem?_load m start record.length i
  rw [stored, if_pos inside] at cell
  rw [List.getD_eq_getElem?_getD, cell, Option.getD_some]

theorem store_inside (m : Nat → β) (start : Nat) (cells : List β) {i : Nat}
    (inside : i < cells.length) : store m start cells (start + i) = cells[i] := by
  simp [store, inside]

theorem store_outside (m : Nat → β) (start : Nat) (cells : List β) {i : Nat}
    (outside : i < start ∨ start + cells.length ≤ i) : store m start cells i = m i := by
  unfold store
  split_ifs with above
  · rw [List.getElem?_eq_none (by omega), Option.getD_none]
  · rfl

theorem load_store (m : Nat → β) (start : Nat) (cells : List β) :
    load (store m start cells) start cells.length = cells := by
  apply List.ext_getElem?
  intro i
  rw [getElem?_load]
  split_ifs with inside
  · rw [store_inside m start cells inside, List.getElem?_eq_getElem inside]
  · rw [List.getElem?_eq_none (by omega)]

theorem load_store_before (m : Nat → β) {start n pos : Nat} (cells : List β)
    (before : start + n ≤ pos) : load (store m pos cells) start n = load m start n := by
  apply load_congr
  intro i inside
  exact store_outside m pos cells (Or.inl (by omega))

theorem load_store_behind (m : Nat → β) {start n pos : Nat} (cells : List β)
    (behind : pos + cells.length ≤ start) : load (store m pos cells) start n = load m start n := by
  apply load_congr
  intro i _
  exact store_outside m pos cells (Or.inr (by omega))

theorem load_store_part (m : Nat → β) (start : Nat) {n offset : Nat} {cells : List β}
    (inside : offset + cells.length ≤ n) :
    load (store m (start + offset) cells) start n =
      (load m start n).take offset ++ cells ++ (load m start n).drop (offset + cells.length) := by
  obtain ⟨rest, rfl⟩ := Nat.exists_eq_add_of_le inside
  have before : load (store m (start + offset) cells) start offset = load m start offset :=
    load_store_before m cells (Nat.le_refl _)
  have behind : load (store m (start + offset) cells) (start + (offset + cells.length)) rest =
      load m (start + (offset + cells.length)) rest := load_store_behind m cells (by omega)
  rw [take_load m start (by omega), drop_load m start (by omega), load_add, load_add,
    before, load_store, behind, Nat.add_sub_cancel_left]

theorem load_store_append (m : Nat → β) (start n : Nat) (cells : List β) :
    load (store m (start + n) cells) start (n + cells.length) = load m start n ++ cells := by
  rw [load_add, load_store, load_store_before m cells (Nat.le_refl _)]

end Oflops.Lib.Memory
