import Mathlib.Data.List.Perm.Basic
import Oflops.Lib.Record
import Mathlib.Tactic.SplitIfs

/-! Arrays that are allocated and then filled one value after the other, the `k`-th value at a
fixed offset from `k`. A cell that has not been written holds no value, and an access outside the
array has no result. -/

namespace Oflops.Lib.ArrayFill
open Record

variable {α : Type*}

def alloc (n : Nat) : List (Option α) := List.replicate n none

def put (cells : List (Option α)) (i : Int) (value : α) : Option (List (Option α)) :=
  if 0 ≤ i ∧ i < cells.length then some (cells.set i.toNat (some value)) else none

def cell (cells : List (Option α)) (i : Int) : Option α :=
  if 0 ≤ i then cells[i.toNat]?.join else none

structure Filling (α : Type*) where
  cells : List (Option α)
  ix : Nat

namespace Filling

def front (filling : Filling α) : List (Option α) := filling.cells.take filling.ix

def store (offset : Int) (filling : Filling α) (value : α) : Option (Filling α) :=
  (put filling.cells (offset + filling.ix) value).map (⟨·, filling.ix + 1⟩)

def storeAll (offset : Int) (filling : Filling α) (values : List α) : Option (Filling α) :=
  values.foldlM (store offset) filling

end Filling

open Filling

theorem put_inside {cells : List (Option α)} {i : Nat} (inside : i < cells.length) (value : α) :
    put cells i value = some (cells.set i (some value)) := by
  rw [put, if_pos ⟨Int.natCast_nonneg i, Int.ofNat_lt.mpr inside⟩, Int.toNat_natCast]

theorem cell_some {cells : List (Option α)} {i : Int} {value : α}
    (read : cell cells i = some value) : 0 ≤ i ∧ i < cells.length := by
  unfold cell at read
  split_ifs at read with low
  refine ⟨low, ?_⟩
  by_contra high
  rw [List.getElem?_eq_none (by omega)] at read
  cases read

theorem put_some {cells after : List (Option α)} {i : Int} {value : α}
    (written : put cells i value = some after) :
    0 ≤ i ∧ i < cells.length ∧ after = cells.set i.toNat (some value) := by
  unfold put at written
  split_ifs at written with inside
  cases written
  exact ⟨inside.1, inside.2, rfl⟩

theorem take_put {cells : List (Option α)} {done : List α}
    (front : cells.take done.length = done.map some) (room : done.length < cells.length)
    (value : α) :
    ∃ after, put cells done.length value = some after ∧ after.length = cells.length ∧
      after.take (done ++ [value]).length = (done ++ [value]).map some := by
  refine ⟨_, put_inside room value, List.length_set, ?_⟩
  rw [List.length_append, List.length_singleton, List.take_add_one, List.getElem?_set_self room,
    List.take_set_of_le (Nat.le_refl _), front, List.map_append]
  rfl

theorem store_some {offset : Int} {filling after : Filling α} {value : α}
    (stored : filling.store offset value = some after) :
    0 ≤ offset + filling.ix ∧ offset + filling.ix < filling.cells.length ∧
      after = ⟨filling.cells.set (offset + filling.ix).toNat (some value), filling.ix + 1⟩ := by
  obtain ⟨cells, written, rfl⟩ := Option.map_eq_some_iff.mp stored
  obtain ⟨low, high, rfl⟩ := put_some written
  exact ⟨low, high, rfl⟩

@[simp] theorem storeAll_nil (offset : Int) (filling : Filling α) :
    filling.storeAll offset [] = some filling := rfl

theorem storeAll_cons (offset : Int) (filling : Filling α) (value : α) (values : List α) :
    filling.storeAll offset (value :: values) =
      (filling.store offset value).bind (fun next => next.storeAll offset values) := rfl

theorem storeAll_append (offset : Int) (filling : Filling α) (values more : List α) :
    filling.storeAll offset (values ++ more) =
      (filling.storeAll offset values).bind (fun next => next.storeAll offset more) :=
  List.foldlM_append

theorem store_next (done : List α) (value : α) (free : Nat) :
    Filling.store 0 ⟨done.map some ++ alloc (free + 1), done.length⟩ value =
      some ⟨(done ++ [value]).map some ++ alloc free, (done ++ [value]).length⟩ := by
  have inside : done.length < (done.map some ++ alloc (free + 1) : List (Option α)).length := by
    simp [alloc]
  have written := put_inside inside value
  rw [List.set_append_right _ _ (by simp), List.length_map, Nat.sub_self] at written
  rw [store, Int.zero_add, written, Option.map_some, List.length_append, List.map_append,
    List.append_assoc]
  rfl

theorem storeAll_zero (done values : List α) (free : Nat) :
    Filling.storeAll 0 ⟨done.map some ++ alloc (values.length + free), done.length⟩ values =
      some ⟨(done ++ values).map some ++ alloc free, (done ++ values).length⟩ := by
  induction values generalizing done with
  | nil => rw [List.append_nil, storeAll_nil, List.length_nil, Nat.zero_add]
  | cons value values ih =>
    rw [storeAll_cons, List.length_cons, Nat.add_right_comm, store_next, Option.bind_some, ih,
      List.append_assoc]
    rfl

theorem store_isSome_iff {offset : Int} {filling : Filling α} {value : α} :
    (filling.store offset value).isSome ↔
      0 ≤ offset + filling.ix ∧ offset + filling.ix < filling.cells.length := by
  rw [store, Option.isSome_map, put]
  split_ifs with inside
  · exact iff_of_true rfl inside
  · exact iff_of_false (by simp) inside

theorem storeAll_isSome_iff {offset : Int} {filling : Filling α} {values : List α} :
    (filling.storeAll offset values).isSome ↔
      values = [] ∨
        0 ≤ offset + filling.ix ∧ offset + filling.ix + values.length ≤ filling.cells.length := by
  induction values generalizing filling with
  | nil => simp
  | cons value values ih =>
    rw [storeAll_cons, List.length_cons]
    cases stored : filling.store offset value with
    | none =>
      have outside := store_isSome_iff.not.mp (Option.not_isSome_iff_eq_none.mpr stored)
      refine iff_of_false (by simp) ?_
      rintro (empty | inside)
      · cases empty
      · omega
    | some next =>
      obtain ⟨low, high, rfl⟩ := store_some stored
      rw [Option.bind_some, ih, List.length_set]
      cases values with
      | nil =>
        simp
        omega
      | cons =>
        simp
        omega

theorem storeAll_some {offset : Int} {filling after : Filling α} {values : List α}
    (stored : filling.storeAll offset values = some after) :
    after.ix = filling.ix + values.length ∧ after.cells.length = filling.cells.length ∧
      (0 < offset → after.cells[0]? = filling.cells[0]?) := by
  induction values generalizing filling with
  | nil =>
    cases stored
    exact ⟨rfl, rfl, fun _ => rfl⟩
  | cons value values ih =>
    rw [storeAll_cons] at stored
    obtain ⟨next, first, rest⟩ := Option.bind_eq_some_iff.mp stored
    obtain ⟨low, high, rfl⟩ := store_some first
    obtain ⟨counted, long, same⟩ := ih rest
    refine ⟨?_, ?_, ?_⟩
    · rw [counted, List.length_cons, Nat.add_assoc, Nat.add_comm 1]
    · rw [long, List.length_set]
    · intro positive
      rw [same positive, List.getElem?_set_ne (by omega)]

theorem offset_eq_zero {offset : Int} {n : Nat} {values : List α} {filling : Filling α}
    (stored : Filling.storeAll offset ⟨alloc n, 0⟩ values = some filling)
    (exact' : filling.front.Perm (values.map some)) (some' : values ≠ []) :
    offset = 0 ∧ values.length ≤ n := by
  obtain ⟨counted, long, same⟩ := storeAll_some stored
  rw [Nat.zero_add] at counted
  have size : filling.cells.length = n := by rw [long, alloc, List.length_replicate]
  have all := exact'.length_eq
  rw [front, List.length_take, List.length_map, counted, size] at all
  refine ⟨?_, by omega⟩
  obtain ⟨value, values, rfl⟩ := List.exists_cons_of_ne_nil some'
  rw [storeAll_cons] at stored
  obtain ⟨next, first, rest⟩ := Option.bind_eq_some_iff.mp stored
  obtain ⟨low, high, -⟩ := store_some first
  change 0 ≤ offset + (0 : Nat) at low
  by_contra other
  -- the offset is positive: the first cell is read, and it is empty
  have empty := same (by omega)
  have here : none ∈ filling.front := by
    apply List.mem_of_getElem? (i := 0)
    rw [front, List.getElem?_take_of_lt (by rw [counted]; exact Nat.zero_lt_succ _), empty, alloc,
      List.getElem?_replicate_of_lt (by rw [List.length_cons] at all; omega)]
  have there := exact'.mem_iff.mp here
  simp at there

theorem eq_nil_of_offset {offset : Int} {n : Nat} {values : List α} {filling : Filling α}
    (stored : Filling.storeAll offset ⟨alloc n, 0⟩ values = some filling)
    (exact' : filling.front.Perm (values.map some)) (nonzero : offset ≠ 0) : values = [] := by
  by_contra some'
  exact nonzero (offset_eq_zero stored exact' some').1

/-! ### Arrays that grow -/

/-- The cells that there is room for are kept. -/
def realloc (cells : List (Option α)) (n : Nat) : List (Option α) :=
  cells.take n ++ alloc (n - cells.length)

theorem realloc_length (cells : List (Option α)) (n : Nat) : (realloc cells n).length = n := by
  rw [realloc, List.length_append, List.length_take, alloc, List.length_replicate]
  omega

theorem realloc_front {front cells : List (Option α)} {n : Nat} (kept : front <+: cells)
    (room : front.length ≤ n) : front <+: realloc cells n :=
  (List.prefix_take_iff.mpr ⟨kept, room⟩).trans (List.prefix_append _ _)

theorem writeAt_realloc {front cells field : List (Option α)} {n p : Nat} (kept : front <+: cells)
    (before : front.length ≤ p) (inside : p + field.length ≤ n) :
    ∃ after, writeAt (realloc cells n) p field = some after ∧ front <+: after ∧
      (front.length = p → front ++ field <+: after) := by
  obtain ⟨tail, split⟩ := realloc_front kept (Nat.le_trans before (Nat.le_of_add_right_le inside))
  refine ⟨_, writeAt_inside (by rwa [realloc_length]), ?_, ?_⟩
  · rw [← split, patch_append_right before]
    exact List.prefix_append _ _
  · intro behind
    rw [← split, patch_start behind, ← List.append_assoc]
    exact List.prefix_append _ _

/-! ### Loops that store a value for some of their elements -/

section Loop
variable {β γ : Type*}

theorem map_filter_cons (p : β → Prop) [DecidablePred p] (value : β → α) (x : β) (xs : List β) :
    ((x :: xs).filter p).map value =
      (if p x then [value x] else []) ++ (xs.filter p).map value := by
  by_cases taken : p x
  · simp [taken]
  · simp [taken]

theorem foldlM_skipped {step : γ → β → Option γ} {state : γ} {xs : List β}
    (skipped : ∀ x ∈ xs, step state x = some state) : xs.foldlM step state = some state := by
  induction xs with
  | nil => rfl
  | cons x xs ih =>
    rw [List.foldlM_cons, skipped x List.mem_cons_self, Option.bind_eq_bind, Option.bind_some]
    exact ih fun other member => skipped other (List.mem_cons_of_mem _ member)

end Loop

end Oflops.Lib.ArrayFill
