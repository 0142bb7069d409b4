import Mathlib.Data.List.Basic
import Mathlib.Tactic.SplitIfs

/-! Records laid out in an array of cells: reading and overwriting a field at an offset, and
how that acts on a record written as the concatenation of its fields. -/

namespace Oflops.Lib.Record

variable {β : Type*}

def slice (record : List β) (offset width : Nat) : List β := (record.drop offset).take width

def patch (record : List β) (offset : Nat) (field : List β) : List β :=
  record.take offset ++ field ++ record.drop (offset + field.length)

/-- A read outside the array has no result. -/
def readAt (record : List β) (offset width : Nat) : Option (List β) :=
  if offset + width ≤ record.length then some (slice record offset width) else none

/-- A write outside the array has no result. -/
def writeAt (record : List β) (offset : Nat) (field : List β) : Option (List β) :=
  if offset + field.length ≤ record.length then some (patch record offset field) else none

theorem readAt_inside {record : List β} {offset width : Nat}
    (inside : offset + width ≤ record.length) :
    readAt record offset width = some (slice record offset width) := if_pos inside

theorem readAt_length {record field : List β} {offset width : Nat}
    (read : readAt record offset width = some field) : field.length = width := by
  unfold readAt at read
  split_ifs at read with inside
  cases read
  rw [slice, List.length_take, List.length_drop]
  omega

theorem writeAt_inside {record : List β} {offset : Nat} {field : List β}
    (inside : offset + field.length ≤ record.length) :
    writeAt record offset field = some (patch record offset field) := if_pos inside

theorem slice_append_right {before after : List β} {offset : Nat} (width : Nat)
    (beyond : before.length ≤ offset) :
    slice (before ++ after) offset width = slice after (offset - before.length) width := by
  unfold slice
  rw [List.drop_append, List.drop_eq_nil_of_le beyond, List.nil_append]

theorem slice_append_left {before : List β} (after : List β) {offset width : Nat}
    (inside : offset + width ≤ before.length) :
    slice (before ++ after) offset width = slice before offset width := by
  unfold slice
  rw [List.drop_append_of_le_length (by omega),
    List.take_append_of_le_length (by rw [List.length_drop]; omega)]

theorem patch_append_right {before after field : List β} {offset : Nat}
    (beyond : before.length ≤ offset) :
    patch (before ++ after) offset field = before ++
      patch after (offset - before.length) field := by
  have behind : before.length ≤ offset + field.length := Nat.le_add_right_of_le beyond
  unfold patch
  rw [List.take_append, List.drop_append, List.take_of_length_le beyond,
    List.drop_eq_nil_of_le behind, List.nil_append, Nat.sub_add_comm beyond]
  simp only [List.append_assoc]

theorem patch_append_left {before after field : List β} {offset : Nat}
    (inside : offset + field.length ≤ before.length) :
    patch (before ++ after) offset field = patch before offset field ++ after := by
  unfold patch
  rw [List.take_append_of_le_length (by omega), List.drop_append_of_le_length inside]
  simp only [List.append_assoc]

theorem patch_start {before : List β} {offset : Nat} (place : before.length = offset)
    (after field : List β) :
    patch (before ++ after) offset field = before ++ (field ++ after.drop field.length) := by
  rw [patch_append_right (Nat.le_of_eq place), place, Nat.sub_self, patch, List.take_zero,
    List.nil_append, Nat.zero_add]

theorem patch_length {record field : List β} {offset : Nat}
    (inside : offset + field.length ≤ record.length) :
    (patch record offset field).length = record.length := by
  unfold patch
  rw [List.length_append, List.length_append, List.length_take, List.length_drop]
  omega

theorem patch_next {record : List β} {offset : Nat} (inside : offset < record.length) (cell : β)
    (field : List β) :
    patch (patch record offset [cell]) (offset + 1) field =
      patch record offset (cell :: field) := by
  have place : (record.take offset).length = offset := List.length_take_of_le (Nat.le_of_lt inside)
  have behind : (record.take offset ++ [cell]).length = offset + 1 := by
    rw [List.length_append, place, List.length_singleton]
  have first : patch record offset [cell] =
      (record.take offset ++ [cell]) ++ record.drop (offset + 1) := rfl
  rw [first, patch_start behind, List.drop_drop, patch, List.length_cons, Nat.add_assoc offset,
    Nat.add_comm 1]
  simp only [List.append_assoc, List.cons_append, List.nil_append]

theorem writeAt_cell (before : List β) (cell other : β) (after : List β) :
    writeAt (before ++ cell :: after) before.length [other] = some (before ++ other :: after) := by
  rw [writeAt_inside (by simp), patch_start rfl]
  rfl

theorem writeAt_outside {record : List β} {offset : Nat} (outside : record.length ≤ offset)
    (cell : β) : writeAt record offset [cell] = none :=
  if_neg (by rw [List.length_singleton]; omega)

theorem writeAt_some {record field after : List β} {offset : Nat}
    (written : writeAt record offset field = some after) :
    offset + field.length ≤ record.length ∧ after.length = record.length := by
  unfold writeAt at written
  split_ifs at written with inside
  cases written
  exact ⟨inside, patch_length inside⟩

theorem writeAt_fits (record : List β) (offset : Nat) (field : List β)
    (inside : offset + field.length ≤ record.length) :
    ∃ after, writeAt record offset field = some after ∧ after.length = record.length :=
  ⟨_, writeAt_inside inside, patch_length inside⟩

theorem slice_length {record : List β} {offset width : Nat}
    (inside : offset + width ≤ record.length) :
    (slice record offset width).length = width := by
  rw [slice, List.length_take, List.length_drop]
  omega

theorem slice_part {before part after : List β} {base i width : Nat} (place : before.length = base)
    (inside : i + width ≤ part.length) :
    slice (before ++ (part ++ after)) (base + i) width = slice part i width := by
  subst place
  rw [slice_append_right _ (by omega), Nat.add_sub_cancel_left]
  exact slice_append_left after inside

theorem readAt_part {before part after : List β} {base i width : Nat} (place : before.length = base)
    (inside : i + width ≤ part.length) :
    readAt (before ++ (part ++ after)) (base + i) width = some (slice part i width) := by
  rw [readAt_inside (by simp only [List.length_append]; omega), slice_part place inside]

theorem writeAt_part {before part after field : List β} {base i : Nat}
    (place : before.length = base) (inside : i + field.length ≤ part.length) :
    writeAt (before ++ (part ++ after)) (base + i) field =
      some (before ++ (patch part i field ++ after)) := by
  subst place
  rw [writeAt_inside (by simp only [List.length_append]; omega), patch_append_right (by omega),
    Nat.add_sub_cancel_left, patch_append_left inside]

/-! ### Several fields one after the other -/

theorem slice_patch_self {record field : List β} {offset : Nat}
    (inside : offset + field.length ≤ record.length) :
    slice (patch record offset field) offset field.length = field := by
  have place : (record.take offset).length = offset := List.length_take_of_le (by omega)
  have part : slice (record.take offset ++ (field ++ record.drop (offset + field.length)))
      (offset + 0) field.length = slice field 0 field.length :=
    slice_part place (Nat.le_of_eq (Nat.zero_add field.length))
  rw [Nat.add_zero] at part
  rw [patch, List.append_assoc, part, slice, List.drop_zero, List.take_length]

theorem patch_getElem?_apart {record field : List β} {offset k : Nat}
    (inside : offset + field.length ≤ record.length)
    (apart : k < offset ∨ offset + field.length ≤ k) :
    (patch record offset field)[k]? = record[k]? := by
  have place : (record.take offset).length = offset := List.length_take_of_le (by omega)
  rw [patch, List.append_assoc]
  rcases apart with before | behind
  · rw [List.getElem?_append_left (place.symm ▸ before), List.getElem?_take_of_lt before]
  · rw [List.getElem?_append_right (by omega), place, List.getElem?_append_right (by omega),
      List.getElem?_drop]
    congr 1
    omega

theorem slice_patch_apart {record field : List β} {offset i width : Nat}
    (inside : offset + field.length ≤ record.length)
    (apart : i + width ≤ offset ∨ offset + field.length ≤ i) :
    slice (patch record offset field) i width = slice record i width := by
  apply List.ext_getElem?
  intro k
  simp only [slice, List.getElem?_take, List.getElem?_drop]
  split_ifs with shown
  · exact patch_getElem?_apart inside (by omega)
  · rfl

/-- Fields written one after the other, each at its offset. -/
def assign (record : List β) (fields : List (Nat × List β)) : Option (List β) :=
  fields.foldlM (fun record field => writeAt record field.1 field.2) record

def place (field : Nat × List β) : Nat × Nat := (field.1, field.2.length)

/-- Two places have no cell in common. -/
def Apart (first second : Nat × Nat) : Prop :=
  first.1 + first.2 ≤ second.1 ∨ second.1 + second.2 ≤ first.1

instance : DecidableRel Apart := fun _ _ => inferInstanceAs (Decidable (_ ∨ _))

theorem assign_cons (record : List β) (field : Nat × List β) (fields : List (Nat × List β)) :
    assign record (field :: fields) =
      (writeAt record field.1 field.2).bind (fun after => assign after fields) := rfl

theorem assign_inside (record : List β) (fields : List (Nat × List β))
    (inside : ∀ p ∈ fields.map place, p.1 + p.2 ≤ record.length) :
    ∃ after, assign record fields = some after ∧ after.length = record.length := by
  induction fields generalizing record with
  | nil => exact ⟨record, rfl, rfl⟩
  | cons field fields ih =>
    rw [List.map_cons, List.forall_mem_cons] at inside
    have first : field.1 + field.2.length ≤ record.length := inside.1
    have kept := patch_length first
    obtain ⟨after, rest, length⟩ := ih (patch record field.1 field.2) (kept ▸ inside.2)
    refine ⟨after, ?_, length.trans kept⟩
    rw [assign_cons, writeAt_inside first]
    exact rest

theorem slice_assign_apart {record after : List β} {fields : List (Nat × List β)} {i width : Nat}
    (written : assign record fields = some after)
    (apart : ∀ p ∈ fields.map place, Apart (i, width) p) :
    slice after i width = slice record i width := by
  induction fields generalizing record with
  | nil => rw [Option.some.inj written]
  | cons field fields ih =>
    rw [List.map_cons, List.forall_mem_cons] at apart
    rw [assign_cons, Option.bind_eq_some_iff] at written
    obtain ⟨next, first, rest⟩ := written
    have inside := (writeAt_some first).1
    rw [writeAt_inside inside, Option.some.injEq] at first
    rw [ih rest apart.2, ← first, slice_patch_apart inside apart.1]

/-- Fields at places apart from each other all read as written. -/
theorem slice_assign {record after : List β} {fields : List (Nat × List β)} {i width : Nat}
    {field : List β} (written : assign record fields = some after)
    (apart : (fields.map place).Pairwise Apart) (mem : (i, field) ∈ fields)
    (size : field.length = width) : slice after i width = field := by
  induction fields generalizing record with
  | nil => cases mem
  | cons first fields ih =>
    rw [assign_cons, Option.bind_eq_some_iff] at written
    obtain ⟨next, write, rest⟩ := written
    rw [List.map_cons, List.pairwise_cons] at apart
    rcases List.mem_cons.mp mem with rfl | later
    · have inside := (writeAt_some write).1
      rw [writeAt_inside inside, Option.some.injEq] at write
      subst size
      rw [slice_assign_apart rest apart.1, ← write, slice_patch_self inside]
    · exact ih rest apart.2 later

def shift (base : Nat) (fields : List (Nat × List β)) : List (Nat × List β) :=
  fields.map (fun field => (base + field.1, field.2))

theorem writeAt_shift (before record : List β) (offset : Nat) (field : List β) :
    writeAt (before ++ record) (before.length + offset) field =
      (writeAt record offset field).map (before ++ ·) := by
  unfold writeAt
  by_cases inside : offset + field.length ≤ record.length
  · rw [if_pos inside, if_pos (by rw [List.length_append]; omega),
      patch_append_right (Nat.le_add_right _ _), Nat.add_sub_cancel_left]
    rfl
  · rw [if_neg inside, if_neg (by rw [List.length_append]; omega)]
    rfl

theorem assign_shift (before record : List β) (fields : List (Nat × List β)) :
    assign (before ++ record) (shift before.length fields) =
      (assign record fields).map (before ++ ·) := by
  induction fields generalizing record with
  | nil => rfl
  | cons field fields ih =>
    rw [shift, List.map_cons, assign_cons, assign_cons, writeAt_shift]
    cases writeAt record field.1 field.2 with
    | none => rfl
    | some after => exact ih after

theorem slice_cells (record cells : List β) (offset : Nat)
    (each : ∀ k cell, cells[k]? = some cell → slice record (offset + k) 1 = [cell]) :
    slice record offset cells.length = cells := by
  induction cells generalizing offset with
  | nil => exact List.take_zero
  | cons cell cells ih =>
    have first : slice record offset 1 = [cell] := each 0 cell rfl
    have rest : slice record (offset + 1) cells.length = cells := by
      apply ih
      intro k other here
      rw [Nat.add_assoc, Nat.add_comm 1 k]
      exact each (k + 1) other here
    unfold slice at first rest ⊢
    rw [List.length_cons, Nat.add_comm, List.take_add, first, List.drop_drop, rest]
    rfl

theorem drop_eq_slice_append (record : List β) (offset width : Nat) :
    record.drop offset = slice record offset width ++ record.drop (offset + width) := by
  rw [slice, ← List.drop_drop, List.take_append_drop]

end Oflops.Lib.Record
