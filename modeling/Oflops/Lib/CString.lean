import Oflops.Lib.Record

/-! Strings in memory that end with a terminator, and the library functions that search them.
A search that the end of the memory cuts off has no result. -/

namespace Oflops.Lib.CString
open Record

variable {α : Type*} [DecidableEq α]

def chars (nul : α) : List α → Option (List α)
  | [] => none
  | cell :: cells => if cell = nul then some [] else (chars nul cells).map (cell :: ·)

/-- How far away a character is; there is none (`NULL`) if the string ends before it. -/
def find (nul c : α) : List α → Option (Option Nat)
  | [] => none
  | cell :: cells =>
    if cell = c then some (some 0)
    else if cell = nul then some none
    else (find nul c cells).map (Option.map (· + 1))

def textAt (nul : α) (mem : List α) (p : Nat) : Option (List α) := chars nul (mem.drop p)

def strlen (nul : α) (mem : List α) (p : Nat) : Option Nat := (textAt nul mem p).map List.length

def index (nul c : α) (mem : List α) (p : Nat) : Option (Option Nat) :=
  (find nul c (mem.drop p)).map (Option.map (p + ·))

variable {nul c : α} {text : List α}

theorem chars_append (plain : nul ∉ text) (rest : List α) :
    chars nul (text ++ nul :: rest) = some text := by
  induction text with
  | nil => simp [chars]
  | cons first text ih =>
    have other : first ≠ nul := (List.ne_of_not_mem_cons plain).symm
    rw [List.cons_append, chars, if_neg other, ih (List.not_mem_of_not_mem_cons plain),
      Option.map_some]

theorem chars_length_le {rest found : List α}
    (read : chars nul (text ++ nul :: rest) = some found) : found.length ≤ text.length := by
  induction text generalizing found with
  | nil =>
    rw [List.nil_append, chars, if_pos rfl] at read
    cases read
    exact Nat.le_refl 0
  | cons first text ih =>
    rw [List.cons_append, chars] at read
    split_ifs at read with ends
    · cases read
      exact Nat.zero_le _
    · obtain ⟨later, further, rfl⟩ := Option.map_eq_some_iff.mp read
      exact Nat.succ_le_succ (ih further)

theorem chars_absent (absent : nul ∉ text) : chars nul text = none := by
  induction text with
  | nil => rfl
  | cons first text ih =>
    have other : first ≠ nul := (List.ne_of_not_mem_cons absent).symm
    rw [chars, if_neg other, ih (List.not_mem_of_not_mem_cons absent), Option.map_none]

theorem find_append (plain : nul ∉ text) (before : c ∉ text) (rest : List α) :
    find nul c (text ++ c :: rest) = some (some text.length) := by
  induction text with
  | nil => simp [find]
  | cons first text ih =>
    have other : first ≠ nul := (List.ne_of_not_mem_cons plain).symm
    have earlier : first ≠ c := (List.ne_of_not_mem_cons before).symm
    rw [List.cons_append, find, if_neg earlier, if_neg other,
      ih (List.not_mem_of_not_mem_cons plain)
        (List.not_mem_of_not_mem_cons before)]
    simp

theorem find_absent (visible : nul ≠ c) (plain : nul ∉ text) (absent : c ∉ text) (rest : List α) :
    find nul c (text ++ nul :: rest) = some none := by
  induction text with
  | nil => simp [find, visible]
  | cons first text ih =>
    have other : first ≠ nul := (List.ne_of_not_mem_cons plain).symm
    have different : first ≠ c := (List.ne_of_not_mem_cons absent).symm
    rw [List.cons_append, find, if_neg different, if_neg other,
      ih (List.not_mem_of_not_mem_cons plain)
        (List.not_mem_of_not_mem_cons absent)]
    simp

section Placed
variable (mem : List α) (rest : List α)

theorem textAt_append (plain : nul ∉ text) :
    textAt nul (mem ++ (text ++ nul :: rest)) mem.length = some text := by
  rw [textAt, List.drop_left, chars_append plain]

theorem strlen_append (plain : nul ∉ text) :
    strlen nul (mem ++ (text ++ nul :: rest)) mem.length = some text.length := by
  rw [strlen, textAt_append mem rest plain, Option.map_some]

theorem index_append (plain : nul ∉ text) (before : c ∉ text) :
    index nul c (mem ++ (text ++ c :: rest)) mem.length =
      some (some (mem.length + text.length)) := by
  rw [index, List.drop_left, find_append plain before]
  simp

theorem index_absent (visible : nul ≠ c) (plain : nul ∉ text) (absent : c ∉ text) :
    index nul c (mem ++ (text ++ nul :: rest)) mem.length = some none := by
  rw [index, List.drop_left, find_absent visible plain absent]
  simp

end Placed

theorem splitOn_piece {piece : List α} (member : piece ∈ text.splitOn c) :
    c ∉ piece ∧ piece ⊆ text := by
  induction text generalizing piece with
  | nil => simp_all [List.splitOn]
  | cons first text ih =>
    change piece ∈ (first :: text).splitOnP (· == c) at member
    rw [List.splitOnP_cons_eq_if_modifyHead] at member
    split_ifs at member with same
    · rcases List.mem_cons.mp member with rfl | later
      · exact ⟨List.not_mem_nil, List.nil_subset _⟩
      · exact (ih later).imp_right (List.subset_cons_of_subset _)
    · change piece ∈ (text.splitOn c).modifyHead (first :: ·) at member
      cases split : text.splitOn c with
      | nil =>
        rw [split] at member
        cases member
      | cons head others =>
        rw [split] at member ih
        rcases List.mem_cons.mp member with rfl | later
        · have head := ih List.mem_cons_self
          have other : first ≠ c := fun equal => same (beq_iff_eq.mpr equal)
          exact ⟨List.not_mem_cons_of_ne_of_not_mem other.symm head.1,
            List.cons_subset_cons _ head.2⟩
        · exact (ih (List.mem_cons_of_mem _ later)).imp_right (List.subset_cons_of_subset _)

/-! ### Printing -/

section Print
variable {β : Type*}

/-- What `snprintf(mem + p, size, ...)` stores of a text. It returns the length of the
whole text. -/
def printAt (nul : β) (mem : List β) (p size : Nat) (text : List β) : Option (List β) :=
  if size = 0 then some mem else writeAt mem p (text.take (size - 1) ++ [nul])

theorem printAt_append {nul : β} {size : Nat} (mem tail text : List β) (some' : 0 < size)
    (room : size ≤ tail.length) :
    ∃ rest, printAt nul (mem ++ tail) mem.length size text =
      some (mem ++ (text.take (size - 1) ++ nul :: rest)) := by
  have stored : (text.take (size - 1) ++ [nul]).length ≤ size := by
    rw [List.length_append, List.length_take, List.length_singleton]
    omega
  have whole : (mem ++ tail).length = mem.length + tail.length := List.length_append
  have inside : mem.length + (text.take (size - 1) ++ [nul]).length ≤ (mem ++ tail).length := by
    omega
  refine ⟨tail.drop (text.take (size - 1) ++ [nul]).length, ?_⟩
  rw [printAt, if_neg (Nat.ne_of_gt some'), writeAt_inside inside, patch_start rfl,
    List.append_assoc]
  rfl

theorem printAt_length {nul : β} {mem text after : List β} {p size : Nat}
    (printed : printAt nul mem p size text = some after) : after.length = mem.length := by
  unfold printAt at printed
  split_ifs at printed with nothing
  · cases printed
    rfl
  · exact (writeAt_some printed).2

end Print

end Oflops.Lib.CString
