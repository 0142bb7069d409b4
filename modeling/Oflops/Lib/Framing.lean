import Mathlib.Data.List.Basic
import Mathlib.Tactic.SplitIfs

/-! Streams cut into frames that announce their own size in a header of fixed length. -/

namespace Oflops.Lib.Framing

variable {β : Type*}

structure Layout (β : Type*) where
  header : Nat
  /-- The announced size, which only depends on the header. -/
  size : List β → Nat
  positive : 0 < header
  size_append : ∀ cells rest, header ≤ cells.length → size (cells ++ rest) = size cells

namespace Layout

variable (layout : Layout β)

def Frame (cells : List β) : Prop :=
  layout.header ≤ cells.length ∧ layout.size cells = cells.length

/-- No frame can be taken off the front yet. -/
def Incomplete (cells : List β) : Prop :=
  cells.length < layout.header ∨ cells.length < layout.size cells

/-- The beginning of a frame whose end has not arrived. -/
def Partial (cells : List β) : Prop :=
  ∃ frame, layout.Frame frame ∧ cells <+: frame ∧ cells.length < frame.length

/-- `rest` is what has arrived of the last frame of a stream. -/
def TailOf (cells rest : List β) : Prop :=
  layout.Partial rest ∧
    ∃ frames : List (List β), (∀ frame ∈ frames, layout.Frame frame) ∧
    cells = frames.flatten ++ rest

/-- The beginning of a stream of frames. -/
def Stream (cells : List β) : Prop := ∃ rest, layout.TailOf cells rest

/-- Take complete frames off the front, at most as many as there is fuel. -/
def strip : Nat → List β → List β
  | 0, cells => cells
  | fuel + 1, cells =>
    if layout.header ≤ cells.length ∧ layout.size cells ≤ cells.length then
      strip fuel (cells.drop (layout.size cells))
    else cells

/-- What is left of a stream once its complete frames are gone. -/
def remainder (cells : List β) : List β := layout.strip cells.length cells

/-- The frames that `strip` takes off, and what is left. -/
def cut : Nat → List β → List (List β) × List β
  | 0, cells => ([], cells)
  | fuel + 1, cells =>
    if layout.header ≤ cells.length ∧ layout.size cells ≤ cells.length then
      let (frames, rest) := cut fuel (cells.drop (layout.size cells))
      (cells.take (layout.size cells) :: frames, rest)
    else ([], cells)

/-- A frame starts the cells. The announced size is at least that of the header. -/
def Starts (cells : List β) : Prop :=
  layout.header ≤ layout.size cells ∧ layout.size cells ≤ cells.length

instance (cells : List β) : Decidable (layout.Starts cells) := inferInstanceAs (Decidable (_ ∧ _))

/-- The leading frames of arbitrary cells, at most as many as there is fuel, and what is left. -/
def leading : Nat → List β → List (List β) × List β
  | 0, cells => ([], cells)
  | fuel + 1, cells =>
    if layout.Starts cells then
      let (frames, rest) := leading fuel (cells.drop (layout.size cells))
      (cells.take (layout.size cells) :: frames, rest)
    else ([], cells)

/-- Cutting the cells by the announced sizes comes upon a header that announces nothing at all. -/
inductive Stalls : List β → Prop
  | here {cells : List β} (header : layout.header ≤ cells.length)
    (nothing : layout.size cells = 0) :
      Stalls cells
  | later {cells : List β} (complete : ¬ layout.Incomplete cells)
      (rest : Stalls (cells.drop (layout.size cells))) : Stalls cells

variable {layout}

theorem not_incomplete_append {cells : List β} (complete : ¬ layout.Incomplete cells)
    (rest : List β) :
    layout.size (cells ++ rest) = layout.size cells ∧ ¬ layout.Incomplete (cells ++ rest) := by
  obtain ⟨header, whole⟩ := not_or.mp complete
  have size := layout.size_append cells rest (Nat.not_lt.mp header)
  refine ⟨size, ?_⟩
  unfold Incomplete
  rw [size, List.length_append]
  omega

theorem Stalls.append {cells : List β} (stalls : layout.Stalls cells) (rest : List β) :
    layout.Stalls (cells ++ rest) := by
  induction stalls with
  | here header nothing =>
    apply Stalls.here
    · rw [List.length_append]
      exact Nat.le_add_right_of_le header
    · rw [layout.size_append _ rest header, nothing]
  | later complete later ih =>
    obtain ⟨size, still⟩ := not_incomplete_append complete rest
    apply Stalls.later still
    rw [size, List.drop_append_of_le_length (Nat.not_lt.mp (not_or.mp complete).2)]
    exact ih

theorem Incomplete.not_stalls {cells : List β} (incomplete : layout.Incomplete cells) :
    ¬ layout.Stalls cells := by
  intro stalls
  cases stalls with
  | here header nothing =>
    unfold Incomplete at incomplete
    omega
  | later complete rest => exact complete incomplete

theorem stalls_drop {cells : List β} (complete : ¬ layout.Incomplete cells)
    (some' : 0 < layout.size cells) :
    layout.Stalls (cells.drop (layout.size cells)) ↔ layout.Stalls cells := by
  constructor
  · exact Stalls.later complete
  · intro stalls
    cases stalls with
    | here header nothing => exact absurd nothing (Nat.pos_iff_ne_zero.mp some')
    | later complete rest => exact rest

theorem Frame.size_append {frame : List β} (framed : layout.Frame frame) (rest : List β) :
    layout.size (frame ++ rest) = frame.length := by
  rw [layout.size_append frame rest framed.1, framed.2]

theorem Frame.not_incomplete {frame : List β} (framed : layout.Frame frame) (rest : List β) :
    ¬ layout.Incomplete (frame ++ rest) := by
  have header := framed.1
  unfold Incomplete
  rw [framed.size_append, List.length_append]
  omega

theorem Incomplete.of_append {cells rest : List β}
    (incomplete : layout.Incomplete (cells ++ rest)) : layout.Incomplete cells := by
  by_cases short : cells.length < layout.header
  · exact Or.inl short
  · unfold Incomplete at incomplete ⊢
    rw [layout.size_append cells rest (Nat.not_lt.mp short), List.length_append] at incomplete
    omega

theorem Partial.of_append {cells rest : List β} (partly : layout.Partial (cells ++ rest)) :
    layout.Partial cells := by
  obtain ⟨frame, framed, inside, shorter⟩ := partly
  rw [List.length_append] at shorter
  exact ⟨frame, framed, (List.prefix_append cells rest).trans inside, by omega⟩

theorem Partial.incomplete {cells : List β} (partly : layout.Partial cells) :
    layout.Incomplete cells := by
  obtain ⟨frame, framed, ⟨rest, rfl⟩, shorter⟩ := partly
  by_cases short : cells.length < layout.header
  · exact Or.inl short
  · have size := layout.size_append cells rest (Nat.not_lt.mp short)
    rw [framed.2] at size
    exact Or.inr (size ▸ shorter)

theorem Frame.cut {frame rest cells more : List β} (framed : layout.Frame frame)
    (same : cells ++ more = frame ++ rest) :
    layout.Partial cells ∨ ∃ after, cells = frame ++ after ∧ after ++ more = rest := by
  rcases Nat.lt_or_ge cells.length frame.length with inside | beyond
  · have before : cells <+: frame :=
      List.prefix_of_prefix_length_le (same ▸ List.prefix_append cells more)
        (List.prefix_append frame rest) (Nat.le_of_lt inside)
    exact Or.inl ⟨frame, framed, before, inside⟩
  · obtain ⟨after, rfl⟩ : frame <+: cells :=
      List.prefix_of_prefix_length_le (List.prefix_append frame rest)
        (same ▸ List.prefix_append cells more) beyond
    rw [List.append_assoc] at same
    exact Or.inr ⟨after, rfl, List.append_cancel_left same⟩

/-- Cutting a framed stream anywhere: the part before the cut is some of the frames and an
incomplete rest, which the part after the cut completes. -/
theorem exists_cut {frames : List (List β)} (framed : ∀ frame ∈ frames, layout.Frame frame)
    {tail cells more : List β} (incomplete : layout.Incomplete tail)
    (same : cells ++ more = frames.flatten ++ tail) :
    ∃ arrived ahead rest, frames = arrived ++ ahead ∧ cells = arrived.flatten ++ rest ∧
      layout.Incomplete rest ∧ rest ++ more = ahead.flatten ++ tail := by
  induction frames generalizing cells with
  | nil =>
    rw [List.flatten_nil, List.nil_append] at same
    exact ⟨[], [], cells, rfl, rfl, (same ▸ incomplete).of_append, same⟩
  | cons frame frames ih =>
    rw [List.flatten_cons, List.append_assoc] at same
    rcases (framed frame List.mem_cons_self).cut same with partly | ⟨after, rfl, later⟩
    · refine ⟨[], frame :: frames, cells, rfl, rfl, partly.incomplete, ?_⟩
      rw [same, List.flatten_cons, List.append_assoc]
    · obtain ⟨arrived, ahead, rest, rfl, rfl, open', join⟩ :=
        ih (fun other member => framed other (List.mem_cons_of_mem _ member)) later
      refine ⟨frame :: arrived, ahead, rest, rfl, ?_, open', join⟩
      rw [List.flatten_cons, List.append_assoc]

theorem Incomplete.isPartial {frames : List (List β)}
    (framed : ∀ frame ∈ frames, layout.Frame frame) {tail rest more : List β}
    (partly : layout.Partial tail) (incomplete : layout.Incomplete rest)
    (join : rest ++ more = frames.flatten ++ tail) : layout.Partial rest := by
  cases frames with
  | nil =>
    rw [List.flatten_nil, List.nil_append] at join
    exact (join ▸ partly).of_append
  | cons frame frames =>
    have first := framed frame List.mem_cons_self
    rw [List.flatten_cons, List.append_assoc] at join
    rcases first.cut join with inside | ⟨after, rfl, _⟩
    · exact inside
    · exact absurd incomplete (first.not_incomplete after)

theorem length_le_flatten {frames : List (List β)} (framed : ∀ frame ∈ frames, layout.Frame frame) :
    frames.length ≤ frames.flatten.length := by
  induction frames with
  | nil => exact Nat.zero_le _
  | cons frame frames ih =>
    have header := (framed frame List.mem_cons_self).1
    have positive := layout.positive
    have rest := ih (fun other member => framed other (List.mem_cons_of_mem _ member))
    rw [List.length_cons, List.flatten_cons, List.length_append]
    omega

theorem strip_frames {frames : List (List β)} (framed : ∀ frame ∈ frames, layout.Frame frame)
    {tail : List β} (incomplete : layout.Incomplete tail) {fuel : Nat}
    (enough : frames.length ≤ fuel) : layout.strip fuel (frames.flatten ++ tail) = tail := by
  induction frames generalizing fuel with
  | nil =>
    cases fuel with
    | zero => rfl
    | succ fuel =>
      unfold Incomplete at incomplete
      rw [List.flatten_nil, List.nil_append, strip, if_neg (by omega)]
  | cons frame frames ih =>
    obtain ⟨fuel, rfl⟩ : ∃ less, fuel = less + 1 := ⟨fuel - 1, by simp at enough; omega⟩
    have first := framed frame List.mem_cons_self
    have header := first.1
    rw [List.flatten_cons, List.append_assoc, strip, first.size_append, List.length_append,
      if_pos ⟨by omega, by omega⟩, List.drop_left]
    exact ih (fun other member => framed other (List.mem_cons_of_mem _ member))
      (by simpa using enough)

theorem cut_frames {frames : List (List β)} (framed : ∀ frame ∈ frames, layout.Frame frame)
    (tail : List β) (incomplete : layout.Incomplete tail) {fuel : Nat}
    (enough : frames.length ≤ fuel) :
    layout.cut fuel (frames.flatten ++ tail) = (frames, tail) := by
  induction frames generalizing fuel with
  | nil =>
    cases fuel with
    | zero => rfl
    | succ fuel =>
      unfold Incomplete at incomplete
      rw [List.flatten_nil, List.nil_append, cut, if_neg (by omega)]
  | cons frame frames ih =>
    obtain ⟨fuel, rfl⟩ : ∃ less, fuel = less + 1 := ⟨fuel - 1, by simp at enough; omega⟩
    have first := framed frame List.mem_cons_self
    have header := first.1
    have rest := ih (fun other member => framed other (List.mem_cons_of_mem _ member))
      (Nat.le_of_succ_le_succ enough)
    rw [List.flatten_cons, List.append_assoc, cut, first.size_append, List.length_append,
      if_pos ⟨by omega, by omega⟩, List.drop_left, List.take_left, rest]

theorem Starts.frame {cells : List β} (starts : layout.Starts cells) :
    layout.Frame (cells.take (layout.size cells)) := by
  obtain ⟨header, whole⟩ := starts
  have length : (cells.take (layout.size cells)).length = layout.size cells :=
    List.length_take_of_le whole
  have size := layout.size_append (cells.take (layout.size cells)) (cells.drop (layout.size cells))
    (by omega)
  rw [List.take_append_drop] at size
  exact ⟨by omega, by omega⟩

theorem leading_spec (cells : List β) {fuel : Nat} (enough : cells.length ≤ fuel) :
    (∀ frame ∈ (layout.leading fuel cells).1, layout.Frame frame) ∧
      cells = (layout.leading fuel cells).1.flatten ++ (layout.leading fuel cells).2 ∧
      ¬ layout.Starts (layout.leading fuel cells).2 := by
  have positive := layout.positive
  induction fuel generalizing cells with
  | zero =>
    have empty : cells = [] := List.eq_nil_of_length_eq_zero (Nat.le_zero.mp enough)
    subst empty
    have none' : ¬ layout.Starts ([] : List β) := by
      unfold Starts
      rw [List.length_nil]
      omega
    exact ⟨by simp [leading], rfl, none'⟩
  | succ fuel ih =>
    by_cases starts : layout.Starts cells
    · have shorter : (cells.drop (layout.size cells)).length ≤ fuel := by
        have header := starts.1
        rw [List.length_drop]
        omega
      obtain ⟨framed, same, stops⟩ := ih (cells.drop (layout.size cells)) shorter
      simp only [leading, if_pos starts]
      refine ⟨?_, ?_, stops⟩
      · intro frame member
        rcases List.mem_cons.mp member with rfl | later
        · exact starts.frame
        · exact framed frame later
      · rw [List.flatten_cons, List.append_assoc, ← same, List.take_append_drop]
    · simp only [leading, if_neg starts]
      exact ⟨by simp, rfl, starts⟩

/-- The frames and the rest of a stream are determined by its cells. -/
theorem remainder_frames {frames : List (List β)} (framed : ∀ frame ∈ frames, layout.Frame frame)
    {tail : List β} (incomplete : layout.Incomplete tail) :
    layout.remainder (frames.flatten ++ tail) = tail := by
  apply strip_frames framed incomplete
  have count := length_le_flatten framed
  rw [List.length_append]
  omega

theorem remainder_of_partial {cells : List β} (partly : layout.Partial cells) :
    layout.remainder cells = cells := by
  have whole : layout.remainder (([] : List (List β)).flatten ++ cells) = cells :=
    remainder_frames (by simp) partly.incomplete
  rwa [List.flatten_nil, List.nil_append] at whole

theorem TailOf.eq_remainder {cells rest : List β} (tail : layout.TailOf cells rest) :
    rest = layout.remainder cells := by
  obtain ⟨partly, frames, framed, rfl⟩ := tail
  exact (remainder_frames framed partly.incomplete).symm

theorem Stream.tailOf_remainder {cells : List β} (stream : layout.Stream cells) :
    layout.TailOf cells (layout.remainder cells) := by
  obtain ⟨rest, tail⟩ := stream
  rwa [← tail.eq_remainder]

theorem Stream.cut {cells more : List β} (stream : layout.Stream (cells ++ more)) :
    layout.Stream cells ∧ layout.Stream (layout.remainder cells ++ more) ∧
      layout.remainder (layout.remainder cells ++ more) = layout.remainder (cells ++ more) := by
  obtain ⟨tail, partly, frames, framed, same⟩ := stream
  obtain ⟨arrived, ahead, rest, rfl, content, incomplete, join⟩ :=
    exists_cut framed partly.incomplete same
  have before : ∀ frame ∈ arrived, layout.Frame frame :=
    fun frame member => framed frame (List.mem_append_left _ member)
  have after : ∀ frame ∈ ahead, layout.Frame frame :=
    fun frame member => framed frame (List.mem_append_right _ member)
  have isPartial := incomplete.isPartial after partly join
  have tailOf : layout.TailOf cells rest := ⟨isPartial, arrived, before, content⟩
  rw [← tailOf.eq_remainder, join, same, remainder_frames after partly.incomplete,
    remainder_frames framed partly.incomplete]
  exact ⟨⟨rest, tailOf⟩, ⟨tail, partly, ahead, after, rfl⟩, rfl⟩

end Layout

end Oflops.Lib.Framing
