import Mathlib.Data.List.Forall2

/-! Things that come out of a line in the order in which they went in, some of them not at all: they
are related one by one to a part of what went in. -/

namespace Oflops.Lib.Pairing
open List

variable {α β : Type*} {R : α → β → Prop} {xs ys : List α} {zs : List β}

theorem grow (paired : SublistForall₂ R xs zs) (more : List β) :
    SublistForall₂ R xs (zs ++ more) := by
  obtain ⟨part, related, inside⟩ := sublistForall₂_iff.mp paired
  exact sublistForall₂_iff.mpr ⟨part, related, inside.trans (sublist_append_left zs more)⟩

theorem snoc (paired : SublistForall₂ R xs zs) {x : α} {z : β} (related : R x z) :
    SublistForall₂ R (xs ++ [x]) (zs ++ [z]) := by
  obtain ⟨part, all, inside⟩ := sublistForall₂_iff.mp paired
  exact sublistForall₂_iff.mpr ⟨part ++ [z], rel_append all (.cons related .nil),
    inside.append_right [z]⟩

theorem forall₂_of_sublist (few : xs <+ ys) {zs : List β} (all : Forall₂ R ys zs) :
    ∃ part, Forall₂ R xs part ∧ part <+ zs := by
  induction few generalizing zs with
  | slnil =>
    cases all
    exact ⟨[], .nil, .slnil⟩
  | cons x few ih =>
    cases all with
    | cons _ rest =>
      obtain ⟨part, related, inside⟩ := ih rest
      exact ⟨part, related, inside.cons _⟩
  | cons_cons x few ih =>
    cases all with
    | cons first rest =>
      obtain ⟨part, related, inside⟩ := ih rest
      exact ⟨_ :: part, .cons first related, inside.cons_cons _⟩

theorem lose (paired : SublistForall₂ R ys zs) (few : xs <+ ys) : SublistForall₂ R xs zs := by
  obtain ⟨part, all, inside⟩ := sublistForall₂_iff.mp paired
  obtain ⟨rest, related, fewer⟩ := forall₂_of_sublist few all
  exact sublistForall₂_iff.mpr ⟨rest, related, fewer.trans inside⟩

theorem forall₂_replace {x x' : α} {zs : List β} (all : Forall₂ R (xs ++ x :: ys) zs)
    (stays : ∀ z ∈ zs, R x z → R x' z) : Forall₂ R (xs ++ x' :: ys) zs := by
  induction xs generalizing zs with
  | nil =>
    cases all with
    | cons first rest => exact .cons (stays _ mem_cons_self first) rest
  | cons y xs ih =>
    cases all with
    | cons first rest =>
      exact .cons first (ih rest fun z member => stays z (mem_cons_of_mem _ member))

theorem replace {x x' : α} (paired : SublistForall₂ R (xs ++ x :: ys) zs)
    (stays : ∀ z ∈ zs, R x z → R x' z) : SublistForall₂ R (xs ++ x' :: ys) zs := by
  obtain ⟨part, all, inside⟩ := sublistForall₂_iff.mp paired
  have moved := forall₂_replace all fun z member => stays z (inside.subset member)
  exact sublistForall₂_iff.mpr ⟨part, moved, inside⟩

theorem mono {S : α → β → Prop} (paired : SublistForall₂ R xs zs)
    (stays : ∀ x ∈ xs, ∀ z ∈ zs, R x z → S x z) : SublistForall₂ S xs zs := by
  induction paired with
  | nil => exact .nil
  | cons related _ ih =>
    refine .cons (stays _ mem_cons_self _ mem_cons_self related) (ih ?_)
    exact fun x inside z member => stays x (mem_cons_of_mem _ inside) z (mem_cons_of_mem _ member)
  | cons_right _ ih =>
    refine .cons_right (ih ?_)
    exact fun x inside z member => stays x inside z (mem_cons_of_mem _ member)

theorem related {x : α} (paired : SublistForall₂ R (xs ++ x :: ys) zs) : ∃ z ∈ zs, R x z := by
  generalize whole : xs ++ x :: ys = line at paired
  induction paired generalizing xs with
  | nil => simp at whole
  | @cons y z line zs first _ ih =>
    cases xs with
    | nil =>
      cases whole
      exact ⟨z, mem_cons_self, first⟩
    | cons y' xs =>
      cases whole
      obtain ⟨z', member, holds⟩ := ih rfl
      exact ⟨z', mem_cons_of_mem _ member, holds⟩
  | cons_right _ ih =>
    obtain ⟨z', member, holds⟩ := ih whole
    exact ⟨z', mem_cons_of_mem _ member, holds⟩

end Oflops.Lib.Pairing
