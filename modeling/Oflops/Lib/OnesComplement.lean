import Mathlib.Data.Nat.ModEq
import Mathlib.Algebra.BigOperators.Group.List.Basic
import Mathlib.Tactic.SplitIfs

/-! One's complement sums: addition of words up to `top` with the carry brought round to the
low end. -/

namespace Oflops.Lib.OnesComplement

variable {top : Nat}

def onesAdd (top a b : Nat) : Nat := if a + b ≤ top then a + b else a + b - top

def onesSum (top : Nat) (words : List Nat) : Nat := words.foldl (onesAdd top) 0

theorem onesAdd_modEq (a b : Nat) : onesAdd top a b ≡ a + b [MOD top] := by
  unfold onesAdd
  split_ifs with fits
  · rfl
  · have carried : a + b = a + b - top + top := by omega
    nth_rewrite 2 [carried]
    exact (Nat.add_mod_right _ _).symm

theorem onesAdd_le {a b : Nat} (first : a ≤ top) (second : b ≤ top) : onesAdd top a b ≤ top := by
  unfold onesAdd
  split_ifs <;> omega

theorem onesAdd_pos {a b : Nat} (some' : 0 < a + b) : 0 < onesAdd top a b := by
  unfold onesAdd
  split_ifs <;> omega

theorem foldl_onesAdd {words : List Nat} (small : ∀ word ∈ words, word ≤ top) {acc : Nat}
    (start : acc ≤ top) :
    words.foldl (onesAdd top) acc ≤ top ∧
      words.foldl (onesAdd top) acc ≡ acc + words.sum [MOD top] ∧
      (0 < acc + words.sum → 0 < words.foldl (onesAdd top) acc) := by
  induction words generalizing acc with
  | nil => exact ⟨start, Nat.ModEq.refl _, id⟩
  | cons word words ih =>
    have first := small word List.mem_cons_self
    obtain ⟨bound, same, positive⟩ :=
      ih (fun other member => small other (List.mem_cons_of_mem _ member))
      (onesAdd_le start first)
    rw [List.foldl_cons, List.sum_cons, ← Nat.add_assoc]
    refine ⟨bound, same.trans ((onesAdd_modEq acc word).add_right _), fun some' => positive ?_⟩
    rcases Nat.eq_zero_or_pos (acc + word) with zero | pos
    · omega
    · exact Nat.add_pos_left (onesAdd_pos pos) _

theorem foldl_onesAdd_le (words : List Nat) (acc : Nat) :
    words.foldl (onesAdd top) acc ≤ acc + words.sum := by
  induction words generalizing acc with
  | nil => exact Nat.le_refl _
  | cons word words ih =>
    have step : onesAdd top acc word ≤ acc + word := by
      unfold onesAdd
      split_ifs <;> omega
    have rest := ih (onesAdd top acc word)
    rw [List.foldl_cons, List.sum_cons]
    omega

/-- A one's complement sum is the ordinary one modulo the largest word, and of the two zeros it is
the small one only if all the words are. -/
theorem onesSum_spec {words : List Nat} (small : ∀ word ∈ words, word ≤ top) :
    onesSum top words ≤ top ∧ onesSum top words ≡ words.sum [MOD top] ∧
      (onesSum top words = 0 ↔ words.sum = 0) := by
  obtain ⟨bound, same, positive⟩ := foldl_onesAdd small (Nat.zero_le top)
  have below : words.foldl (onesAdd top) 0 ≤ 0 + words.sum := foldl_onesAdd_le words 0
  rw [Nat.zero_add] at same positive below
  unfold onesSum
  exact ⟨bound, same, by omega⟩

theorem eq_of_modEq {x y : Nat} (first : x ≤ top) (second : y ≤ top) (same : x ≡ y [MOD top])
    (zero : x = 0 ↔ y = 0) : x = y := by
  wlog order : x ≤ y generalizing x y
  · exact (this second first same.symm zero.symm (by omega)).symm
  have divides : top ∣ y - x := (Nat.modEq_iff_dvd' order).mp same
  rcases Nat.eq_zero_or_pos (y - x) with equal | apart
  · omega
  · have far := Nat.le_of_dvd apart divides
    omega

theorem eq_top_of_dvd {x : Nat} (divides : top ∣ x) (low : 0 < x) (high : x ≤ top) : x = top :=
  Nat.le_antisymm high (Nat.le_of_dvd low divides)

/-- Words that are not all zero add up to the largest word exactly when their ordinary sum is
divisible by it. -/
theorem onesSum_eq_top {words : List Nat} (small : ∀ word ∈ words, word ≤ top)
    (divides : top ∣ words.sum) (some' : 0 < words.sum) : onesSum top words = top := by
  obtain ⟨bound, same, zero⟩ := onesSum_spec small
  exact eq_top_of_dvd ((Nat.ModEq.dvd_iff same (dvd_refl top)).mpr divides) (by omega) bound

theorem halves_modEq (base x : Nat) (positive : 0 < base) :
    x % base + x / base ≡ x [MOD base - 1] := by
  have split := Nat.mod_add_div x base
  have factor : base * (x / base) = (base - 1) * (x / base) + x / base := by
    rw [← Nat.succ_mul, Nat.succ_eq_add_one, Nat.sub_add_cancel positive]
  have whole : x = x % base + x / base + (base - 1) * (x / base) := by omega
  nth_rewrite 3 [whole]
  exact (Nat.add_mul_mod_self_left _ _ _).symm

end Oflops.Lib.OnesComplement
