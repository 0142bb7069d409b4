import Mathlib.Algebra.BigOperators.Group.List.Basic
import Mathlib.Data.Rat.Lemmas
import Oflops.Lib.ArrayFill
import Oflops.Lib.MachineInt
import Oflops.Lib.RunningBounds

/-! The tests that `main` of cbench runs and the RESULT lines it prints, with the rates of the tests
as exact rationals. -/

namespace Oflops.Cbench.Results
open Lib.ArrayFill Lib.MachineInt Lib.RunningBounds

/-- The check of the options: the exit code and the text of the error. -/
def checkOptions (testsPerLoop warmup cooldown : Int) : Option (Except (Nat × String) Unit) := do
  let ignored ← checkedInt (warmup + cooldown)
  if ignored ≥ testsPerLoop then
    some (.error (10,
      s!"Error warmup({warmup}) + cooldown({cooldown}) >= number of tests ({testsPerLoop})"))
  else some (.ok ())

/-- Options that pass the check; the numbers are of type `int`. -/
structure Config where
  testsPerLoop : Int
  warmup : Int
  cooldown : Int
  nFakeswitches : Int
  shouldTestRange : Bool
  ints : testsPerLoop < 2 ^ 31 ∧ nFakeswitches < 2 ^ 31
  passed : checkOptions testsPerLoop warmup cooldown = some (.ok ())

def countBits (n : Nat) : Nat := (List.range 32).countP n.testBit

def dblMax : ℚ := 2 ^ 1024 - 2 ^ 971

structure Totals where
  results : List (Option ℚ)
  sum : ℚ
  min : ℚ
  max : ℚ

structure Line where
  switches : Nat
  countedTests : Int
  min : ℚ
  max : ℚ
  avg : ℚ
  variance : ℚ

section Tests
variable (config : Config) (v : Nat → ℚ)

def testTurn (totals : Totals) (j : Nat) : Option Totals := do
  let results ← put totals.results j (v j)
  if j < config.warmup then some { totals with results }
  else
    let stop ← checkedInt (config.testsPerLoop - config.cooldown)
    if j ≥ stop then some { totals with results }
    else
      let max := if v j > totals.max then v j else totals.max
      let min := if v j < totals.min then v j else totals.min
      some { results, sum := totals.sum + v j, min, max }

/-- The squared distance of result `warmup + k` from the average is added. -/
def addSquare (results : List (Option ℚ)) (avg sum : ℚ) (k : Nat) : Option ℚ := do
  let result ← cell results (config.warmup + k)
  some (sum + (result - avg) ^ 2)

def squares (results : List (Option ℚ)) (avg : ℚ) : Option ℚ := do
  let stop ← checkedInt (config.testsPerLoop - config.cooldown)
  (List.range (stop - config.warmup).toNat).foldlM (addSquare config results avg) 0

/-- The tests with `i + 1` switches, and their line. -/
def test (i : Nat) (totals : Totals) : Option (Line × Totals) := do
  let totals ← (List.range config.testsPerLoop.toNat).foldlM (testTurn config v)
    { totals with sum := 0 }
  let rest ← checkedInt (config.testsPerLoop - config.warmup)
  let countedTests ← checkedInt (rest - config.cooldown)
  let avg := totals.sum / countedTests
  let sum ← squares config totals.results avg
  some (⟨i + 1, countedTests, totals.min, totals.max, avg, sum / countedTests⟩, totals)

end Tests

def tested (config : Config) (i : Nat) : Bool :=
  countBits (i + 1) ≠ 0 ∧ (config.shouldTestRange ∨ (i : Int) + 1 = config.nFakeswitches)

/-- The loop over the number of switches; `runTest i j` is the rate of test `j` with `i + 1`
switches. -/
def testLoop (config : Config) (runTest : Nat → Nat → ℚ) : List Nat → Totals → Option (List Line)
  | [], _ => some []
  | i :: rest, totals =>
    if tested config i then do
      let (line, totals) ← test config (fun j => 1000 * runTest i j) i totals
      let lines ← testLoop config runTest rest totals
      some (line :: lines)
    else testLoop config runTest rest totals

def main (config : Config) (runTest : Nat → Nat → ℚ) : Option (List Line) :=
  testLoop config runTest (List.range config.nFakeswitches.toNat)
    ⟨alloc config.testsPerLoop.toNat, 0, dblMax, 0⟩

/-! ### What the lines are to report -/

def Counts (config : Config) (j : Nat) : Prop :=
  config.warmup ≤ j ∧ (j : Int) < config.testsPerLoop - config.cooldown

instance (config : Config) (j : Nat) : Decidable (Counts config j) :=
  inferInstanceAs (Decidable (_ ∧ _))

def countedUpTo (config : Config) (v : Nat → ℚ) (n : Nat) : List ℚ :=
  ((List.range n).filter fun j => Counts config j).map v

def counted (config : Config) (runTest : Nat → Nat → ℚ) (i : Nat) : List ℚ :=
  countedUpTo config (fun j => 1000 * runTest i j) config.testsPerLoop.toNat

/-- The line summarises the results of its number of switches. -/
structure Reports (config : Config) (runTest : Nat → Nat → ℚ) (i : Nat) (line : Line) : Prop where
  switches : line.switches = i + 1
  countedTests : line.countedTests = (counted config runTest i).length
  min : IsLeast {x | x ∈ counted config runTest i} line.min
  max : IsGreatest {x | x ∈ counted config runTest i} line.max
  avg : line.avg = (counted config runTest i).sum / (counted config runTest i).length

/-- All accesses are inside `results`, and there is a correct line for each number of switches that
is tested. -/
def Summarises (config : Config) (runTest : Nat → Nat → ℚ) : Prop :=
  ∃ lines, main config runTest = some lines ∧
    List.Forall₂ (Reports config runTest)
      ((List.range config.nFakeswitches.toNat).filter (tested config)) lines

/-! ### The tests with one number of switches -/

theorem Config.counts_some (config : Config) :
    config.warmup + config.cooldown < config.testsPerLoop := by
  obtain ⟨ignored, checked, ok⟩ := Option.bind_eq_some_iff.mp config.passed
  obtain ⟨-, rfl⟩ := checkedInt_eq_some.mp checked
  by_contra many
  rw [if_pos (not_lt.mp many)] at ok
  cases ok

theorem countedUpTo_succ (config : Config) (v : Nat → ℚ) (n : Nat) :
    countedUpTo config v (n + 1) =
      countedUpTo config v n ++ if Counts config n then [v n] else [] := by
  have last := map_filter_cons (fun j => Counts config j) v n []
  rw [List.filter_nil, List.map_nil, List.append_nil] at last
  rw [countedUpTo, List.range_succ, List.filter_append, List.map_append, last]
  rfl

structure After (config : Config) (v : Nat → ℚ) (start : Totals) (n : Nat) (totals : Totals) :
    Prop where
  length : totals.results.length = start.results.length
  written : ∀ j < n, totals.results[j]? = some (some (v j))
  sum : totals.sum = start.sum + (countedUpTo config v n).sum
  min : totals.min = (countedUpTo config v n).foldl min start.min
  max : totals.max = (countedUpTo config v n).foldl max start.max

section Stored
variable {config : Config} {v : Nat → ℚ} {start totals : Totals} {n : Nat}
  (after : After config v start n totals)
include after

theorem After.set_length : (totals.results.set n (some (v n))).length = start.results.length := by
  rw [List.length_set, after.length]

theorem After.set_written (inside : n < start.results.length) :
    ∀ j < n + 1, (totals.results.set n (some (v n)))[j]? = some (some (v j)) := by
  intro j low
  rcases Nat.lt_succ_iff_lt_or_eq.mp low with earlier | rfl
  · rw [List.getElem?_set_ne (Nat.ne_of_gt earlier), after.written j earlier]
  · rw [List.getElem?_set_self (after.length ▸ inside)]

theorem After.skip (inside : n < start.results.length) (skipped : ¬ Counts config n) :
    After config v start (n + 1) { totals with results := totals.results.set n (some (v n)) } := by
  have same : countedUpTo config v (n + 1) = countedUpTo config v n := by
    rw [countedUpTo_succ, if_neg skipped, List.append_nil]
  exact ⟨after.set_length, after.set_written inside, same ▸ after.sum, same ▸ after.min,
    same ▸ after.max⟩

theorem After.count (inside : n < start.results.length) (counts : Counts config n) :
    After config v start (n + 1) ⟨totals.results.set n (some (v n)), totals.sum + v n,
      if v n < totals.min then v n else totals.min, if v n > totals.max then v n
      else totals.max⟩ := by
  have more : countedUpTo config v (n + 1) = countedUpTo config v n ++ [v n] := by
    rw [countedUpTo_succ, if_pos counts]
  refine ⟨after.set_length, after.set_written inside, ?_, ?_, ?_⟩
  · rw [more, List.sum_append, List.sum_singleton, ← add_assoc, ← after.sum]
  · rw [more, List.foldl_append, ← after.min]
    exact (min_def_lt _ _).symm.trans (min_comm _ _)
  · rw [more, List.foldl_append, ← after.max]
    exact (max_def_lt _ _).symm

end Stored

theorem addSquares_some_iff (config : Config) (results : List (Option ℚ)) (avg sum : ℚ)
    (ks : List Nat) :
    (∃ total, ks.foldlM (addSquare config results avg) sum = some total) ↔
      ∀ k ∈ ks, ∃ value, cell results (config.warmup + (k : Nat)) = some value := by
  induction ks generalizing sum with
  | nil => exact iff_of_true ⟨sum, rfl⟩ fun k member => absurd member List.not_mem_nil
  | cons k ks ih =>
    rw [List.forall_mem_cons, List.foldlM_cons, addSquare]
    cases read : cell results (config.warmup + k) with
    | none =>
      refine iff_of_false ?_ ?_
      · rintro ⟨total, fault⟩
        cases fault
      · rintro ⟨⟨value, there⟩, -⟩
        cases there
    | some value =>
      rw [and_iff_right ⟨value, rfl⟩]
      exact ih _

section Sound
variable {config : Config} (warm : 0 ≤ config.warmup) (cool : 0 ≤ config.cooldown)
include warm cool

theorem stop_checked : checkedInt (config.testsPerLoop - config.cooldown) =
    some (config.testsPerLoop - config.cooldown) := by
  have := config.counts_some
  have := config.ints.1
  exact checkedInt_eq_some.mpr ⟨by omega, rfl⟩

theorem testTurn_after {v : Nat → ℚ} {start totals : Totals} {n : Nat}
    (after : After config v start n totals) (inside : n < start.results.length) :
    ∃ next, testTurn config v totals n = some next ∧ After config v start (n + 1) next := by
  have written := put_inside (after.length ▸ inside) (v n)
  rw [testTurn, written, Option.bind_eq_bind, Option.bind_some]
  by_cases early : (n : Int) < config.warmup
  · rw [if_pos early]
    exact ⟨_, rfl, after.skip inside fun counts => absurd counts.1 (not_le.mpr early)⟩
  · rw [if_neg early, stop_checked warm cool, Option.bind_eq_bind, Option.bind_some]
    by_cases late : (n : Int) ≥ config.testsPerLoop - config.cooldown
    · rw [if_pos late]
      exact ⟨_, rfl, after.skip inside fun counts => absurd counts.2 (not_lt.mpr late)⟩
    · rw [if_neg late]
      exact ⟨_, rfl, after.count inside ⟨not_lt.mp early, not_le.mp late⟩⟩

theorem tests_after (v : Nat → ℚ) (start : Totals) {n : Nat} (inside : n ≤ start.results.length) :
    ∃ totals, (List.range n).foldlM (testTurn config v) start = some totals ∧
      After config v start n totals := by
  induction n with
  | zero =>
    exact ⟨start, rfl, rfl, fun j low => absurd low (Nat.not_lt_zero j),
      (add_zero _).symm, rfl, rfl⟩
  | succ n ih =>
    obtain ⟨totals, ran, after⟩ := ih (Nat.le_of_succ_le inside)
    obtain ⟨next, turned, after'⟩ := testTurn_after warm cool after inside
    refine ⟨next, ?_, after'⟩
    rw [List.range_succ, List.foldlM_append, ran, Option.bind_eq_bind, Option.bind_some,
      List.foldlM_cons, turned]
    rfl

omit cool in
theorem countedUpTo_length (v : Nat → ℚ) (n : Nat) :
    ((countedUpTo config v n).length : Int) =
      max 0 (min (n : Int) (config.testsPerLoop - config.cooldown) - config.warmup) := by
  induction n with
  | zero =>
    rw [countedUpTo, List.range_zero, List.filter_nil, List.map_nil, List.length_nil]
    omega
  | succ n ih =>
    have more := countedUpTo_succ config v n
    split_ifs at more with counts
    · rw [more, List.length_append, List.length_singleton]
      obtain ⟨low, high⟩ := counts
      push_cast
      omega
    · rw [more, List.append_nil, ih]
      rw [Counts, not_and_or, not_le, not_lt] at counts
      push_cast
      omega

theorem squares_some {results : List (Option ℚ)} {v : Nat → ℚ} (avg : ℚ)
    (written : ∀ j < config.testsPerLoop.toNat, results[j]? = some (some (v j))) :
    ∃ sum, squares config results avg = some sum := by
  rw [squares, stop_checked warm cool, Option.bind_eq_bind, Option.bind_some]
  apply (addSquares_some_iff config results avg 0 _).mpr
  intro k member
  have low := List.mem_range.mp member
  refine ⟨v (config.warmup + k).toNat, ?_⟩
  rw [cell, if_pos (by omega), written _ (by omega)]
  rfl

theorem test_after (v : Nat → ℚ) (i : Nat) {start : Totals}
    (size : start.results.length = config.testsPerLoop.toNat) :
    ∃ line next, test config v i start = some (line, next) ∧
      After config v { start with sum := 0 } config.testsPerLoop.toNat next ∧
      line.switches = i + 1 ∧ line.min = next.min ∧ line.max = next.max ∧
      line.countedTests = (countedUpTo config v config.testsPerLoop.toNat).length ∧
      line.avg = (countedUpTo config v config.testsPerLoop.toNat).sum /
        (countedUpTo config v config.testsPerLoop.toNat).length := by
  have positive := config.counts_some
  have small := config.ints.1
  obtain ⟨next, ran, after⟩ :=
    tests_after warm cool v { start with sum := 0 } (Nat.le_of_eq size.symm)
  obtain ⟨sum, squared⟩ := squares_some warm cool
    (next.sum / ((config.testsPerLoop - config.warmup - config.cooldown : Int) : ℚ)) after.written
  have rest : checkedInt (config.testsPerLoop - config.warmup) =
      some (config.testsPerLoop - config.warmup) := checkedInt_eq_some.mpr ⟨by omega, rfl⟩
  have all : checkedInt (config.testsPerLoop - config.warmup - config.cooldown) =
      some (config.testsPerLoop - config.warmup - config.cooldown) :=
    checkedInt_eq_some.mpr ⟨by omega, rfl⟩
  have length : config.testsPerLoop - config.warmup - config.cooldown =
      (countedUpTo config v config.testsPerLoop.toNat).length := by
    rw [countedUpTo_length warm]
    omega
  have done : ∀ n : Int,
      checkedInt (config.testsPerLoop - config.warmup - config.cooldown) = some n →
      squares config next.results (next.sum / n) = some sum →
      test config v i start =
        some (⟨i + 1, n, next.min, next.max, next.sum / n, sum / n⟩, next) := by
    intro n all squared
    rw [test, ran, Option.bind_eq_bind, Option.bind_some, rest, Option.bind_eq_bind,
      Option.bind_some, all, Option.bind_eq_bind, Option.bind_some]
    dsimp only
    rw [squared]
    rfl
  refine ⟨_, next, done _ all squared, after, rfl, rfl, rfl, length, ?_⟩
  rw [after.sum, zero_add, length, Int.cast_natCast]

end Sound

/-! ### Negative options -/

theorem testTurn_length {config : Config} {v : Nat → ℚ} {totals next : Totals} {j : Nat}
    (turned : testTurn config v totals j = some next) :
    next.results.length = totals.results.length := by
  obtain ⟨results, written, turned⟩ := Option.bind_eq_some_iff.mp turned
  obtain ⟨-, -, rfl⟩ := put_some written
  by_cases early : (j : Int) < config.warmup
  · rw [if_pos early] at turned
    cases turned
    exact List.length_set
  · rw [if_neg early] at turned
    obtain ⟨stop, -, turned⟩ := Option.bind_eq_some_iff.mp turned
    by_cases late : (j : Int) ≥ stop
    · rw [if_pos late] at turned
      cases turned
      exact List.length_set
    · rw [if_neg late] at turned
      cases turned
      exact List.length_set

theorem tests_length {config : Config} {v : Nat → ℚ} {totals next : Totals} {js : List Nat}
    (ran : js.foldlM (testTurn config v) totals = some next) :
    next.results.length = totals.results.length := by
  induction js generalizing totals with
  | nil =>
    cases ran
    rfl
  | cons j js ih =>
    obtain ⟨mid, turned, rest⟩ := Option.bind_eq_some_iff.mp ran
    rw [ih rest, testTurn_length turned]

/-- With a negative option the second loop reads in front of the results or behind them. -/
theorem nonneg_of_test {config : Config} {v : Nat → ℚ} {i : Nat} {start next : Totals} {line : Line}
    (size : start.results.length = config.testsPerLoop.toNat)
    (ran : test config v i start = some (line, next)) :
    0 ≤ config.warmup ∧ 0 ≤ config.cooldown := by
  have positive := config.counts_some
  obtain ⟨totals, tests, ran⟩ := Option.bind_eq_some_iff.mp ran
  obtain ⟨rest, -, ran⟩ := Option.bind_eq_some_iff.mp ran
  obtain ⟨countedTests, -, ran⟩ := Option.bind_eq_some_iff.mp ran
  obtain ⟨sum, squared, -⟩ := Option.bind_eq_some_iff.mp ran
  obtain ⟨stop, checked, squared⟩ := Option.bind_eq_some_iff.mp squared
  obtain ⟨-, rfl⟩ := checkedInt_eq_some.mp checked
  have read := (addSquares_some_iff config totals.results _ 0 _).mp ⟨sum, squared⟩
  have length : totals.results.length = config.testsPerLoop.toNat := (tests_length tests).trans size
  obtain ⟨first, there⟩ := read 0 (List.mem_range.mpr (by omega))
  obtain ⟨last, there'⟩ := read ((config.testsPerLoop - config.cooldown - config.warmup).toNat - 1)
    (List.mem_range.mpr (by omega))
  have low := (cell_some there).1
  have high := (cell_some there').2
  rw [length] at high
  omega

/-! ### All numbers of switches -/

/-- The results for each number of switches reach below and above all that was counted before, and
below `DBL_MAX` and above 0. -/
def Spans (config : Config) (runTest : Nat → Nat → ℚ) : List ℚ → List Nat → Prop
  | _, [] => True
  | past, i :: rest =>
    (∀ x ∈ dblMax :: past, ∃ y ∈ counted config runTest i, y ≤ x) ∧
      (∀ x ∈ 0 :: past, ∃ y ∈ counted config runTest i, x ≤ y) ∧
      Spans config runTest (past ++ counted config runTest i) rest

/-- `min` and `max` are never reset, so they are those of all results counted so far. -/
structure Carries (config : Config) (past : List ℚ) (totals : Totals) : Prop where
  size : totals.results.length = config.testsPerLoop.toNat
  min : totals.min = past.foldl min dblMax
  max : totals.max = past.foldl max 0

theorem Carries.next {config : Config} {runTest : Nat → Nat → ℚ} {i : Nat} {past : List ℚ}
    {totals next : Totals} (carries : Carries config past totals)
    (after : After config (fun j => 1000 * runTest i j) { totals with sum := 0 }
      config.testsPerLoop.toNat next) :
    Carries config (past ++ counted config runTest i) next := by
  refine ⟨after.length.trans carries.size, ?_, ?_⟩
  · rw [after.min, List.foldl_append, ← carries.min]
    rfl
  · rw [after.max, List.foldl_append, ← carries.max]
    rfl

theorem test_reports {config : Config} (warm : 0 ≤ config.warmup) (cool : 0 ≤ config.cooldown)
    (runTest : Nat → Nat → ℚ) (i : Nat) {past : List ℚ} {totals : Totals}
    (carries : Carries config past totals) :
    ∃ line next, test config (fun j => 1000 * runTest i j) i totals = some (line, next) ∧
      Carries config (past ++ counted config runTest i) next ∧
      (Reports config runTest i line ↔
        (∀ x ∈ dblMax :: past, ∃ y ∈ counted config runTest i, y ≤ x) ∧
          ∀ x ∈ 0 :: past, ∃ y ∈ counted config runTest i, x ≤ y) := by
  obtain ⟨line, next, ran, after, switches, min, max, countedTests, avg⟩ :=
    test_after warm cool (fun j => 1000 * runTest i j) i carries.size
  have carries' := carries.next after
  refine ⟨line, next, ran, carries', ?_⟩
  rw [← own_isLeast_iff, ← own_isGreatest_iff, ← carries'.min, ← carries'.max, ← min, ← max]
  exact ⟨fun reports => ⟨reports.min, reports.max⟩,
    fun bounds => ⟨switches, countedTests, bounds.1, bounds.2, avg⟩⟩

theorem testLoop_iff {config : Config} (warm : 0 ≤ config.warmup) (cool : 0 ≤ config.cooldown)
    (runTest : Nat → Nat → ℚ) (is : List Nat) {past : List ℚ} {totals : Totals}
    (carries : Carries config past totals) :
    (∃ lines, testLoop config runTest is totals = some lines ∧
        List.Forall₂ (Reports config runTest) (is.filter (tested config)) lines) ↔
      Spans config runTest past (is.filter (tested config)) := by
  induction is generalizing past totals with
  | nil => exact iff_of_true ⟨[], rfl, .nil⟩ trivial
  | cons i is ih =>
    rw [testLoop, List.filter_cons]
    split_ifs with tests
    · obtain ⟨line, next, ran, carries', reports⟩ := test_reports warm cool runTest i carries
      rw [Spans, ← and_assoc, ← reports, ← ih carries', ran, Option.bind_eq_bind, Option.bind_some]
      constructor
      · rintro ⟨lines, done, all⟩
        obtain ⟨rest, ran', done⟩ := Option.bind_eq_some_iff.mp done
        cases done
        obtain ⟨first, later⟩ := List.forall₂_cons.mp all
        exact ⟨first, rest, ran', later⟩
      · rintro ⟨first, rest, ran', later⟩
        refine ⟨line :: rest, ?_, .cons first later⟩
        dsimp only
        rw [ran']
        rfl
    · exact ih carries

theorem countBits_ne_zero {n : Nat} (positive : 0 < n) (small : n < 2 ^ 32) : countBits n ≠ 0 := by
  obtain ⟨i, set⟩ := Nat.exists_testBit_of_ne_zero (Nat.ne_of_gt positive)
  apply Nat.ne_of_gt
  refine List.countP_pos_iff.mpr ⟨i, List.mem_range.mpr ?_, set⟩
  by_contra high
  have wide : 2 ^ 32 ≤ 2 ^ i := Nat.pow_le_pow_right (by decide) (not_lt.mp high)
  rw [Nat.testBit_lt_two_pow (Nat.lt_of_lt_of_le small wide)] at set
  cases set

theorem tested_last (config : Config) (some' : 0 < config.nFakeswitches) :
    ∃ i ∈ List.range config.nFakeswitches.toNat, tested config i = true := by
  have small := config.ints.2
  obtain ⟨i, count⟩ : ∃ i : Nat, config.nFakeswitches = i + 1 :=
    ⟨(config.nFakeswitches - 1).toNat, by omega⟩
  refine ⟨i, List.mem_range.mpr (by omega), decide_eq_true ⟨?_, Or.inr count.symm⟩⟩
  exact countBits_ne_zero (Nat.zero_lt_succ i) (by omega)

theorem nonneg_of_testLoop {config : Config} {runTest : Nat → Nat → ℚ} {is : List Nat}
    {totals : Totals} {lines : List Line} (size : totals.results.length = config.testsPerLoop.toNat)
    (ran : testLoop config runTest is totals = some lines)
    (some' : ∃ i ∈ is, tested config i = true) : 0 ≤ config.warmup ∧ 0 ≤ config.cooldown := by
  induction is with
  | nil =>
    obtain ⟨i, member, -⟩ := some'
    cases member
  | cons i is ih =>
    rw [testLoop] at ran
    split_ifs at ran with tests
    · obtain ⟨⟨line, next⟩, ran, -⟩ := Option.bind_eq_some_iff.mp ran
      exact nonneg_of_test size ran
    · obtain ⟨j, member, later⟩ := some'
      rcases List.mem_cons.mp member with rfl | member
      · exact absurd later tests
      · exact ih ran ⟨j, member, later⟩

/-- The lines are right exactly if nothing is tested, or the options are not negative and the
results for each number of switches span those for the numbers before it. -/
theorem result_lines_iff (config : Config) (runTest : Nat → Nat → ℚ) :
    Summarises config runTest ↔ config.nFakeswitches ≤ 0 ∨
      0 ≤ config.warmup ∧ 0 ≤ config.cooldown ∧
        Spans config runTest []
        ((List.range config.nFakeswitches.toNat).filter (tested config)) := by
  have carries : Carries config [] ⟨alloc config.testsPerLoop.toNat, 0, dblMax, 0⟩ :=
    ⟨List.length_replicate, rfl, rfl⟩
  by_cases none' : config.nFakeswitches ≤ 0
  · refine iff_of_true ⟨[], ?_, ?_⟩ (Or.inl none')
    · rw [main, Int.toNat_of_nonpos none']
      rfl
    · rw [Int.toNat_of_nonpos none']
      exact .nil
  · rw [or_iff_right none']
    constructor
    · rintro ⟨lines, ran, all⟩
      obtain ⟨warm, cool⟩ :=
        nonneg_of_testLoop carries.size ran (tested_last config (not_le.mp none'))
      exact ⟨warm, cool, (testLoop_iff warm cool runTest _ carries).mp ⟨lines, ran, all⟩⟩
    · rintro ⟨warm, cool, spans⟩
      exact (testLoop_iff warm cool runTest _ carries).mpr spans

/-- One and then two switches with a single test each, and the rates 1 and 2: the line for two
switches has the minimum of the one for one switch. With a negative warmup a result is read in front
of the array. -/
theorem results_carried_over :
    let ranged : Config := ⟨1, 0, 0, 2, true, by decide, rfl⟩
    let early : Config := ⟨1, -1, 0, 1, false, by decide, rfl⟩
    let rates : Nat → Nat → ℚ := fun i _ => i + 1
    (∃ first second, main ranged rates = some [first, second] ∧ second.min = 1000) ∧
      counted ranged rates 1 = [2000] ∧ ¬ Summarises ranged rates ∧ main early rates = none := by
  intro ranged early rates
  have single : counted ranged rates 1 = [2000] := by decide +kernel
  have shown : (main ranged rates).map (List.map Line.min) = some [1000, 1000] := by decide +kernel
  obtain ⟨lines, ran, mins⟩ := Option.map_eq_some_iff.mp shown
  obtain ⟨first, rest, rfl, -, mins⟩ := List.map_eq_cons_iff.mp mins
  obtain ⟨second, rest, rfl, min, none'⟩ := List.map_eq_cons_iff.mp mins
  obtain rfl := List.map_eq_nil_iff.mp none'
  refine ⟨⟨first, second, ran, min⟩, single, ?_, by decide +kernel⟩
  rintro ⟨lines, ran', all⟩
  cases ran.symm.trans ran'
  have both : (List.range ranged.nFakeswitches.toNat).filter (tested ranged) = [0, 1] := by
    decide +kernel
  rw [both] at all
  have own := (List.forall₂_cons.mp (List.forall₂_cons.mp all).2).1.min.1
  rw [single, min] at own
  exact absurd own (by decide +kernel)

end Oflops.Cbench.Results
