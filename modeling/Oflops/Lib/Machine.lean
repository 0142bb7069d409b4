import Mathlib.Data.List.Basic

/-! Machines that take one event at a time and may put out something at each step. Steps that are
not enabled have no result. -/

namespace Oflops.Lib.Machine

variable {State Event Output : Type*} {step : State → Event → Option (State × Option Output)}

/-- The final state and the log of a run. -/
def run (step : State → Event → Option (State × Option Output)) :
    State → List Event → Option (State × List Output)
  | state, [] => some (state, [])
  | state, event :: events => do
    let (state, output) ← step state event
    let (state, log) ← run step state events
    some (state, output.toList ++ log)

theorem concat_split {α : Type*} {past before after : List α} {last item : α}
    (split : past ++ [last] = before ++ item :: after) :
    (before = past ∧ item = last) ∨ ∃ rest, past = before ++ item :: rest := by
  rcases List.eq_nil_or_concat after with rfl | ⟨rest, other, rfl⟩
  · obtain ⟨same, items⟩ := List.append_inj' split rfl
    exact Or.inl ⟨same.symm, (List.cons.inj items).1.symm⟩
  · rw [List.concat_eq_append, ← List.cons_append, ← List.append_assoc] at split
    exact Or.inr ⟨rest, (List.append_inj' split rfl).1⟩

theorem forall_item_concat {α : Type*} {P : List α → α → Prop} (past : List α) (last : α) :
    (∀ before item after, past ++ [last] = before ++ item :: after → P before item) ↔
      (∀ before item after, past = before ++ item :: after → P before item) ∧ P past last := by
  constructor
  · intro all
    refine ⟨?_, all past last [] rfl⟩
    rintro before item after rfl
    exact all before item (after ++ [last]) (List.append_assoc _ _ _)
  · rintro ⟨all, here⟩ before item after split
    obtain ⟨rfl, rfl⟩ | ⟨rest, earlier⟩ := concat_split split
    · exact here
    · exact all before item rest earlier

theorem forall_beginning_concat {α : Type*} {P : List α → Prop} (past : List α) (last : α) :
    (∀ before after, past ++ [last] = before ++ after → P before) ↔
      (∀ before after, past = before ++ after → P before) ∧ P (past ++ [last]) := by
  constructor
  · intro all
    refine ⟨?_, all _ [] (List.append_nil _).symm⟩
    rintro before after rfl
    exact all before (after ++ [last]) (List.append_assoc _ _ _)
  · rintro ⟨all, here⟩ before after split
    rcases List.eq_nil_or_concat after with rfl | ⟨rest, other, rfl⟩
    · rw [List.append_nil] at split
      exact split ▸ here
    · rw [List.concat_eq_append, ← List.append_assoc] at split
      exact all before rest (List.append_inj' split rfl).1

theorem run_cons {state final : State} {event : Event} {events : List Event} {log : List Output}
    (ran : run step state (event :: events) = some (final, log)) :
    ∃ next output rest, step state event = some (next, output) ∧
      run step next events = some (final, rest) ∧ log = output.toList ++ rest := by
  obtain ⟨⟨next, output⟩, stepped, ran⟩ := Option.bind_eq_some_iff.mp ran
  obtain ⟨⟨_, rest⟩, later, ran⟩ := Option.bind_eq_some_iff.mp ran
  cases ran
  exact ⟨next, output, rest, stepped, later, rfl⟩

theorem run_of_step {state next final : State} {event : Event} {events : List Event}
    {output : Option Output} {log : List Output} (stepped : step state event = some (next, output))
    (ran : run step next events = some (final, log)) :
    run step state (event :: events) = some (final, output.toList ++ log) := by
  simp only [run, stepped, ran, Option.bind_eq_bind, Option.bind_some]

theorem run_append {state final : State} {before after : List Event} {log : List Output}
    (ran : run step state (before ++ after) = some (final, log)) :
    ∃ mid early late, run step state before = some (mid, early) ∧
      run step mid after = some (final, late) ∧ log = early ++ late := by
  induction before generalizing state log with
  | nil => exact ⟨state, [], log, rfl, ran, rfl⟩
  | cons event before ih =>
    obtain ⟨next, output, rest, stepped, later, rfl⟩ := run_cons ran
    obtain ⟨mid, early, late, first, second, rfl⟩ := ih later
    exact ⟨mid, output.toList ++ early, late, run_of_step stepped first, second,
      (List.append_assoc _ _ _).symm⟩

theorem run_trans {state mid final : State} {before after : List Event} {early late : List Output}
    (first : run step state before = some (mid, early))
    (second : run step mid after = some (final, late)) :
    run step state (before ++ after) = some (final, early ++ late) := by
  induction before generalizing state early with
  | nil =>
    cases first
    exact second
  | cons event before ih =>
    obtain ⟨next, output, rest, stepped, later, rfl⟩ := run_cons first
    rw [List.append_assoc]
    exact run_of_step stepped (ih later)

theorem run_concat {state mid : State} {before : List Event} {early : List Output} (event : Event)
    (ran : run step state before = some (mid, early)) :
    run step state (before ++ [event]) =
      (step mid event).map fun (next, output) => (next, early ++ output.toList) := by
  induction before generalizing state early with
  | nil =>
    cases ran
    cases stepped : step mid event <;> simp [run, stepped]
  | cons first before ih =>
    obtain ⟨next, output, rest, stepped, later, rfl⟩ := run_cons ran
    rw [List.cons_append, run, stepped, Option.bind_eq_bind, Option.bind_some]
    dsimp only
    rw [ih later]
    cases step mid event <;> simp

/-- An invariant of the state and the events so far holds along a run. -/
theorem run_invariant {Inv : State → List Event → Prop}
    (keeps : ∀ {state past event next output}, Inv state past →
      step state event = some (next, output) → Inv next (past ++ [event]))
    {state final : State} {past events : List Event} {log : List Output} (start : Inv state past)
    (ran : run step state events = some (final, log)) : Inv final (past ++ events) := by
  induction events generalizing state past log with
  | nil =>
    cases ran
    rwa [List.append_nil]
  | cons event events ih =>
    obtain ⟨next, output, rest, stepped, later, -⟩ := run_cons ran
    have there := ih (keeps start stepped) later
    rwa [List.append_assoc] at there

theorem run_state_invariant (Inv : State → Prop)
    (keeps : ∀ {state event next output},
      Inv state → step state event = some (next, output) → Inv next)
    {state final : State} {events : List Event} {log : List Output} (start : Inv state)
    (ran : run step state events = some (final, log)) : Inv final := by
  induction events generalizing state log with
  | nil =>
    cases ran
    exact start
  | cons event events ih =>
    obtain ⟨next, output, rest, stepped, later, -⟩ := run_cons ran
    exact ih (keeps start stepped) later

theorem run_log_invariant (Inv : State → List Output → Prop)
    (keeps : ∀ {state past event next output}, Inv state past →
      step state event = some (next, output) → Inv next (past ++ output.toList))
    {state final : State} {events : List Event} {past log : List Output} (start : Inv state past)
    (ran : run step state events = some (final, log)) : Inv final (past ++ log) := by
  induction events generalizing state past log with
  | nil =>
    cases ran
    rwa [List.append_nil]
  | cons event events ih =>
    obtain ⟨next, output, rest, stepped, later, rfl⟩ := run_cons ran
    have there := ih (keeps start stepped) later
    rwa [List.append_assoc] at there

theorem run_split {state final : State} {before after : List Event} {event : Event}
    {log : List Output} (ran : run step state (before ++ event :: after) = some (final, log)) :
    ∃ mid early next output, run step state before = some (mid, early) ∧
      step mid event = some (next, output) ∧ ∀ item ∈ output, item ∈ log := by
  obtain ⟨mid, early, late, first, second, rfl⟩ := run_append ran
  obtain ⟨next, output, rest, stepped, -, rfl⟩ := run_cons second
  refine ⟨mid, early, next, output, first, stepped, ?_⟩
  intro item said
  exact List.mem_append_right _ (List.mem_append_left _ (Option.mem_toList.mpr said))

theorem mem_log {state final : State} {events : List Event} {log : List Output} {item : Output}
    (ran : run step state events = some (final, log)) (member : item ∈ log) :
    ∃ before event after mid early next, events = before ++ event :: after ∧
      run step state before = some (mid, early) ∧ step mid event = some (next, some item) := by
  induction events generalizing state log with
  | nil =>
    cases ran
    cases member
  | cons event events ih =>
    obtain ⟨next, output, rest, stepped, later, rfl⟩ := run_cons ran
    rcases List.mem_append.mp member with here | there
    · cases Option.mem_toList.mp here
      exact ⟨[], event, events, state, [], next, rfl, rfl, stepped⟩
    · obtain ⟨before, event', after, mid, early, next', rfl, ran', said⟩ := ih later there
      exact ⟨event :: before, event', after, mid, output.toList ++ early, next', rfl,
        run_of_step stepped ran', said⟩

/-- The sum over a run of what each step gains, given the state before it. -/
def tally (step : State → Event → Option (State × Option Output)) (gain : State → Event → Nat) :
    State → List Event → Nat
  | _, [] => 0
  | state, event :: events =>
    gain state event + (step state event).elim 0 (fun next => tally step gain next.1 events)

theorem tally_step {gain : State → Event → Nat} {state next : State} {event : Event}
    {output : Option Output} (stepped : step state event = some (next, output))
    (events : List Event) :
    tally step gain state (event :: events) = gain state event + tally step gain next events := by
  rw [tally, stepped, Option.elim_some]

theorem tally_append_le (gain : State → Event → Nat) (state : State) (before after : List Event) :
    tally step gain state before ≤ tally step gain state (before ++ after) := by
  induction before generalizing state with
  | nil => exact Nat.zero_le _
  | cons event before ih =>
    apply Nat.add_le_add_left
    cases step state event with
    | none => exact Nat.le_refl 0
    | some next => exact ih next.1

/-- An invariant of the state, the log and the gains so far holds along a run. -/
theorem run_tally_invariant (Inv : State → List Output → Nat → Prop) {gain : State → Event → Nat}
    (keeps : ∀ {state past count event next output}, Inv state past count →
      step state event = some (next, output) →
        Inv next (past ++ output.toList) (count + gain state event))
    {state final : State} {events : List Event} {past log : List Output} {count : Nat}
    (start : Inv state past count) (ran : run step state events = some (final, log)) :
    Inv final (past ++ log) (count + tally step gain state events) := by
  induction events generalizing state past log count with
  | nil =>
    cases ran
    rwa [List.append_nil]
  | cons event events ih =>
    obtain ⟨next, output, rest, stepped, later, rfl⟩ := run_cons ran
    have there := ih (keeps start stepped) later
    rwa [List.append_assoc, Nat.add_assoc, ← tally_step stepped] at there

end Oflops.Lib.Machine
