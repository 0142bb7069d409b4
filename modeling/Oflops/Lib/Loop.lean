import Mathlib.Data.Nat.Init

/-! Loops that need not end: a body run with fuel. A body that faults (a null pointer, say)
has no result, and neither has a loop that never leaves. -/

namespace Oflops.Lib.Loop

variable {σ τ : Type*}

inductive Iter (σ τ : Type*) where
  | again (state : σ)
  | leave (result : τ)

def loop (body : σ → Option (Iter σ τ)) : Nat → σ → Option τ
  | 0, _ => none
  | fuel + 1, state =>
    match body state with
    | none => none
    | some (.again next) => loop body fuel next
    | some (.leave result) => some result

variable {body : σ → Option (Iter σ τ)}

theorem loop_leave {state : σ} {result : τ} (left : body state = some (.leave result))
    (fuel : Nat) : loop body (fuel + 1) state = some result := by
  rw [loop, left]

theorem loop_again {state next : σ} (went : body state = some (.again next)) (fuel : Nat) :
    loop body (fuel + 1) state = loop body fuel next := by
  rw [loop, went]

theorem loop_fault {state : σ} (fault : body state = none) (fuel : Nat) :
    loop body fuel state = none := by
  cases fuel with
  | zero => rfl
  | succ fuel => rw [loop, fault]

theorem loop_forever (bad : σ → Prop)
    (goes : ∀ state, bad state → ∃ next, body state = some (.again next) ∧ bad next)
    {state : σ} (holds : bad state) (fuel : Nat) : loop body fuel state = none := by
  induction fuel generalizing state with
  | zero => rfl
  | succ fuel ih =>
    obtain ⟨next, went, still⟩ := goes state holds
    rw [loop_again went, ih still]

theorem loop_stuck {state : σ} (stuck : body state = some (.again state)) (fuel : Nat) :
    loop body fuel state = none := by
  apply loop_forever (· = state) _ rfl
  intro other same
  exact ⟨state, same ▸ stuck, rfl⟩

theorem loop_mono {fuel more : Nat} {state : σ} {result : τ}
    (returned : loop body fuel state = some result) (enough : fuel ≤ more) :
    loop body more state = some result := by
  induction fuel generalizing state more with
  | zero => cases returned
  | succ fuel ih =>
    obtain ⟨rest, rfl⟩ : ∃ rest, more = rest + 1 := ⟨more - 1, by omega⟩
    cases next : body state with
    | none =>
      rw [loop_fault next] at returned
      cases returned
    | some iteration =>
      cases iteration with
      | again after =>
        rw [loop_again next] at returned ⊢
        exact ih returned (by omega)
      | leave left =>
        rw [loop_leave next] at returned ⊢
        exact returned

theorem loop_unique {fuel more : Nat} {state : σ} {result other : τ}
    (returned : loop body fuel state = some result) (again : loop body more state = some other) :
    result = other := by
  have first := loop_mono returned (Nat.le_max_left fuel more)
  have second := loop_mono again (Nat.le_max_right fuel more)
  exact Option.some.inj (first.symm.trans second)

/-- Whatever every iteration keeps and every exit establishes holds of the result. -/
theorem loop_invariant (invariant : σ → Prop) (post : τ → Prop)
    (kept : ∀ state next, invariant state → body state = some (.again next) → invariant next)
    (left : ∀ state result, invariant state → body state = some (.leave result) → post result)
    {fuel : Nat} {state : σ} {result : τ} (holds : invariant state)
    (returned : loop body fuel state = some result) : post result := by
  induction fuel generalizing state with
  | zero => cases returned
  | succ fuel ih =>
    cases next : body state with
    | none =>
      rw [loop_fault next] at returned
      cases returned
    | some iteration =>
      cases iteration with
      | again after =>
        rw [loop_again next] at returned
        exact ih (kept state after holds next) returned
      | leave found =>
        rw [loop_leave next] at returned
        exact Option.some.inj returned ▸ left state found holds next

/-- The states in which a loop takes the turns that do not leave it. -/
def turns (body : σ → Option (Iter σ τ)) : Nat → σ → List σ
  | 0, _ => []
  | fuel + 1, state =>
    match body state with
    | some (.again next) => state :: turns body fuel next
    | _ => []

theorem turns_again {state next : σ} (went : body state = some (.again next)) (fuel : Nat) :
    turns body (fuel + 1) state = state :: turns body fuel next := by
  rw [turns, went]

theorem turns_leave {state : σ} {result : τ} (left : body state = some (.leave result))
    (fuel : Nat) : turns body (fuel + 1) state = [] := by
  rw [turns, left]

/-- A loop whose turns are noted one by one: what every turn keeps, with its note added, and every
exit establishes holds of the result and all the notes. -/
theorem loop_notes {α : Type*} (note : σ → α) (invariant : σ → List α → Prop)
    (post : τ → List α → Prop)
    (kept : ∀ {state next notes}, invariant state notes → body state = some (.again next) →
      invariant next (notes ++ [note state]))
    (left : ∀ {state result notes}, invariant state notes → body state = some (.leave result) →
      post result notes)
    {fuel : Nat} {state : σ} {result : τ} {notes : List α} (holds : invariant state notes)
    (returned : loop body fuel state = some result) :
    post result (notes ++ (turns body fuel state).map note) := by
  induction fuel generalizing state notes with
  | zero => cases returned
  | succ fuel ih =>
    cases taken : body state with
    | none =>
      rw [loop_fault taken] at returned
      cases returned
    | some iteration =>
      cases iteration with
      | again next =>
        rw [loop_again taken] at returned
        have later := ih (kept holds taken) returned
        rw [List.append_assoc] at later
        rw [turns_again taken]
        exact later
      | leave found =>
        rw [loop_leave taken] at returned
        cases returned
        rw [turns_leave taken, List.map_nil, List.append_nil]
        exact left holds taken

end Oflops.Lib.Loop
