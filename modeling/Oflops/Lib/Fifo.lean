import Mathlib.Data.List.Basic

/-! A first-in first-out queue of cells and the ledger of what went in and out of it. -/

namespace Oflops.Lib.Fifo

variable {β : Type*}

inductive Event (β : Type*) where
  | put (cells : List β)
  | take (cells : List β)
  | flush

inductive Step : List β → Event β → List β → Prop where
  | put (queue cells : List β) : Step queue (.put cells) (queue ++ cells)
  | take (queue cells : List β) : Step (cells ++ queue) (.take cells) queue
  | flush (queue : List β) : Step queue .flush []

/-- What went in and what came out since the last flush. -/
structure Ledger (β : Type*) where
  ins : List β
  outs : List β

def Ledger.empty : Ledger β := ⟨[], []⟩

def Ledger.enter (ledger : Ledger β) : Event β → Ledger β
  | .put cells => { ledger with ins := ledger.ins ++ cells }
  | .take cells => { ledger with outs := ledger.outs ++ cells }
  | .flush => .empty

/-- The books balance: what came out, then what is still there, is what went in. -/
def Ledger.Balanced (ledger : Ledger β) (queue : List β) : Prop :=
  ledger.outs ++ queue = ledger.ins

theorem balanced_empty : (Ledger.empty : Ledger β).Balanced [] := rfl

theorem Ledger.Balanced.enter {ledger : Ledger β} {queue queue' : List β} {event : Event β}
    (balanced : ledger.Balanced queue) (step : Step queue event queue') :
    (ledger.enter event).Balanced queue' := by
  unfold Ledger.Balanced at balanced ⊢
  cases step with
  | put _ cells =>
    change ledger.outs ++ (queue ++ cells) = ledger.ins ++ cells
    rw [← List.append_assoc, balanced]
  | take _ cells =>
    change (ledger.outs ++ cells) ++ queue' = ledger.ins
    rw [List.append_assoc, balanced]
  | flush => rfl

end Oflops.Lib.Fifo
