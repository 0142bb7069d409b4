import Mathlib.Data.Finmap
import Oflops.Time

/-! What the timer queue is for: a finite map from event ids to the time, callback
and argument of the event. Nothing here knows about heaps or arrays. -/

namespace Oflops.Timer.TimerMap
open Time

variable {F A : Type}

structure Entry (F A : Type) where
  key : Timeval
  func : F
  arg : A

abbrev EventMap (F A : Type) := Finmap (fun _ : Int => Entry F A)

inductive Op (F A : Type) where
  | add (func : F) (arg : A) (key : Timeval)
  | remove (id : Int)
  | extract

/-- The int each call returns, with what it stores through its pointers. -/
inductive Reply (F A : Type) where
  | add (id : Int)
  | remove (ret : Int) (out : Option (F × A))
  | extract (ret : Int) (out : Option (Int × Timeval × F × A))

inductive MapStep : EventMap F A → Op F A → Reply F A → EventMap F A → Prop where
  | add (m : EventMap F A) (func : F) (arg : A) (key : Timeval) (id : Int) (fresh : id ∉ m) :
      MapStep m (.add func arg key) (.add id) (m.insert id ⟨key, func, arg⟩)
  | removeMissing (m : EventMap F A) (id : Int) (missing : id ∉ m) :
      MapStep m (.remove id) (.remove (-1) none) m
  | remove (m : EventMap F A) (id : Int) (e : Entry F A) (found : m.lookup id = some e) :
      MapStep m (.remove id) (.remove 0 (some (e.func, e.arg))) (m.erase id)
  | extractEmpty : MapStep ∅ .extract (.extract (-1) none) ∅
  | extract (m : EventMap F A) (id : Int) (e : Entry F A) (found : m.lookup id = some e)
      (minimal : ∀ id' e', m.lookup id' = some e' → e.key ≤ e'.key) :
      MapStep m .extract (.extract 0 (some (id, e.key, e.func, e.arg))) (m.erase id)

inductive MapRun : EventMap F A → List (Op F A) → List (Reply F A) → EventMap F A → Prop where
  | nil (m : EventMap F A) : MapRun m [] [] m
  | cons {m m' m'' : EventMap F A} {op : Op F A} {reply : Reply F A} {ops : List (Op F A)}
      {replies : List (Reply F A)} (first : MapStep m op reply m')
      (rest : MapRun m' ops replies m'') : MapRun m (op :: ops) (reply :: replies) m''

theorem erase_insert {m : EventMap F A} {id : Int} (e : Entry F A) (fresh : id ∉ m) :
    (m.insert id e).erase id = m := by
  apply Finmap.ext_lookup
  intro other
  by_cases same : other = id
  · subst same
    rw [Finmap.lookup_erase, Finmap.lookup_eq_none.mpr fresh]
  · rw [Finmap.lookup_erase_ne same, Finmap.lookup_insert_of_ne _ same]

end Oflops.Timer.TimerMap
