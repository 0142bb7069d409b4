import Oflops.Lib.Loop

/-! The module list of the configuration file: the loop of `load_config_file` (`usage.c`) over
`oflops.module`, and `parse_test_module`, which it calls. The loop that releases the arguments
shares `i` with the loop over the elements, and `argc` is never set back. -/

namespace Oflops.Harness.ConfigFile
open Lib.Loop

/-- An element of the list, as `config_setting_get_member` finds its members. -/
structure Element where
  path : Option (List Char)
  param : Option (List Char)
  deriving DecidableEq, Repr

/-- The arguments of a call of `parse_test_module`; `argv` holds the pointers allocated. -/
structure Call where
  argc : Nat
  argv : List (List Char)
  deriving DecidableEq, Repr

def BUFLEN : Nat := 4096

def snprintf (buf : List Char) (count size : Nat) (text : List Char) : List Char :=
  if size = 0 then buf else buf.take count ++ text.take (size - 1)

/-- The loop of `parse_test_module` for the arguments from `i` on, of which `left` are left.
A pointer behind the end of `argv` is not there to be read. -/
def joinArgs (argv : List (List Char)) :
    (left i count : Nat) → (buf : List Char) → Option (List Char)
  | 0, _, _, buf => some buf
  | left + 1, i, count, buf =>
      if count < BUFLEN then
        match argv[i]? with
        | none => none
        | some arg =>
            let text := ' ' :: arg
            joinArgs argv left (i + 1) (count + text.length)
              (snprintf buf count (BUFLEN - count - 1) text)
      else some buf

/-- What `load_test_module` is called with; `buf` is the uninitialised array. `usage` does not
return. -/
def parseTestModule (buf : List Char) (call : Call) : Option (List Char × List Char) :=
  if call.argc = 0 then none
  else
    match joinArgs call.argv (call.argc - 1) 1 0 buf, call.argv[0]? with
    | some args, some path => some (path, args)
    | _, _ => none

structure State where
  i : Nat
  argc : Nat
  calls : List Call
  loaded : List (List Char × List Char)
  deriving DecidableEq, Repr

def State.initial : State := ⟨0, 0, [], []⟩

def moduleTurn (buf : List Char) (modules : List Element) (state : State) :
    Option (Iter State State) :=
  match modules[state.i]? with
  | none => some (.leave state)
  | some elem =>
      match elem.path with
      | none => some (.again { state with i := state.i + 1 })
      | some path =>
          let argc := state.argc + 1
          let argv := [path]
          let (argc, argv) :=
            match elem.param with
            | some param => (argc + 1, argv ++ [param])
            | none => (argc, argv)
          match parseTestModule buf ⟨argc, argv⟩ with
          | none => none
          | some module' =>
              -- `for (i=0;i<argc;i++) free(argv[i]);` and the `i++` of the loop around it
              if argc ≤ argv.length then
                some (.again ⟨argc + 1, argc, state.calls ++ [⟨argc, argv⟩],
                  state.loaded ++ [module']⟩)
              else none

def loadModules (buf : List Char) (modules : List Element) (fuel : Nat) : Option State :=
  loop (moduleTurn buf modules) fuel State.initial

def Element.call (elem : Element) : Call :=
  let argv := elem.path.toList ++ elem.param.toList
  ⟨argv.length, argv⟩

/-- Every module is loaded, in the order of the list and with its own arguments. -/
def LoadsEvery (buf : List Char) (modules : List Element) : Prop :=
  ∃ fuel done, loadModules buf modules fuel = some done ∧ done.calls = modules.map Element.call

theorem moduleTurn_end (buf : List Char) {modules : List Element} (state : State)
    (past : modules.length ≤ state.i) : moduleTurn buf modules state = some (.leave state) := by
  rw [moduleTurn, List.getElem?_eq_none past]

theorem moduleTurn_first (buf : List Char) {first : Element} (rest : List Element)
    {path : List Char} (given : first.path = some path) :
    ∃ loaded, moduleTurn buf (first :: rest) State.initial =
      some (.again ⟨first.call.argc + 1, first.call.argc, [first.call], loaded⟩) := by
  obtain ⟨p, param⟩ := first
  obtain rfl : p = some path := given
  cases param with
  | none =>
    refine ⟨[(path, buf)], ?_⟩
    simp [moduleTurn, State.initial, parseTestModule, joinArgs, Element.call]
  | some param =>
    refine ⟨[(path, snprintf buf 0 (BUFLEN - 0 - 1) (' ' :: param))], ?_⟩
    simp [moduleTurn, State.initial, parseTestModule, joinArgs, Element.call, BUFLEN]

theorem moduleTurn_stale {buf : List Char} {modules : List Element} {elem : Element} {state : State}
    {path : List Char} (here : modules[state.i]? = some elem) (given : elem.path = some path)
    (stale : 0 < state.argc) : moduleTurn buf modules state = none := by
  obtain ⟨p, param⟩ := elem
  obtain rfl : p = some path := given
  simp only [moduleTurn, here]
  cases param with
  | none =>
    have behind : ¬ state.argc + 1 ≤ [path].length := Nat.not_le.mpr (Nat.succ_lt_succ stale)
    cases parseTestModule buf ⟨state.argc + 1, [path]⟩ with
    | none => rfl
    | some module' => exact if_neg behind
  | some param =>
    have behind : ¬ state.argc + 1 + 1 ≤ ([path] ++ [param]).length :=
      Nat.not_le.mpr (Nat.succ_lt_succ (Nat.succ_lt_succ stale))
    cases parseTestModule buf ⟨state.argc + 1 + 1, [path] ++ [param]⟩ with
    | none => rfl
    | some module' => exact if_neg behind

theorem Element.call_argc_pos {elem : Element} {path : List Char} (given : elem.path = some path) :
    0 < elem.call.argc := by
  simp [Element.call, given]

/-- A list of several modules ends after the first call: the second element is stepped over, and a
later one cannot be reached without a fault. -/
theorem loadModules_one_call {buf : List Char} {first : Element} {rest : List Element} {fuel : Nat}
    {done : State} (paths : ∀ elem ∈ first :: rest, elem.path.isSome)
    (finished : loadModules buf (first :: rest) fuel = some done) : done.calls = [first.call] := by
  obtain ⟨path, given⟩ := Option.isSome_iff_exists.mp (paths first List.mem_cons_self)
  obtain ⟨loaded, turn⟩ := moduleTurn_first buf rest given
  obtain _ | fuel := fuel
  · cases finished
  · rw [loadModules, loop_again turn] at finished
    cases here : (first :: rest)[first.call.argc + 1]? with
    | none =>
      have left := moduleTurn_end buf
        ⟨first.call.argc + 1, first.call.argc, [first.call], loaded⟩
        (List.getElem?_eq_none_iff.mp here)
      obtain _ | fuel := fuel
      · cases finished
      · rw [loop_leave left] at finished
        rw [← Option.some.inj finished]
    | some elem =>
      obtain ⟨other, given'⟩ :=
        Option.isSome_iff_exists.mp (paths elem (List.mem_of_getElem? here))
      rw [loop_fault (moduleTurn_stale here given' (Element.call_argc_pos given))] at finished
      cases finished

/-- Every module of the list is loaded exactly if there is at most one. -/
theorem loads_every_iff (buf : List Char) (modules : List Element)
    (paths : ∀ elem ∈ modules, elem.path.isSome) :
    LoadsEvery buf modules ↔ modules.length ≤ 1 := by
  cases modules with
  | nil => exact ⟨fun _ => Nat.zero_le 1, fun _ => ⟨1, State.initial, rfl, rfl⟩⟩
  | cons first rest =>
    constructor
    · rintro ⟨fuel, done, finished, every⟩
      rw [loadModules_one_call paths finished] at every
      have counted := congrArg List.length every
      rw [List.length_map, List.length_singleton] at counted
      exact Nat.le_of_eq counted.symm
    · intro single
      obtain rfl : rest = [] :=
        List.eq_nil_of_length_eq_zero (Nat.le_zero.mp (Nat.le_of_succ_le_succ single))
      obtain ⟨path, given⟩ := Option.isSome_iff_exists.mp (paths first List.mem_cons_self)
      obtain ⟨loaded, turn⟩ := moduleTurn_first buf [] given
      refine ⟨2, ⟨first.call.argc + 1, first.call.argc, [first.call], loaded⟩, ?_, rfl⟩
      rw [loadModules, loop_again turn, loop_leave (moduleTurn_end buf _ (Nat.le_add_left 1 _))]

theorem loads_every_iff_single :
    LoadsEvery [] [⟨some "libdebug.so".toList, some "flows=10".toList⟩] :=
  (loads_every_iff [] _ (by decide)).mpr (by decide)

/-- Two modules without parameters: only the first one is loaded. -/
theorem second_module_skipped :
    let modules : List Element := [⟨some ['a'], none⟩, ⟨some ['b'], none⟩]
    (loadModules [] modules 3).map State.calls = some [⟨1, [['a']]⟩] ∧ ¬ LoadsEvery [] modules := by
  refine ⟨by decide +kernel, ?_⟩
  rintro ⟨fuel, done, finished, every⟩
  rw [loadModules_one_call (by decide) finished] at every
  exact absurd every (by decide)

end Oflops.Harness.ConfigFile
