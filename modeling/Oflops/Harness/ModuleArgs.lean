import Oflops.Harness.ConfigFile
import Oflops.Harness.ParamLoop
import Oflops.Lib.MachineInt

/-! How the arguments of a test module reach it: `parse_test_module` (`usage.c`) prints them into
an array on the stack, and `load_test_module` (`module_run.c`) hands the array to the module's
`init`. An access outside the array, or a number of characters that is no `int`, has no result. -/

namespace Oflops.Harness.ModuleArgs
open Lib.CString Lib.MachineInt Lib.Record ConfigFile ParamLoop

/-! ### The functions -/

def printArgs : List (List Char) → (count : Nat) → (buf : List Char) → Option (List Char)
  | [], _, buf => some buf
  | arg :: rest, count, buf =>
    if count < BUFLEN then do
      let buf ← printAt nul buf count (BUFLEN - count - 1) (' ' :: arg)
      let count ← intCount (count + (' ' :: arg).length)
      printArgs rest count buf
    else some buf

/-- The symbols of a shared object that `load_test_module` must or may find. -/
structure Library where
  name : Bool
  start : Bool
  init : Bool

/-- A module that has been opened; without an `init` of its own it has the default one. -/
structure TestModule where
  filename : List Char
  ownInit : Bool

/-- The modules of the context: `tests` has `max_tests` elements. -/
structure Context where
  tests : List (Option TestModule)
  nTests : Nat
  room : 0 < tests.length
  used : nTests ≤ tests.length

def Context.grown (ctx : Context) : List (Option TestModule) :=
  if ctx.nTests ≥ ctx.tests.length then ctx.tests ++ List.replicate ctx.tests.length none
  else ctx.tests

theorem Context.nTests_lt (ctx : Context) : ctx.nTests < ctx.grown.length := by
  have room := ctx.room
  have used := ctx.used
  unfold grown
  split_ifs with full
  · rw [List.length_append, List.length_replicate]
    omega
  · omega

def Context.add (ctx : Context) (mod : TestModule) : Context where
  tests := ctx.grown.set ctx.nTests (some mod)
  nTests := ctx.nTests + 1
  room := by
    rw [List.length_set]
    exact Nat.zero_lt_of_lt ctx.nTests_lt
  used := by
    rw [List.length_set]
    exact ctx.nTests_lt

/-- What a call of `load_test_module` leaves: the context, the value it returns, and the call of
`init` if it comes to one. -/
structure Load where
  ctx : Context
  value : Int
  init : Option (TestModule × List Char)

def loadTestModule (dlopen : List Char → Option Library) (ctx : Context)
    (modFilename initstr : List Char) : Load :=
  match dlopen modFilename with
  | none => ⟨ctx, 1, none⟩
  | some library =>
    if !library.name || !library.start then ⟨ctx, 1, none⟩
    else
      let mod := ⟨modFilename, library.init⟩
      ⟨ctx.add mod, 0, some (mod, initstr)⟩

structure Outcome where
  modFilename : List Char
  initstr : List Char
  load : Load

/-- `buf` is the array as it is found on the stack; `usage` does not return. -/
def parseTestModule (dlopen : List Char → Option Library) (ctx : Context) (buf : List Char) :
    List (List Char) → Option Outcome
  | [] => none
  | path :: args => do
    let buf ← printArgs args 0 buf
    some ⟨path, buf, loadTestModule dlopen ctx path buf⟩

/-! ### The text of the arguments -/

def joined (args : List (List Char)) : List Char := args.flatMap (' ' :: ·)

/-- The characters are counted in an `int` until the array is full. -/
def Counted : Nat → List (List Char) → Prop
  | _, [] => True
  | count, arg :: rest => count < BUFLEN →
    count + (' ' :: arg).length < 2 ^ 31 ∧ Counted (count + (' ' :: arg).length) rest

/-- The array holds a text, as far as there is room for it, once one has been printed. -/
structure Written (text buf : List Char) : Prop where
  size : buf.length = BUFLEN
  held : text ≠ [] → ∃ rest, buf = text.take (BUFLEN - 2) ++ nul :: rest

theorem joined_cons (arg : List Char) (rest : List (List Char)) :
    joined (arg :: rest) = (' ' :: arg) ++ joined rest := List.flatMap_cons

theorem Written.front {text buf : List Char} (written : Written text buf) :
    ∃ tail, buf = text.take (BUFLEN - 2) ++ tail := by
  by_cases empty : text = []
  · exact ⟨buf, by rw [empty, List.take_nil, List.nil_append]⟩
  · obtain ⟨rest, held⟩ := written.held empty
    exact ⟨nul :: rest, held⟩

theorem Written.more {text buf : List Char} (written : Written text buf)
    (full : BUFLEN - 2 ≤ text.length) (more : List Char) : Written (text ++ more) buf where
  size := written.size
  held := by
    intro _
    have some' : text ≠ [] := by
      intro empty
      rw [empty] at full
      exact absurd full (by decide)
    rw [List.take_append_of_le_length full]
    exact written.held some'

theorem Written.print {text buf : List Char} (written : Written text buf)
    (below : text.length < BUFLEN) (arg : List Char) :
    ∃ after, printAt nul buf text.length (BUFLEN - text.length - 1) (' ' :: arg) = some after ∧
      Written (text ++ ' ' :: arg) after := by
  by_cases last : text.length = BUFLEN - 1
  · refine ⟨buf, ?_, written.more (by omega) _⟩
    rw [printAt, if_pos (by omega)]
  · obtain ⟨tail, rfl⟩ := written.front
    have short : text.length ≤ BUFLEN - 2 := by omega
    have size := written.size
    rw [List.take_of_length_le short] at size ⊢
    rw [List.length_append] at size
    obtain ⟨rest, printed⟩ := printAt_append text tail (' ' :: arg)
      (by omega : 0 < BUFLEN - text.length - 1) (by omega)
    refine ⟨_, printed, (printAt_length printed).trans ?_, fun _ => ⟨rest, ?_⟩⟩
    · rw [List.length_append, size]
    · have left : BUFLEN - 2 - text.length = BUFLEN - text.length - 1 - 1 := by omega
      rw [List.take_append, List.take_of_length_le short, left, List.append_assoc]

theorem printArgs_written {args : List (List Char)} {text buf : List Char}
    (written : Written text buf) (counted : Counted text.length args) :
    ∃ after, printArgs args text.length buf = some after ∧ Written (text ++ joined args) after := by
  induction args generalizing text buf with
  | nil =>
    refine ⟨buf, rfl, ?_⟩
    rw [joined, List.flatMap_nil, List.append_nil]
    exact written
  | cons arg rest ih =>
    rw [printArgs]
    by_cases below : text.length < BUFLEN
    · obtain ⟨next, printed, further⟩ := written.print below arg
      obtain ⟨fits, later⟩ := counted below
      have length : text.length + (' ' :: arg).length = (text ++ ' ' :: arg).length :=
        List.length_append.symm
      rw [length] at fits later
      obtain ⟨after, all, final⟩ := ih further later
      refine ⟨after, ?_, ?_⟩
      · rw [if_pos below, printed, length, intCount, if_pos fits]
        exact all
      · rw [joined_cons, ← List.append_assoc]
        exact final
    · exact ⟨buf, if_neg below, written.more (by omega) _⟩

theorem printArgs_uncounted {args : List (List Char)} {count : Nat} {buf : List Char}
    (uncounted : ¬ Counted count args) : printArgs args count buf = none := by
  induction args generalizing count buf with
  | nil => exact absurd trivial uncounted
  | cons arg rest ih =>
    rw [Counted, Classical.not_imp] at uncounted
    obtain ⟨below, failed⟩ := uncounted
    rw [printArgs, if_pos below]
    cases printAt nul buf count (BUFLEN - count - 1) (' ' :: arg) with
    | none => rfl
    | some next =>
      by_cases fits : count + (' ' :: arg).length < 2 ^ 31
      · rw [Option.bind_eq_bind, Option.bind_some, intCount, if_pos fits]
        exact ih fun later => failed ⟨fits, later⟩
      · rw [Option.bind_eq_bind, Option.bind_some, intCount, if_neg fits]
        rfl

/-! ### What the module gets -/

/-- `load_test_module`, and so the module's `init`, gets a terminated string of the arguments, cut
off where the array ends. The array may hold anything before, and nothing outside it is written. -/
def Passes (path : ConfigString) (args : List ConfigString) : Prop :=
  ∀ dlopen ctx buf, buf.length = BUFLEN → ∃ outcome,
    parseTestModule dlopen ctx buf (path.text :: args.map ConfigString.text) = some outcome ∧
      outcome.modFilename = path.text ∧
      textAt nul outcome.initstr 0 =
        some ((joined (args.map ConfigString.text)).take (BUFLEN - 2)) ∧
      ∀ library, dlopen path.text = some library → library.name = true → library.start = true →
        outcome.load.init = some (⟨path.text, library.init⟩, outcome.initstr)

theorem joined_plain (args : List ConfigString) : nul ∉ joined (args.map ConfigString.text) := by
  intro member
  obtain ⟨text, here, inside⟩ := List.mem_flatMap.mp member
  obtain ⟨arg, -, rfl⟩ := List.mem_map.mp here
  rcases List.mem_cons.mp inside with blank | later
  · exact absurd blank (by decide)
  · exact arg.plain later

theorem loadTestModule_init {dlopen : List Char → Option Library} {path : List Char}
    {library : Library} (opened : dlopen path = some library) (name : library.name = true)
    (start : library.start = true) (ctx : Context) (initstr : List Char) :
    (loadTestModule dlopen ctx path initstr).init = some (⟨path, library.init⟩, initstr) := by
  simp [loadTestModule, opened, name, start]

/-- Without arguments nothing is printed, and the array is passed as it was found. -/
theorem not_passes_nil (path : ConfigString) : ¬ Passes path [] := by
  intro passes
  have long : (List.replicate BUFLEN 'x').length = BUFLEN := List.length_replicate
  obtain ⟨outcome, parsed, -, text, -⟩ :=
    passes (fun _ => none) ⟨[none], 0, Nat.one_pos, Nat.zero_le 1⟩ _ long
  have unwritten : outcome.initstr = List.replicate BUFLEN 'x' :=
    (congrArg Outcome.initstr (Option.some.inj parsed)).symm
  have absent : nul ∉ List.replicate BUFLEN 'x' := by
    intro member
    exact absurd (List.eq_of_mem_replicate member) (by decide)
  rw [unwritten, textAt, List.drop_zero, chars_absent absent] at text
  cases text

theorem printArgs_text {args : List ConfigString} (some' : args ≠ []) {buf : List Char}
    (long : buf.length = BUFLEN) (counted : Counted 0 (args.map ConfigString.text)) :
    ∃ after, printArgs (args.map ConfigString.text) 0 buf = some after ∧
      textAt nul after 0 = some ((joined (args.map ConfigString.text)).take (BUFLEN - 2)) := by
  have empty : Written [] buf := ⟨long, fun text => absurd rfl text⟩
  obtain ⟨after, printed, written⟩ := printArgs_written empty counted
  rw [List.nil_append] at written
  have text : joined (args.map ConfigString.text) ≠ [] := by
    obtain ⟨arg, rest, rfl⟩ := List.exists_cons_of_ne_nil some'
    rw [List.map_cons, joined_cons]
    exact List.cons_ne_nil _ _
  obtain ⟨rest, held⟩ := written.held text
  have plain : nul ∉ (joined (args.map ConfigString.text)).take (BUFLEN - 2) :=
    fun member => joined_plain args (List.mem_of_mem_take member)
  refine ⟨after, printed, ?_⟩
  rw [held, textAt, List.drop_zero, chars_append plain]

/-- The arguments reach the module exactly if there are any and they can be counted. -/
theorem passes_iff (path : ConfigString) (args : List ConfigString) :
    Passes path args ↔ args ≠ [] ∧ Counted 0 (args.map ConfigString.text) := by
  constructor
  · intro passes
    refine ⟨fun none' => not_passes_nil path (none' ▸ passes), ?_⟩
    by_contra uncounted
    have long : (List.replicate BUFLEN nul).length = BUFLEN := List.length_replicate
    obtain ⟨outcome, parsed, -⟩ :=
      passes (fun _ => none) ⟨[none], 0, Nat.one_pos, Nat.zero_le 1⟩ _ long
    rw [parseTestModule, printArgs_uncounted uncounted] at parsed
    cases parsed
  · intro ⟨some', counted⟩ dlopen ctx buf long
    obtain ⟨after, printed, text⟩ := printArgs_text some' long counted
    refine ⟨⟨path.text, after, loadTestModule dlopen ctx path.text after⟩, ?_, rfl, text, ?_⟩
    · rw [parseTestModule, printed, Option.bind_eq_bind, Option.bind_some]
    · intro library opened name start
      exact loadTestModule_init opened name start ctx after

/-- `liboflops_debug.so` without arguments. -/
theorem no_arguments_unwritten :
    ¬ Passes ⟨"liboflops_debug.so".toList, by decide⟩ [] :=
  not_passes_nil _

/-! ### The text level -/

theorem snprintf_text {text buf : List Char} (front : text = [] ∨ buf = text.take (BUFLEN - 2))
    (below : text.length < BUFLEN) (arg : List Char) :
    snprintf buf text.length (BUFLEN - text.length - 1) (' ' :: arg) =
      (text ++ ' ' :: arg).take (BUFLEN - 2) := by
  by_cases last : text.length = BUFLEN - 1
  · have some' : text ≠ [] := by
      intro empty
      rw [empty] at last
      exact absurd last (by decide)
    rw [snprintf, if_pos (by omega), List.take_append_of_le_length (by omega)]
    exact front.resolve_left some'
  · have short : text.length ≤ BUFLEN - 2 := by omega
    have kept : buf.take text.length = text := by
      rcases front with rfl | rfl
      · rfl
      · rw [List.take_of_length_le short, List.take_length]
    have left : BUFLEN - 2 - text.length = BUFLEN - text.length - 1 - 1 := by omega
    rw [snprintf, if_neg (by omega), kept, List.take_append, List.take_of_length_le short, left]

theorem joinArgs_text {argv : List (List Char)} {left i : Nat} (text : List Char) {buf : List Char}
    (inside : i + left = argv.length) (front : text = [] ∨ buf = text.take (BUFLEN - 2))
    (some' : 0 < left) :
    joinArgs argv left i text.length buf =
      some ((text ++ joined (argv.drop i)).take (BUFLEN - 2)) := by
  induction left generalizing i text buf with
  | zero => cases some'
  | succ left ih =>
    have here : i < argv.length := by omega
    rw [joinArgs, List.drop_eq_getElem_cons here, joined_cons]
    by_cases below : text.length < BUFLEN
    · rw [if_pos below, List.getElem?_eq_getElem here]
      dsimp only
      rw [snprintf_text front below, ← List.length_append, ← List.append_assoc]
      cases left with
      | zero =>
        rw [List.drop_eq_nil_of_le (by omega), joined, List.flatMap_nil, List.append_nil, joinArgs]
      | succ left => exact ih _ (by omega) (Or.inr rfl) (Nat.succ_pos left)
    · have some' : text ≠ [] := by
        intro empty
        rw [empty] at below
        exact below (by decide)
      rw [if_neg below, List.take_append_of_le_length (by omega)]
      exact congrArg some (front.resolve_left some')

theorem parseTestModule_text {dlopen : List Char → Option Library} {ctx : Context} {buf : List Char}
    {path : ConfigString} {args : List ConfigString} {outcome : Outcome} (some' : args ≠ [])
    (long : buf.length = BUFLEN)
    (parsed : parseTestModule dlopen ctx buf (path.text :: args.map ConfigString.text) =
      some outcome)
    (any : List Char) :
    ConfigFile.parseTestModule any ⟨args.length + 1, path.text :: args.map ConfigString.text⟩ =
      (textAt nul outcome.initstr 0).map (path.text, ·) := by
  obtain ⟨after, printed, passed⟩ := Option.bind_eq_some_iff.mp parsed
  cases passed
  have counted : Counted 0 (args.map ConfigString.text) := by
    by_contra uncounted
    rw [printArgs_uncounted uncounted] at printed
    cases printed
  obtain ⟨other, same, text⟩ := printArgs_text some' long counted
  rw [printed] at same
  cases same
  have joins : joinArgs (path.text :: args.map ConfigString.text) args.length 1 0 any =
      some ((joined (args.map ConfigString.text)).take (BUFLEN - 2)) :=
    joinArgs_text [] (by rw [List.length_cons, List.length_map, Nat.add_comm]) (Or.inl rfl)
      (List.length_pos_of_ne_nil some')
  simp only [text, ConfigFile.parseTestModule, Nat.add_sub_cancel, joins]
  rfl

end Oflops.Harness.ModuleArgs
