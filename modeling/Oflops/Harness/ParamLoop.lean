import Oflops.Lib.CString
import Oflops.Lib.Loop
import Oflops.Traffic.Packet

/-! The loop with which the test modules read their parameters: the configuration string is cut in
place into tokens, and each token into a name and a value. The C++ modules and the C modules differ
in what they do behind the last token. What a module does with a name and a value is a parameter. -/

namespace Oflops.Harness.ParamLoop
open Lib.CString Lib.Loop Lib.Record Traffic.Packet

def nul : Char := '\x00'

/-- `strtol(s, NULL, 0)`: octal behind a `0`, hexadecimal behind `0x`. -/
def strtol0 (s : List Char) : Int :=
  let magnitude : List Char → Int
    | '0' :: 'x' :: rest => (digits 16 0 rest).1
    | '0' :: 'X' :: rest => (digits 16 0 rest).1
    | '0' :: rest => (digits 8 0 rest).1
    | rest => (digits 10 0 rest).1
  let value := match s.dropWhile isSpace with
    | '-' :: rest => - magnitude rest
    | '+' :: rest => magnitude rest
    | rest => magnitude rest
  max (-2 ^ 63) (min value (2 ^ 63 - 1))

/-- A parameter is stored and then checked; a bad one ends the process (`perror_and_exit`). -/
def store {S ε : Type} (state : S) (bad : Prop) [Decidable bad] (stop : ε) : Except ε S :=
  if bad then .error stop else .ok state

section Loop
variable {S ε : Type}

/-- The string, the token that is next, and the parameters so far. -/
structure Cursor (S : Type) where
  mem : List Char
  param : Nat
  state : S

def settle (mem : List Char) (pos : Nat) : Except ε S → Iter (Cursor S) (Except ε S)
  | .error stop => .leave (.error stop)
  | .ok state => .again ⟨mem, pos, state⟩

variable (set : S → List Char → List Char → Except ε S)

/-- The rest of a turn, from `value = index(param, '=')` on. A write through `NULL` has no result;
the test `value != NULL` comes behind it. -/
def applyToken (mem : List Char) (param pos : Nat) (state : S) :
    Option (Iter (Cursor S) (Except ε S)) := do
  let found ← index nul '=' mem param
  let value ← found
  let mem ← writeAt mem value [nul]
  let name ← textAt nul mem param
  let text ← textAt nul mem (value + 1)
  some (settle mem pos (set state name text))

def cppTurn (cursor : Cursor S) : Option (Iter (Cursor S) (Except ε S)) := do
  let found ← index nul ' ' cursor.mem cursor.param
  match found with
  | some pos => do
    let mem ← writeAt cursor.mem pos [nul]
    applyToken set mem cursor.param (pos + 1) cursor.state
  | none => do
    let first ← cursor.mem[cursor.param]?
    if first ≠ nul then do
      let length ← strlen nul cursor.mem cursor.param
      applyToken set cursor.mem cursor.param (cursor.param + length) cursor.state
    else some (.leave (.ok cursor.state))

/-- A turn of the loop of the C modules. The last token is taken to end one character behind its
terminator and is cut off there like the others. -/
def cTurn (cursor : Cursor S) : Option (Iter (Cursor S) (Except ε S)) := do
  let found ← index nul ' ' cursor.mem cursor.param
  match found with
  | some pos => cut pos
  | none => do
    let first ← cursor.mem[cursor.param]?
    if first ≠ nul then do
      let length ← strlen nul cursor.mem cursor.param
      cut (cursor.param + length + 1)
    else some (.leave (.ok cursor.state))
where
  cut (pos : Nat) : Option (Iter (Cursor S) (Except ε S)) := do
    let mem ← writeAt cursor.mem pos [nul]
    applyToken set mem cursor.param (pos + 1) cursor.state

/-- `while(*config_str == ' ') config_str++`. -/
def skipBlanks : List Char → Option Nat
  | [] => none
  | c :: cells => if c = ' ' then (skipBlanks cells).map (· + 1) else some 0

def readParams (turn : Cursor S → Option (Iter (Cursor S) (Except ε S))) (defaults : S) (fuel : Nat)
    (mem : List Char) : Option (Except ε S) := do
  let param ← skipBlanks mem
  loop turn fuel ⟨mem, param, defaults⟩

end Loop

/-! ### What a configuration string asks for -/

structure ConfigString where
  text : List Char
  plain : nul ∉ text

def pieces (text : List Char) : List (List Char) := (text.dropWhile (· = ' ')).splitOn ' '

def setting (piece : List Char) : List Char × List Char :=
  (piece.takeWhile (· ≠ '='), (piece.dropWhile (· ≠ '=')).tail)

def settings (pieces : List (List Char)) : List (List Char × List Char) :=
  (pieces.filter ('=' ∈ ·)).map setting

section Spec
variable {S ε : Type} (set : S → List Char → List Char → Except ε S)

/-- The settings applied one after the other, up to one that ends the process. -/
def applyAll (state : S) (settings : List (List Char × List Char)) : Except ε S :=
  settings.foldlM (fun state setting => set state setting.1 setting.2) state

def andThen (result : Except ε S) (next : S → Option (Except ε S)) : Option (Except ε S) :=
  match result with
  | .error stop => some (.error stop)
  | .ok state => next state

/-- What the loop of the C++ modules makes of the tokens. -/
def walk : S → List (List Char) → Option (Except ε S)
  | state, [] => some (.ok state)
  | state, piece :: rest =>
    if piece = [] ∧ rest = [] then some (.ok state)
    else if '=' ∈ piece then
      andThen (set state (setting piece).1 (setting piece).2) (fun next => walk next rest)
    else none

/-- Only the last token may be without a `=`, if it is empty, unless the process ends before. -/
def Settable (state : S) (pieces : List (List Char)) : Prop :=
  ∀ before piece after, pieces = before ++ piece :: after → '=' ∉ piece →
    (piece = [] ∧ after = []) ∨ ∃ stop, applyAll set state (settings before) = .error stop

end Spec

theorem setting_append {name : List Char} (plain : '=' ∉ name) (value : List Char) :
    setting (name ++ '=' :: value) = (name, value) := by
  have differs : ∀ c ∈ name, decide (c ≠ '=') = true := by
    intro c member
    exact decide_eq_true fun same => plain (same ▸ member)
  rw [setting, List.takeWhile_append_of_pos differs, List.dropWhile_append_of_pos differs]
  simp

/-! ### One token -/

section Turn
variable {S ε : Type} (set : S → List Char → List Char → Except ε S) (mem rest : List Char)
  (pos : Nat) (state : S)

def marked (piece : List Char) : List Char := (setting piece).1 ++ nul :: (setting piece).2

theorem marked_length {piece : List Char} (assigned : '=' ∈ piece) :
    (marked piece).length = piece.length := by
  obtain ⟨name, value, rfl, first⟩ := List.eq_append_cons_of_mem assigned
  simp [marked, setting_append first]

theorem applyToken_set {piece : List Char} (plain : nul ∉ piece) (assigned : '=' ∈ piece) :
    applyToken set (mem ++ (piece ++ nul :: rest)) mem.length pos state =
      some (settle (mem ++ (marked piece ++ nul :: rest)) pos
        (set state (setting piece).1 (setting piece).2)) := by
  obtain ⟨name, value, rfl, first⟩ := List.eq_append_cons_of_mem assigned
  have nameless : nul ∉ name := fun member => plain (List.mem_append_left _ member)
  have valueless : nul ∉ value := fun member =>
    plain (List.mem_append_right _ (List.mem_cons_of_mem _ member))
  have found := index_append mem (value ++ nul :: rest) nameless first
  have cut := writeAt_cell (mem ++ name) '=' nul (value ++ nul :: rest)
  have named := textAt_append mem (value ++ nul :: rest) nameless
  have valued := textAt_append (mem ++ name ++ [nul]) rest valueless
  rw [marked, setting_append first]
  simp only [List.append_assoc, List.cons_append, List.nil_append, List.length_append,
    List.length_singleton] at found cut named valued ⊢
  rw [← Nat.add_assoc] at valued
  simp only [applyToken, found, cut, named, valued, Option.bind_eq_bind, Option.bind_some]

theorem applyToken_bare {piece : List Char} (plain : nul ∉ piece) (bare : '=' ∉ piece) :
    applyToken set (mem ++ (piece ++ nul :: rest)) mem.length pos state = none := by
  have visible : nul ≠ '=' := by decide
  simp only [applyToken, index_absent mem rest visible plain bare, Option.bind_eq_bind,
    Option.bind_some, Option.bind_none]

theorem cut_blank (piece : List Char) :
    writeAt (mem ++ (piece ++ ' ' :: rest)) (mem.length + piece.length) [nul] =
      some (mem ++ (piece ++ nul :: rest)) := by
  have cut := writeAt_cell (mem ++ piece) ' ' nul rest
  rwa [List.append_assoc, List.length_append, List.append_assoc] at cut

section Piece
variable {piece : List Char} (plain : nul ∉ piece) (blankless : ' ' ∉ piece)
include plain blankless

theorem cppTurn_inner :
    cppTurn set ⟨mem ++ (piece ++ ' ' :: rest), mem.length, state⟩ =
      applyToken set (mem ++ (piece ++ nul :: rest)) mem.length (mem.length + piece.length + 1)
        state := by
  simp only [cppTurn, index_append mem rest plain blankless, cut_blank, Option.bind_eq_bind,
    Option.bind_some]

theorem cTurn_inner :
    cTurn set ⟨mem ++ (piece ++ ' ' :: rest), mem.length, state⟩ =
      applyToken set (mem ++ (piece ++ nul :: rest)) mem.length (mem.length + piece.length + 1)
        state := by
  simp only [cTurn, cTurn.cut, index_append mem rest plain blankless, cut_blank,
    Option.bind_eq_bind, Option.bind_some]

theorem last_token (some' : piece ≠ []) :
    index nul ' ' (mem ++ (piece ++ nul :: rest)) mem.length = some none ∧
      ∃ first, (mem ++ (piece ++ nul :: rest))[mem.length]? = some first ∧ first ≠ nul := by
  have visible : nul ≠ ' ' := by decide
  obtain ⟨first, others, rfl⟩ := List.exists_cons_of_ne_nil some'
  refine ⟨index_absent mem rest visible plain blankless, first, ?_, ?_⟩
  · rw [List.getElem?_append_right (Nat.le_refl _), Nat.sub_self]
    rfl
  · exact (List.ne_of_not_mem_cons plain).symm

theorem cppTurn_last (some' : piece ≠ []) :
    cppTurn set ⟨mem ++ (piece ++ nul :: rest), mem.length, state⟩ =
      applyToken set (mem ++ (piece ++ nul :: rest)) mem.length
      (mem.length + piece.length) state := by
  obtain ⟨absent, first, found, visible⟩ := last_token mem rest plain blankless some'
  simp only [cppTurn, absent, found, strlen_append mem rest plain, if_pos visible,
    Option.bind_eq_bind, Option.bind_some]

theorem cTurn_last (some' : piece ≠ []) :
    cTurn set ⟨mem ++ (piece ++ nul :: rest), mem.length, state⟩ =
      cTurn.cut set ⟨mem ++ (piece ++ nul :: rest), mem.length, state⟩
        (mem.length + piece.length + 1) := by
  obtain ⟨absent, first, found, visible⟩ := last_token mem rest plain blankless some'
  simp only [cTurn, absent, found, strlen_append mem rest plain, if_pos visible,
    Option.bind_eq_bind, Option.bind_some]

end Piece

theorem turn_end :
    cppTurn set ⟨mem ++ nul :: rest, mem.length, state⟩ = some (.leave (.ok state)) ∧
      cTurn set ⟨mem ++ nul :: rest, mem.length, state⟩ = some (.leave (.ok state)) := by
  have visible : nul ≠ ' ' := by decide
  have absent := index_absent mem rest visible List.not_mem_nil List.not_mem_nil
  rw [List.nil_append] at absent
  simp [cppTurn, cTurn, absent]

end Turn

section Run
variable {S ε : Type} (set : S → List Char → List Char → Except ε S)

theorem loop_token {turn : Cursor S → Option (Iter (Cursor S) (Except ε S))} {cursor : Cursor S}
    {mem rest piece : List Char} {pos : Nat} {state : S}
    (taken : turn cursor = applyToken set (mem ++ (piece ++ nul :: rest)) mem.length pos state)
    (plain : nul ∉ piece) (fuel : Nat) :
    loop turn (fuel + 1) cursor =
      if '=' ∈ piece then
        andThen (set state (setting piece).1 (setting piece).2)
          (fun next => loop turn fuel ⟨mem ++ (marked piece ++ nul :: rest), pos, next⟩)
      else none := by
  split_ifs with assigned
  · rw [applyToken_set set mem rest pos state plain assigned] at taken
    cases outcome : set state (setting piece).1 (setting piece).2 with
    | error stop =>
      rw [outcome] at taken
      exact loop_leave taken fuel
    | ok next =>
      rw [outcome] at taken
      exact loop_again taken fuel
  · rw [applyToken_bare set mem rest pos state plain assigned] at taken
    exact loop_fault taken _

/-- The loop of the C++ modules goes through the tokens, whatever is behind the string. -/
theorem cpp_loop (pieces : List (List Char)) (some' : pieces ≠ [])
    (plain : ∀ piece ∈ pieces, nul ∉ piece) (blankless : ∀ piece ∈ pieces, ' ' ∉ piece)
    (mem tail : List Char) (state : S) (extra : Nat) :
    loop (cppTurn set) (extra + 1 + pieces.length)
        ⟨mem ++ ([' '].intercalate pieces ++ nul :: tail), mem.length, state⟩ =
      walk set state pieces := by
  induction pieces generalizing mem state with
  | nil => exact absurd rfl some'
  | cons piece rest ih =>
    have plainFirst := plain piece List.mem_cons_self
    have blanklessFirst := blankless piece List.mem_cons_self
    cases rest with
    | nil =>
      rw [List.intercalate_singleton]
      by_cases empty : piece = []
      · rw [empty, List.nil_append, walk, if_pos ⟨rfl, rfl⟩]
        exact loop_leave (turn_end set mem tail state).1 _
      · have last := cppTurn_last set mem tail state plainFirst blanklessFirst empty
        rw [walk, if_neg (fun both => empty both.1), List.length_singleton,
          loop_token set last plainFirst]
        split_ifs with assigned
        · congr 1
          funext next
          have ended := (turn_end set (mem ++ marked piece) tail next).1
          rw [List.length_append, marked_length assigned, List.append_assoc] at ended
          exact loop_leave ended _
        · rfl
    | cons second rest =>
      have inner := cppTurn_inner set mem ([' '].intercalate (second :: rest) ++ nul :: tail) state
        plainFirst blanklessFirst
      rw [List.intercalate_cons_cons, List.append_assoc, List.append_assoc, List.singleton_append,
        walk, if_neg (fun both => List.cons_ne_nil _ _ both.2), List.length_cons, ← Nat.add_assoc,
        loop_token set inner plainFirst]
      split_ifs with assigned
      · congr 1
        funext next
        have later := ih (List.cons_ne_nil _ _)
          (fun other member => plain other (List.mem_cons_of_mem _ member))
          (fun other member => blankless other (List.mem_cons_of_mem _ member))
          (mem ++ marked piece ++ [nul]) next
        rw [List.length_append, List.length_append, marked_length assigned, List.append_assoc,
          List.append_assoc] at later
        exact later
      · rfl

theorem skipBlanks_text {text : List Char} (plain : nul ∉ text) (tail : List Char) :
    skipBlanks (text ++ nul :: tail) = some (text.takeWhile (· = ' ')).length := by
  induction text with
  | nil => rfl
  | cons first text ih =>
    rw [List.cons_append, skipBlanks, ih (List.not_mem_of_not_mem_cons plain)]
    by_cases blank : first = ' '
    · simp [blank]
    · simp [blank]

theorem readParams_start {turn : Cursor S → Option (Iter (Cursor S) (Except ε S))} (defaults : S)
    (fuel : Nat) (config : ConfigString) (tail : List Char) :
    readParams turn defaults fuel (config.text ++ nul :: tail) =
      loop turn fuel ⟨config.text.takeWhile (· = ' ') ++
          ([' '].intercalate (pieces config.text) ++ nul :: tail),
        (config.text.takeWhile (· = ' ')).length, defaults⟩ := by
  rw [readParams, skipBlanks_text config.plain, Option.bind_eq_bind, Option.bind_some, pieces,
    List.intercalate_splitOn, ← List.append_assoc, List.takeWhile_append_dropWhile]

theorem piece_plain (config : ConfigString) :
    ∀ piece ∈ pieces config.text, nul ∉ piece ∧ ' ' ∉ piece := by
  intro piece member
  obtain ⟨blankless, part⟩ := splitOn_piece member
  exact ⟨fun inside => config.plain ((List.dropWhile_suffix _).subset (part inside)), blankless⟩

theorem pieces_ne_nil (text : List Char) : pieces text ≠ [] := List.splitOn_ne_nil _ _

theorem cpp_run_iff (defaults : S) (config : ConfigString) (tail : List Char)
    (result : Except ε S) :
    (∃ fuel, readParams (cppTurn set) defaults fuel (config.text ++ nul :: tail) = some result) ↔
      walk set defaults (pieces config.text) = some result := by
  have walked := cpp_loop set (pieces config.text) (pieces_ne_nil _)
    (fun piece member => (piece_plain config piece member).1)
    (fun piece member => (piece_plain config piece member).2) (config.text.takeWhile (· = ' ')) tail
    defaults
  simp only [readParams_start]
  constructor
  · rintro ⟨fuel, returned⟩
    rw [← walked fuel]
    exact loop_mono returned (by omega)
  · intro found
    exact ⟨_, (walked 0).trans found⟩

theorem applyAll_piece (state : S) {piece : List Char} (assigned : '=' ∈ piece)
    (rest : List (List Char)) :
    applyAll set state (settings (piece :: rest)) =
      set state (setting piece).1 (setting piece).2 >>= fun next =>
      applyAll set next (settings rest) := by
  have first : settings (piece :: rest) = setting piece :: settings rest := by
    simp [settings, assigned]
  rw [first]
  exact List.foldlM_cons

theorem split_behind {piece bare : List Char} {rest before after : List (List Char)}
    (assigned : '=' ∈ piece) (isBare : '=' ∉ bare)
    (split : piece :: rest = before ++ bare :: after) :
    ∃ inner, before = piece :: inner ∧ rest = inner ++ bare :: after := by
  cases before with
  | nil => exact absurd ((List.cons.inj split).1 ▸ assigned) isBare
  | cons first inner =>
    obtain ⟨rfl, later⟩ := List.cons.inj split
    exact ⟨inner, rfl, later⟩

section Settable
variable {state next : S} {piece : List Char} {rest : List (List Char)} (assigned : '=' ∈ piece)
include assigned

theorem settable_of_error {stop : ε}
    (outcome : set state (setting piece).1 (setting piece).2 = .error stop) :
    Settable set state (piece :: rest) := by
  intro before bare after split isBare
  obtain ⟨inner, rfl, -⟩ := split_behind assigned isBare split
  refine Or.inr ⟨stop, ?_⟩
  rw [applyAll_piece set state assigned, outcome]
  rfl

theorem applyAll_ok (outcome : set state (setting piece).1 (setting piece).2 = .ok next) :
    applyAll set state (settings (piece :: rest)) = applyAll set next (settings rest) := by
  rw [applyAll_piece set state assigned, outcome]
  rfl

theorem settable_ok_iff (outcome : set state (setting piece).1 (setting piece).2 = .ok next) :
    Settable set state (piece :: rest) ↔ Settable set next rest := by
  constructor
  · intro settable before bare after split isBare
    rw [← applyAll_ok set assigned outcome]
    exact settable (piece :: before) bare after (congrArg (piece :: ·) split) isBare
  · intro settable before bare after split isBare
    obtain ⟨inner, rfl, later⟩ := split_behind assigned isBare split
    rw [applyAll_ok set assigned outcome]
    exact settable inner bare after later isBare

end Settable

theorem settable_empty (state : S) : Settable set state [[]] := by
  intro before bare after split isBare
  cases before with
  | nil => exact Or.inl ⟨(List.cons.inj split).1.symm, (List.cons.inj split).2.symm⟩
  | cons first inner => cases inner <;> cases (List.cons.inj split).2

theorem walk_iff (state : S) (pieces : List (List Char)) :
    walk set state pieces = some (applyAll set state (settings pieces)) ↔
      Settable set state pieces := by
  -- a piece without `=` stops the loop, unless it is the empty one after the last separator
  induction pieces generalizing state with
  | nil => simp [walk, Settable, settings, applyAll, pure, Except.pure]
  | cons piece rest ih =>
    by_cases final : piece = [] ∧ rest = []
    · obtain ⟨rfl, rfl⟩ := final
      exact iff_of_true rfl (settable_empty set state)
    · by_cases assigned : '=' ∈ piece
      · rw [walk, if_neg final, if_pos assigned]
        cases outcome : set state (setting piece).1 (setting piece).2 with
        | error stop =>
          rw [applyAll_piece set state assigned, outcome]
          exact iff_of_true rfl (settable_of_error set assigned outcome)
        | ok next =>
          rw [applyAll_ok set assigned outcome, settable_ok_iff set assigned outcome]
          exact ih next
      · rw [walk, if_neg final, if_neg assigned]
        refine iff_of_false (Option.some_ne_none _).symm fun settable => ?_
        rcases settable [] piece rest rfl assigned with both | ⟨stop, ended⟩
        · exact final both
        · cases ended

theorem cpp_applies_iff (defaults : S) (config : ConfigString) (tail : List Char) :
    (∃ fuel, readParams (cppTurn set) defaults fuel (config.text ++ nul :: tail) =
        some (applyAll set defaults (settings (pieces config.text)))) ↔
      Settable set defaults (pieces config.text) :=
  (cpp_run_iff set defaults config tail _).trans (walk_iff set defaults _)

theorem andThen_bind (result : Except ε S) (further : S → Except ε S)
    (next : S → Option (Except ε S)) :
    andThen (result >>= further) next =
      andThen result (fun state => andThen (further state) next) := by
  cases result <;> rfl

def consumed (pieces : List (List Char)) : List Char :=
  pieces.flatMap (fun piece => marked piece ++ [nul])

/-- The loop of the C modules goes through all tokens but the last. -/
theorem c_prefix (before : List (List Char)) (last : List Char)
    (assigned : ∀ piece ∈ before, '=' ∈ piece) (plain : ∀ piece ∈ before, nul ∉ piece)
    (blankless : ∀ piece ∈ before, ' ' ∉ piece) (mem tail : List Char) (state : S) (fuel : Nat) :
    loop (cTurn set) (fuel + before.length)
        ⟨mem ++ ([' '].intercalate (before ++ [last]) ++ nul :: tail), mem.length, state⟩ =
      andThen (applyAll set state (settings before)) fun next =>
        loop (cTurn set) fuel
          ⟨mem ++ consumed before ++ (last ++ nul :: tail),
            (mem ++ consumed before).length, next⟩ := by
  induction before generalizing mem state with
  | nil => simp [consumed, applyAll, settings, andThen, pure, Except.pure]
  | cons piece rest ih =>
    have inner := cTurn_inner set mem ([' '].intercalate (rest ++ [last]) ++ nul :: tail) state
      (plain piece List.mem_cons_self) (blankless piece List.mem_cons_self)
    rw [List.cons_append, List.intercalate_cons_of_ne_nil (by simp), List.append_assoc,
      List.append_assoc, List.singleton_append, List.length_cons, ← Nat.add_assoc,
      loop_token set inner (plain piece List.mem_cons_self),
      if_pos (assigned piece List.mem_cons_self),
      applyAll_piece set state (assigned piece List.mem_cons_self), andThen_bind]
    congr 1
    funext next
    have later := ih (fun other member => assigned other (List.mem_cons_of_mem _ member))
      (fun other member => plain other (List.mem_cons_of_mem _ member))
      (fun other member => blankless other (List.mem_cons_of_mem _ member))
      (mem ++ marked piece ++ [nul]) next
    have grown : mem ++ marked piece ++ [nul] ++ consumed rest = mem ++
        consumed (piece :: rest) := by
      simp [consumed]
    rw [grown, List.append_assoc mem, List.append_assoc mem, List.append_assoc (marked piece),
      List.singleton_append, List.length_append, List.length_append,
      marked_length (assigned piece List.mem_cons_self)] at later
    exact later

end Run

/-! ### Later settings override earlier ones -/

theorem strtol0_range (s : List Char) : -2 ^ 63 ≤ strtol0 s ∧ strtol0 s < 2 ^ 63 := by
  unfold strtol0
  dsimp only
  omega

def lastValue (name : List Char) (settings : List (List Char × List Char)) : Option (List Char) :=
  ((settings.filter (·.1 = name)).getLast?).map Prod.snd

theorem lastValue_cons (name : List Char) (first : List Char × List Char)
    (rest : List (List Char × List Char)) :
    lastValue name (first :: rest) =
      (lastValue name rest).or (if first.1 = name then some first.2 else none) := by
  unfold lastValue
  by_cases same : first.1 = name
  · cases found : (rest.filter (·.1 = name)).getLast? <;> simp [same, found, List.getLast?_cons]
  · simp [same]

section Last
variable {S ε α : Type} {set : S → List Char → List Char → Except ε S}

theorem applyAll_cons_ok {state final : S} {first : List Char × List Char}
    {rest : List (List Char × List Char)} (done : applyAll set state (first :: rest) = .ok final) :
    ∃ next, set state first.1 first.2 = .ok next ∧ applyAll set next rest = .ok final := by
  rw [applyAll, List.foldlM_cons] at done
  cases outcome : set state first.1 first.2 with
  | error stop =>
    rw [outcome] at done
    cases done
  | ok next =>
    rw [outcome] at done
    exact ⟨next, rfl, done⟩

theorem applyAll_invariant (Inv : S → Prop)
    (keeps : ∀ {state name value next}, Inv state → set state name value = .ok next → Inv next)
    {state final : S} {settings : List (List Char × List Char)} (start : Inv state)
    (done : applyAll set state settings = .ok final) : Inv final := by
  induction settings generalizing state with
  | nil =>
    cases done
    exact start
  | cons first rest ih =>
    obtain ⟨next, outcome, later⟩ := applyAll_cons_ok done
    exact ih (keeps start outcome) later

theorem applyAll_last (get : S → α) (read : List Char → α) (key : List Char)
    (step : ∀ {state name value next}, set state name value = .ok next →
      get next = if name = key then read value else get state)
    {state final : S} {settings : List (List Char × List Char)}
    (done : applyAll set state settings = .ok final) :
    get final = ((lastValue key settings).map read).getD (get state) := by
  induction settings generalizing state with
  | nil =>
    cases done
    rfl
  | cons first rest ih =>
    obtain ⟨next, outcome, later⟩ := applyAll_cons_ok done
    rw [ih later, step outcome, lastValue_cons]
    cases lastValue key rest with
    | some value => rfl
    | none =>
      by_cases same : first.1 = key
      · simp [same]
      · simp [same]

end Last

end Oflops.Harness.ParamLoop
