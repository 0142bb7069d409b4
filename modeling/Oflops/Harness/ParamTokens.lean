import Oflops.Harness.ParamLoop

/-! Configuration strings of settings only, and whether the loop of the C modules stops at their
end. -/

namespace Oflops.Harness.ParamTokens
open Lib.CString Lib.Loop Lib.Record ParamLoop

structure Token where
  name : List Char
  value : List Char
  first : '=' ∉ name
  plain : nul ∉ name ++ '=' :: value
  blankless : ' ' ∉ name ++ '=' :: value

namespace Token

def text (token : Token) : List Char := token.name ++ '=' :: token.value

def pair (token : Token) : List Char × List Char := (token.name, token.value)

theorem assigned (token : Token) : '=' ∈ token.text := by simp [text]

theorem text_ne_nil (token : Token) : token.text ≠ [] := List.ne_nil_of_mem token.assigned

end Token

theorem settings_tokens (tokens : List Token) :
    settings (tokens.map Token.text) = tokens.map Token.pair := by
  have all : (tokens.map Token.text).filter ('=' ∈ ·) = tokens.map Token.text := by
    apply List.filter_eq_self.mpr
    intro piece member
    obtain ⟨token, -, rfl⟩ := List.mem_map.mp member
    exact decide_eq_true token.assigned
  rw [settings, all, List.map_map]
  apply List.map_congr_left
  intro token _
  exact setting_append token.first token.value

theorem mem_intercalate {c sep : Char} {pieces : List (List Char)}
    (member : c ∈ [sep].intercalate pieces) : c = sep ∨ ∃ piece ∈ pieces, c ∈ piece := by
  induction pieces with
  | nil => cases member
  | cons piece rest ih =>
    by_cases final : rest = []
    · rw [final, List.intercalate_singleton] at member
      exact Or.inr ⟨piece, List.mem_cons_self, member⟩
    · rw [List.intercalate_cons_of_ne_nil final, List.append_assoc, List.mem_append] at member
      rcases member with here | later
      · exact Or.inr ⟨piece, List.mem_cons_self, here⟩
      · rcases List.mem_cons.mp later with separator | further
        · exact Or.inl separator
        · exact (ih further).imp_right fun ⟨other, inside, found⟩ =>
            ⟨other, List.mem_cons_of_mem _ inside, found⟩

theorem tokens_plain (blanks : Nat) (tokens : List Token) :
    nul ∉ List.replicate blanks ' ' ++ [' '].intercalate (tokens.map Token.text) := by
  have visible : nul ≠ ' ' := by decide
  intro member
  rcases List.mem_append.mp member with front | joined
  · exact visible (List.eq_of_mem_replicate front)
  · rcases mem_intercalate joined with blank | ⟨piece, inside, found⟩
    · exact visible blank
    · obtain ⟨token, -, rfl⟩ := List.mem_map.mp inside
      exact token.plain found

/-- Settings with a blank between them. Blanks may stand in front: `parse_test_module` puts one
there. -/
def tokenString (blanks : Nat) (tokens : List Token) : ConfigString where
  text := List.replicate blanks ' ' ++ [' '].intercalate (tokens.map Token.text)
  plain := tokens_plain blanks tokens

theorem dropWhile_tokens (blanks : Nat) (tokens : List Token) :
    (tokenString blanks tokens).text.dropWhile (· = ' ') =
      [' '].intercalate (tokens.map Token.text) := by
  have front : ∀ c ∈ List.replicate blanks ' ', decide (c = ' ') = true := by
    intro c member
    exact decide_eq_true (List.eq_of_mem_replicate member)
  rw [tokenString, List.dropWhile_append_of_pos front]
  cases tokens with
  | nil => rfl
  | cons token rest =>
    obtain ⟨c, others, text⟩ := List.exists_cons_of_ne_nil token.text_ne_nil
    have visible : ¬ c = ' ' := fun blank =>
      token.blankless (show ' ' ∈ token.text by rw [text, blank]; exact List.mem_cons_self)
    cases rest with
    | nil => simp [text, visible]
    | cons second rest => simp [text, visible]

theorem pieces_tokens (blanks : Nat) {tokens : List Token} (some' : tokens ≠ []) :
    pieces (tokenString blanks tokens).text = tokens.map Token.text := by
  rw [pieces, dropWhile_tokens]
  apply List.splitOn_intercalate
  · intro piece member
    obtain ⟨token, -, rfl⟩ := List.mem_map.mp member
    exact token.blankless
  · simpa using some'

theorem settings_tokenString (blanks : Nat) (tokens : List Token) :
    settings (pieces (tokenString blanks tokens).text) = tokens.map Token.pair := by
  cases tokens with
  | nil =>
    rw [pieces, dropWhile_tokens]
    rfl
  | cons token rest => rw [pieces_tokens blanks (List.cons_ne_nil token rest), settings_tokens]

section End
variable {S ε : Type} (set : S → List Char → List Char → Except ε S) (defaults : S)

/-- With `tail` behind the terminator, the loop of a C module comes to its end with an outcome. -/
def Sets (config : ConfigString) (tail : List Char) (outcome : Except ε S) : Prop :=
  ∃ fuel, readParams (cTurn set) defaults fuel (config.text ++ nul :: tail) = some outcome

/-- The loop of a C module reads and writes no byte behind the terminator (it comes to its end in
a memory that stops there), and what it sets does not depend on the bytes there. -/
structure StopsAtEnd (config : ConfigString) : Prop where
  inside : ∃ outcome, Sets set defaults config [] outcome
  alone : ∀ tail tail' outcome, Sets set defaults config tail outcome →
    Sets set defaults config tail' outcome

theorem Sets.unique {config : ConfigString} {tail : List Char} {outcome other : Except ε S}
    (one : Sets set defaults config tail outcome) (two : Sets set defaults config tail other) :
    outcome = other := by
  obtain ⟨fuel, returned⟩ := one
  obtain ⟨fuel', returned'⟩ := two
  rw [readParams_start] at returned returned'
  have same := (loop_mono returned (Nat.le_max_left fuel fuel')).symm.trans
    (loop_mono returned' (Nat.le_max_right fuel fuel'))
  exact Option.some.inj same

theorem StopsAtEnd.of_sets {config : ConfigString} (outcome : Except ε S)
    (sets : ∀ tail, Sets set defaults config tail outcome) : StopsAtEnd set defaults config where
  inside := ⟨outcome, sets []⟩
  alone tail tail' _ set' := Sets.unique set defaults (sets tail) set' ▸ sets tail'

/-- Behind the last token the loop writes, and it goes on reading there. -/
theorem cTurn_overruns (mem last : List Char) (state : S) (plain : nul ∉ last)
    (blankless : ' ' ∉ last) (some' : last ≠ []) :
    cTurn set ⟨mem ++ (last ++ [nul]), mem.length, state⟩ = none := by
  have outside : (mem ++ (last ++ [nul])).length ≤ mem.length + last.length + 1 := by
    simp only [List.length_append, List.length_singleton]
    omega
  rw [cTurn_last set mem [] state plain blankless some', cTurn.cut, writeAt_outside outside]
  rfl

theorem stopsAtEnd_nil (blanks : Nat) : StopsAtEnd set defaults (tokenString blanks []) := by
  apply StopsAtEnd.of_sets set defaults (.ok defaults)
  intro tail
  refine ⟨1, ?_⟩
  rw [readParams_start, pieces, dropWhile_tokens]
  exact loop_leave (turn_end set _ tail defaults).2 0

section Some
variable (blanks : Nat) (before : List Token) (last : Token)

theorem readParams_tokens (fuel : Nat) (tail : List Char) :
    ∃ mem, readParams (cTurn set) defaults (fuel + before.length)
        ((tokenString blanks (before ++ [last])).text ++ nul :: tail) =
      andThen (applyAll set defaults (before.map Token.pair)) fun next =>
        loop (cTurn set) fuel ⟨mem ++ (last.text ++ nul :: tail), mem.length, next⟩ := by
  have through := c_prefix set (before.map Token.text) last.text
    (by simp only [List.mem_map]; rintro _ ⟨token, -, rfl⟩; exact token.assigned)
    (by simp only [List.mem_map]; rintro _ ⟨token, -, rfl⟩; exact token.plain)
    (by simp only [List.mem_map]; rintro _ ⟨token, -, rfl⟩; exact token.blankless)
    ((tokenString blanks (before ++ [last])).text.takeWhile (· = ' ')) tail defaults fuel
  have joined : before.map Token.text ++ [last.text] =
      pieces (tokenString blanks (before ++ [last])).text := by
    rw [pieces_tokens blanks (by simp), List.map_append, List.map_singleton]
  rw [List.length_map, settings_tokens, joined, ← readParams_start] at through
  exact ⟨_, through⟩

theorem stopsAtEnd_append_iff :
    StopsAtEnd set defaults (tokenString blanks (before ++ [last])) ↔
      ∃ stop, applyAll set defaults (before.map Token.pair) = .error stop := by
  cases outcome : applyAll set defaults (before.map Token.pair) with
  | error stop =>
    refine iff_of_true ?_ ⟨stop, rfl⟩
    apply StopsAtEnd.of_sets set defaults (.error stop)
    intro tail
    obtain ⟨mem, through⟩ := readParams_tokens set defaults blanks before last 0 tail
    rw [outcome] at through
    exact ⟨_, through⟩
  | ok next =>
    refine iff_of_false (fun stops => ?_) (fun ⟨stop, ended⟩ => by cases ended)
    obtain ⟨result, fuel, returned⟩ := stops.inside
    obtain ⟨mem, through⟩ := readParams_tokens set defaults blanks before last fuel []
    have overrun := cTurn_overruns set mem last.text next last.plain last.blankless last.text_ne_nil
    rw [outcome] at through
    rw [readParams_start] at returned through
    have more := loop_mono returned (Nat.le_add_right fuel before.length)
    rw [through] at more
    change loop (cTurn set) fuel ⟨mem ++ (last.text ++ [nul]), mem.length, next⟩ =
      some result at more
    rw [loop_fault overrun] at more
    cases more

end Some

theorem stopsAtEnd_iff (blanks : Nat) (tokens : List Token) :
    StopsAtEnd set defaults (tokenString blanks tokens) ↔
      tokens = [] ∨ ∃ stop, applyAll set defaults (tokens.dropLast.map Token.pair) =
        .error stop := by
  rcases List.eq_nil_or_concat tokens with rfl | ⟨before, last, rfl⟩
  · exact iff_of_true (stopsAtEnd_nil set defaults blanks) (Or.inl rfl)
  · rw [List.concat_eq_append, List.dropLast_concat, stopsAtEnd_append_iff]
    simp

end End

end Oflops.Harness.ParamTokens
