import Oflops.Harness.ParamTokens
import Oflops.Lib.MachineInt
import Mathlib.Algebra.Order.BigOperators.Group.List

/-! Object identifiers of the configuration file (`my_read_objid` and `setup_channel_snmp` in
`channel_info.c`): the string is cut in place at its dots, and each component is stored in an array
of fixed size. An access outside the string or the array, or a cursor that is no `int`, has no
result. -/

namespace Oflops.Harness.ObjectId
open Lib.CString Lib.Loop Lib.MachineInt Lib.Record ParamLoop ParamTokens Traffic.Packet

def maxOidLen : Nat := 128

/-- `(oid)strtol(s, NULL, 10)`. -/
def oidOf (s : List Char) : Nat := (strtol10 s % 2 ^ 64).toNat

def scan : List Char → Option Nat
  | [] => none
  | c :: cells => if c ≠ '.' ∧ c ≠ nul then (scan cells).map (· + 1) else some 0

structure Cursor where
  inOid : List Char
  p : Nat
  outOid : List Nat
  outOidLen : Nat

structure Parsed where
  inOid : List Char
  outOid : List Nat
  outOidLen : Nat

/-- `int oid_len`, as it is compared with a length. -/
def oidLen (capacity : Nat) : Nat := (uint64 (int32 capacity)).toNat

/-- A turn of the loop of `my_read_objid`. -/
def turn (oidLen : Nat) (len : Int) (cursor : Cursor) : Option (Iter Cursor Parsed) := do
  let ahead ← scan (cursor.inOid.drop cursor.p)
  let inOid ← writeAt cursor.inOid (cursor.p + ahead) [nul]
  let tmp ← intCount (cursor.p + ahead + 1)
  let component ← textAt nul inOid cursor.p
  let outOid ← writeAt cursor.outOid cursor.outOidLen [oidOf component]
  if oidLen = cursor.outOidLen then some (.leave ⟨inOid, outOid, cursor.outOidLen⟩)
  else if (tmp : Int) ≥ len then some (.leave ⟨inOid, outOid, cursor.outOidLen + 1⟩)
  else some (.again ⟨inOid, tmp, outOid, cursor.outOidLen + 1⟩)

def myReadObjid (fuel : Nat) (inOid : List Char) (outOid : List Nat) (outOidLen : Nat) :
    Option Parsed := do
  let length ← strlen nul inOid 0
  loop (turn (oidLen outOidLen) (int32 length)) fuel ⟨inOid, 0, outOid, 0⟩

/-- An array of `MAX_OID_LEN` elements in `struct channel_info`, and the length kept beside it. -/
structure OidField where
  cells : List Nat
  len : Nat

structure ChannelOids where
  inOid : OidField
  outOid : OidField

/-- One half of `setup_channel_snmp`; there is no string for a `NULL`. -/
def setupOid (fuel : Nat) (field : OidField) : Option (List Char) → Option OidField
  | none => some { field with len := 0 }
  | some oid => (myReadObjid fuel oid field.cells maxOidLen).map fun parsed =>
    ⟨parsed.outOid, parsed.outOidLen⟩

def setupChannelSnmp (fuel : Nat) (channel : ChannelOids) (inOid outOid : Option (List Char)) :
    Option ChannelOids := do
  let input ← setupOid fuel channel.inOid inOid
  let output ← setupOid fuel channel.outOid outOid
  some ⟨input, output⟩

/-! ### The components that are read -/

def joined (pieces : List (List Char)) : List Char := ['.'].intercalate pieces

/-- The components from a cursor on, up to the one behind which the length `len` is reached. -/
def visited (len : Int) : Nat → List (List Char) → List (List Char)
  | _, [] => []
  | p, piece :: rest =>
    piece :: if ((p + piece.length + 1 : Nat) : Int) ≥ len then []
      else visited len (p + piece.length + 1) rest

/-- The components that are stored from a cursor on: the loop leaves once as many as `oidLen` have
been counted and one more has been stored. -/
def seen (oidLen : Nat) (len : Int) (p count : Nat) (pieces : List (List Char)) :
    List (List Char) :=
  (visited len p pieces).take (oidLen + 1 - count)

def components (text : List Char) (capacity : Nat) : List (List Char) :=
  seen (oidLen capacity) (int32 text.length) 0 0 (text.splitOn '.')

def span (pieces : List (List Char)) : Nat := (pieces.map (·.length + 1)).sum

/-- Components find room in an array from an index on, and a cursor stays an `int`. -/
def Room (size count p : Nat) (pieces : List (List Char)) : Prop :=
  count + pieces.length ≤ size ∧ p + span pieces < 2 ^ 31

instance (size count p : Nat) (pieces : List (List Char)) : Decidable (Room size count p pieces) :=
  inferInstanceAs (Decidable (_ ∧ _))

@[simp] theorem span_cons (piece : List Char) (rest : List (List Char)) :
    span (piece :: rest) = piece.length + 1 + span rest := rfl

theorem joined_cons {piece : List Char} {rest : List (List Char)} (more : rest ≠ []) :
    joined (piece :: rest) = piece ++ '.' :: joined rest := by
  rw [joined, List.intercalate_cons_of_ne_nil more, List.append_assoc]
  rfl

/-! ### One component -/

section Turn
variable (oidLen : Nat) (len : Int) (done rest : List Char) (out : List Nat) (count : Nat)

theorem scan_append {piece : List Char} (undotted : '.' ∉ piece) (plain : nul ∉ piece) {stop : Char}
    (stops : stop = '.' ∨ stop = nul) : scan (piece ++ stop :: rest) = some piece.length := by
  induction piece with
  | nil =>
    have ends : ¬ (stop ≠ '.' ∧ stop ≠ nul) := by tauto
    rw [List.nil_append, scan, if_neg ends]
    rfl
  | cons first piece ih =>
    have dot : first ≠ '.' := (List.ne_of_not_mem_cons undotted).symm
    have visible : first ≠ nul := (List.ne_of_not_mem_cons plain).symm
    rw [List.cons_append, scan, if_pos ⟨dot, visible⟩, ih (List.not_mem_of_not_mem_cons undotted)
      (List.not_mem_of_not_mem_cons plain)]
    rfl

theorem turn_piece {piece : List Char} (undotted : '.' ∉ piece) (plain : nul ∉ piece) {stop : Char}
    (stops : stop = '.' ∨ stop = nul) :
    turn oidLen len ⟨done ++ (piece ++ stop :: rest), done.length, out, count⟩ =
      if Room out.length count done.length [piece] then
        let cut := done ++ (piece ++ nul :: rest)
        let out := patch out count [oidOf piece]
        some (if oidLen = count then .leave ⟨cut, out, count⟩
          else if ((done.length + piece.length + 1 : Nat) : Int) ≥
            len then .leave ⟨cut, out, count + 1⟩
          else .again ⟨cut, done.length + piece.length + 1, out, count + 1⟩)
      else none := by
  have ahead : scan ((done ++ (piece ++ stop :: rest)).drop done.length) = some piece.length := by
    rw [List.drop_left, scan_append rest undotted plain stops]
  have cut := writeAt_cell (done ++ piece) stop nul rest
  rw [List.append_assoc, List.length_append, List.append_assoc] at cut
  have component := textAt_append done rest plain
  have single : Room out.length count done.length [piece] ↔
      count + 1 ≤ out.length ∧ done.length + piece.length + 1 < 2 ^ 31 := Iff.rfl
  rw [turn]
  dsimp only
  rw [ahead, Option.bind_eq_bind, Option.bind_some, cut, Option.bind_eq_bind, Option.bind_some]
  by_cases high : done.length + piece.length + 1 < 2 ^ 31
  · rw [intCount, if_pos high, Option.bind_eq_bind, Option.bind_some, component, Option.bind_some,
      writeAt, List.length_singleton]
    by_cases inside : count + 1 ≤ out.length
    · rw [if_pos inside, Option.bind_some, if_pos (single.mpr ⟨inside, high⟩)]
      split_ifs <;> rfl
    · rw [if_neg inside, Option.bind_none, if_neg fun room => inside (single.mp room).1]
  · rw [intCount, if_neg high, Option.bind_eq_bind, Option.bind_none,
      if_neg fun room => high (single.mp room).2]

variable {oidLen len done rest out count} {piece : List Char} {stop : Char}

theorem turn_full (undotted : '.' ∉ piece) (plain : nul ∉ piece) (stops : stop = '.' ∨ stop = nul)
    (full : ¬ Room out.length count done.length [piece]) :
    turn oidLen len ⟨done ++ (piece ++ stop :: rest), done.length, out, count⟩ = none := by
  rw [turn_piece oidLen len done rest out count undotted plain stops, if_neg full]

theorem turn_leaves (undotted : '.' ∉ piece) (plain : nul ∉ piece) (stops : stop = '.' ∨ stop = nul)
    (room : Room out.length count done.length [piece]) (below : count ≤ oidLen)
    (leaves : oidLen = count ∨ ((done.length + piece.length + 1 : Nat) : Int) ≥ len) :
    turn oidLen len ⟨done ++ (piece ++ stop :: rest), done.length, out, count⟩ =
      some (.leave ⟨done ++ (piece ++ nul :: rest), patch out count [oidOf piece],
        min oidLen (count + 1)⟩) := by
  rw [turn_piece oidLen len done rest out count undotted plain stops, if_pos room]
  dsimp only
  by_cases limit : oidLen = count
  · rw [if_pos limit, Nat.min_eq_left (by omega), limit]
  · rw [if_neg limit, if_pos (leaves.resolve_left limit), Nat.min_eq_right (by omega)]

theorem turn_goes (undotted : '.' ∉ piece) (plain : nul ∉ piece) (stops : stop = '.' ∨ stop = nul)
    (room : Room out.length count done.length [piece])
    (goes : ¬ (oidLen = count ∨ ((done.length + piece.length + 1 : Nat) : Int) ≥ len)) :
    turn oidLen len ⟨done ++ (piece ++ stop :: rest), done.length, out, count⟩ =
      some (.again ⟨done ++ (piece ++ nul :: rest), done.length + piece.length + 1,
        patch out count [oidOf piece], count + 1⟩) := by
  obtain ⟨limit, reach⟩ := not_or.mp goes
  rw [turn_piece oidLen len done rest out count undotted plain stops, if_pos room]
  dsimp only
  rw [if_neg limit, if_neg reach]

end Turn

section Seen
variable {oidLen : Nat} {len : Int} {p count : Nat} {piece : List Char} {rest : List (List Char)}

theorem seen_last (below : count ≤ oidLen)
    (leaves : oidLen = count ∨ ((p + piece.length + 1 : Nat) : Int) ≥ len) :
    seen oidLen len p count (piece :: rest) = [piece] := by
  rw [seen, Nat.sub_add_comm below, visited, List.take_succ_cons]
  rcases leaves with limit | reach
  · rw [limit, Nat.sub_self, List.take_zero]
  · rw [if_pos reach, List.take_nil]

theorem seen_next (below : count ≤ oidLen)
    (goes : ¬ (oidLen = count ∨ ((p + piece.length + 1 : Nat) : Int) ≥ len)) :
    seen oidLen len p count (piece :: rest) =
      piece :: seen oidLen len (p + piece.length + 1) (count + 1) rest := by
  have reach := (not_or.mp goes).2
  rw [seen, Nat.sub_add_comm below, visited, List.take_succ_cons, if_neg reach, seen,
    Nat.add_sub_add_right]

end Seen

/-! ### The whole string -/

theorem room_cons {size count p : Nat} {piece : List Char} {rest : List (List Char)} :
    Room size count p (piece :: rest) ↔
      Room size count p [piece] ∧ Room size (count + 1) (p + piece.length + 1) rest := by
  have single : span [piece] = piece.length + 1 := rfl
  simp only [Room, span_cons, single, List.length_cons, List.length_nil]
  omega

theorem joined_stop (piece : List Char) (rest : List (List Char)) :
    ∃ stop tail, (stop = '.' ∨ stop = nul) ∧
      joined (piece :: rest) ++ [nul] = piece ++ stop :: tail ∧
      (rest ≠ [] → tail = joined rest ++ [nul]) := by
  by_cases final : rest = []
  · refine ⟨nul, [], Or.inr rfl, ?_, fun more => absurd final more⟩
    rw [final, joined, List.intercalate_singleton]
  · refine ⟨'.', joined rest ++ [nul], Or.inl rfl, ?_, fun _ => rfl⟩
    rw [joined_cons final, List.append_assoc, List.cons_append]

theorem loop_components {oidLen : Nat} {len : Int} (pieces : List (List Char)) (some' : pieces ≠ [])
    (clean : ∀ piece ∈ pieces, '.' ∉ piece ∧ nul ∉ piece) (done : List Char) (out : List Nat)
    (count : Nat) (below : count ≤ oidLen)
    (reached : len ≤ (done.length + (joined pieces).length + 1 : Nat)) :
    ∃ after, ∀ extra,
      loop (turn oidLen len) (pieces.length + extra)
          ⟨done ++ (joined pieces ++ [nul]), done.length, out, count⟩ =
        let seen := seen oidLen len done.length count pieces
        if Room out.length count done.length seen then
          some ⟨after, patch out count (seen.map oidOf), min oidLen (count + seen.length)⟩
        else none := by
  induction pieces generalizing done out count with
  | nil => exact absurd rfl some'
  | cons piece rest ih =>
    obtain ⟨undotted, plain⟩ := clean piece List.mem_cons_self
    obtain ⟨stop, tail, stops, same, others⟩ := joined_stop piece rest
    have fuel : ∀ extra, (piece :: rest).length + extra = rest.length + extra + 1 := by
      intro extra
      rw [List.length_cons, Nat.add_right_comm]
    rw [same]
    by_cases leaves : oidLen = count ∨ ((done.length + piece.length + 1 : Nat) : Int) ≥ len
    · refine ⟨done ++ (piece ++ nul :: tail), fun extra => ?_⟩
      rw [fuel, seen_last below leaves]
      by_cases room : Room out.length count done.length [piece]
      · rw [if_pos room, loop_leave (turn_leaves undotted plain stops room below leaves)]
        rfl
      · rw [if_neg room, loop_fault (turn_full undotted plain stops room)]
    · have more : rest ≠ [] := by
        intro final
        rw [final, joined, List.intercalate_singleton] at reached
        exact leaves (Or.inr reached)
      have behind : (done ++ (piece ++ [nul])).length = done.length + piece.length + 1 := by
        rw [List.length_append, List.length_append, List.length_singleton, Nat.add_assoc]
      rw [joined_cons more, List.length_append, List.length_cons] at reached
      obtain ⟨after, later⟩ :=
        ih more (fun other member => clean other (List.mem_cons_of_mem _ member))
        (done ++ (piece ++ [nul])) (patch out count [oidOf piece]) (count + 1) (by omega)
        (by rw [behind]; omega)
      refine ⟨after, fun extra => ?_⟩
      rw [fuel, seen_next below leaves]
      by_cases room : Room out.length count done.length [piece]
      · have size : (patch out count [oidOf piece]).length = out.length := by
          apply patch_length
          rw [List.length_singleton]
          exact room.1
        have next := later extra
        simp only [behind, size, patch_next room.1, List.append_assoc, List.cons_append,
          List.nil_append] at next
        simp only [room_cons, room, true_and, List.map_cons, List.length_cons]
        rw [loop_again (turn_goes undotted plain stops room leaves), others more, next,
          Nat.add_right_comm count 1]
        rfl
      · rw [if_neg fun both => room (room_cons.mp both).1,
          loop_fault (turn_full undotted plain stops room)]

theorem myReadObjid_components (config : ConfigString) (out : List Nat) (capacity : Nat) :
    ∃ after, ∀ extra,
      myReadObjid ((config.text.splitOn '.').length + extra) (config.text ++ [nul]) out capacity =
        let seen := components config.text capacity
        if Room out.length 0 0 seen then
          some ⟨after, patch out 0 (seen.map oidOf), min (oidLen capacity) seen.length⟩
        else none := by
  have whole : joined (config.text.splitOn '.') = config.text := List.intercalate_splitOn '.'
  have clean : ∀ piece ∈ config.text.splitOn '.', '.' ∉ piece ∧ nul ∉ piece := by
    intro piece member
    obtain ⟨undotted, part⟩ := splitOn_piece member
    exact ⟨undotted, fun inside => config.plain (part inside)⟩
  have length : strlen nul (config.text ++ [nul]) 0 = some config.text.length :=
    strlen_append [] [] config.plain
  have reached : int32 config.text.length ≤
      (([] : List Char).length + (joined (config.text.splitOn '.')).length + 1 : Nat) := by
    have short : int32 config.text.length ≤ config.text.length := by
      rcases Nat.eq_zero_or_pos config.text.length with empty | positive
      · rw [empty]
        decide
      · exact int32_le (by omega)
    rw [whole, List.length_nil]
    omega
  have read := loop_components (config.text.splitOn '.') (List.splitOn_ne_nil _ _) clean [] out 0
    (Nat.zero_le (oidLen capacity)) reached
  simp only [whole, List.nil_append, Nat.zero_add] at read
  simp only [myReadObjid, length, Option.bind_eq_bind, Option.bind_some, components]
  exact read

theorem myReadObjid_mono {fuel more capacity : Nat} {text : List Char} {out : List Nat}
    {parsed : Parsed} (returned : myReadObjid fuel text out capacity = some parsed)
    (enough : fuel ≤ more) : myReadObjid more text out capacity = some parsed := by
  obtain ⟨length, measured, left⟩ := Option.bind_eq_some_iff.mp returned
  exact Option.bind_eq_some_iff.mpr ⟨length, measured, loop_mono left enough⟩

/-- The string is read to its end, nothing else of it or of the array is touched, and the length
that is left is none beyond the capacity. -/
def Respects (config : ConfigString) (capacity : Nat) : Prop :=
  ∀ out : List Nat, out.length = capacity → ∃ fuel parsed,
    myReadObjid fuel (config.text ++ [nul]) out capacity = some parsed ∧ parsed.outOidLen ≤ capacity

theorem Respects.room {config : ConfigString} {capacity : Nat}
    (respects : Respects config capacity) :
    Room capacity 0 0 (components config.text capacity) := by
  have long : (List.replicate capacity 0).length = capacity := List.length_replicate
  obtain ⟨fuel, parsed, returned, -⟩ := respects (List.replicate capacity 0) long
  obtain ⟨after, read⟩ := myReadObjid_components config (List.replicate capacity 0) capacity
  by_contra full
  have fault := read fuel
  rw [long] at fault
  dsimp only at fault
  rw [if_neg full, myReadObjid_mono returned (Nat.le_add_left fuel _)] at fault
  cases fault

/-- The array is respected exactly if there are no more components than it has elements and the
cursor behind them is an `int`. -/
theorem respects_iff (config : ConfigString) (capacity : Nat) :
    Respects config capacity ↔
      (components config.text capacity).length ≤ capacity ∧
        span (components config.text capacity) < 2 ^ 31 := by
  constructor
  · intro respects
    obtain ⟨few, short⟩ := respects.room
    rw [Nat.zero_add] at few short
    exact ⟨few, short⟩
  · intro ⟨few, short⟩ out long
    have room : Room out.length 0 0 (components config.text capacity) := by
      rw [Room, Nat.zero_add, Nat.zero_add, long]
      exact ⟨few, short⟩
    obtain ⟨after, read⟩ := myReadObjid_components config out capacity
    have returned := read 0
    dsimp only at returned
    rw [if_pos room] at returned
    exact ⟨_, _, returned, Nat.le_trans (Nat.min_le_right _ _) few⟩

def ones : ConfigString where
  text := joined (List.replicate (maxOidLen + 1) ['1'])
  plain := by decide +kernel

/-- The store stands in front of the test of the length. -/
theorem ones_overflow : ¬ Respects ones maxOidLen := by
  intro respects
  have many : (components ones.text maxOidLen).length = maxOidLen + 1 := by decide +kernel
  have few := respects.room.1
  rw [many] at few
  exact absurd few (by decide)

/-! ### Numbers joined by dots -/

/-- The components of a string, without an empty one behind its last dot. -/
def complete : List (List Char) → List (List Char)
  | [] => []
  | piece :: rest => piece :: if rest = [[]] then [] else complete rest

theorem joined_pos {pieces : List (List Char)} (some' : pieces ≠ []) (more : pieces ≠ [[]]) :
    0 < (joined pieces).length := by
  obtain ⟨piece, rest, rfl⟩ := List.exists_cons_of_ne_nil some'
  by_cases final : rest = []
  · subst final
    rw [joined, List.intercalate_singleton]
    exact List.length_pos_of_ne_nil fun empty => more (by rw [empty])
  · rw [joined_cons final, List.length_append, List.length_cons]
    omega

theorem visited_complete (pieces : List (List Char)) (p : Nat) :
    visited (p + (joined pieces).length : Nat) p pieces = complete pieces := by
  induction pieces generalizing p with
  | nil => rfl
  | cons piece rest ih =>
    rw [visited, complete]
    by_cases final : rest = []
    · rw [final, joined, List.intercalate_singleton, if_pos (by omega), if_neg (by simp)]
      rfl
    · rw [joined_cons final, List.length_append, List.length_cons]
      by_cases dot : rest = [[]]
      · have nothing : (joined rest).length = 0 := by
          rw [dot]
          rfl
        rw [if_pos dot, if_pos (by omega)]
      · have more := joined_pos final dot
        have same : p + (piece.length + ((joined rest).length + 1)) =
            p + piece.length + 1 + (joined rest).length := by omega
        rw [if_neg dot, if_neg (by omega), same, ih]

structure OidNumbers where
  numbers : List Nat
  nonempty : numbers ≠ []
  few : numbers.length ≤ maxOidLen
  small : ∀ number ∈ numbers, number < 2 ^ 63

theorem hexDigit_decimal {c : Char} (decimal : c.isDigit = true) :
    hexDigit c = some (c.toNat - '0'.toNat) ∧ c.toNat - '0'.toNat < 10 := by
  obtain ⟨low, high⟩ := Char.isDigit_iff_toNat.mp decimal
  refine ⟨if_pos ⟨low, high⟩, ?_⟩
  have nine : '9'.toNat = '0'.toNat + 9 := rfl
  omega

theorem digits_ofDigitChars (cs : List Char) (decimal : ∀ c ∈ cs, c.isDigit = true) (acc : Nat) :
    digits 10 acc cs = (Nat.ofDigitChars 10 cs acc, []) := by
  induction cs generalizing acc with
  | nil => rfl
  | cons c cs ih =>
    obtain ⟨digit, small⟩ := hexDigit_decimal (decimal c List.mem_cons_self)
    rw [digits, digit]
    dsimp only
    rw [if_pos small, ih (fun other member => decimal other (List.mem_cons_of_mem _ member)),
      Nat.ofDigitChars_cons, Nat.mul_comm]

theorem oidOf_toDigits {number : Nat} (small : number < 2 ^ 63) :
    oidOf (Nat.toDigits 10 number) = number := by
  have decimal : ∀ c ∈ Nat.toDigits 10 number, c.isDigit = true := fun c member =>
    Nat.isDigit_of_mem_toDigits (by decide) (by decide) member
  have read := digits_ofDigitChars _ decimal 0
  rw [Nat.ofDigitChars_ten_toDigits] at read
  obtain ⟨first, rest, same⟩ :=
    List.exists_cons_of_ne_nil (Nat.toDigits_ne_nil (n := number) (b := 10))
  rw [same] at read decimal ⊢
  obtain ⟨visible, minus, plus⟩ := isDigit_apart (decimal first List.mem_cons_self)
  have value : strtol10 (first :: rest) = number := by
    rw [strtol10, List.dropWhile_cons_of_neg (by rw [visible]; decide)]
    split
    next _ rest' sign => exact absurd (List.cons.inj sign).1 minus
    next _ rest' sign => exact absurd (List.cons.inj sign).1 plus
    next =>
      rw [read]
      omega
  rw [oidOf, value]
  omega

namespace OidNumbers
variable (oid : OidNumbers)

def pieces : List (List Char) := oid.numbers.map (Nat.toDigits 10)

theorem pieces_ne_nil : oid.pieces ≠ [] := fun none' => oid.nonempty (List.map_eq_nil_iff.mp none')

theorem decimal {piece : List Char} (member : piece ∈ oid.pieces) {c : Char} (inside : c ∈ piece) :
    c.isDigit = true := by
  obtain ⟨number, -, rfl⟩ := List.mem_map.mp member
  exact Nat.isDigit_of_mem_toDigits (by decide) (by decide) inside

def config : ConfigString where
  text := joined oid.pieces
  plain := by
    intro member
    rcases mem_intercalate member with dot | ⟨piece, here, inside⟩
    · exact absurd dot (by decide)
    · exact absurd (oid.decimal here inside) (by decide)

theorem splitOn_text : oid.config.text.splitOn '.' = oid.pieces := by
  apply List.splitOn_intercalate '.' _ oid.pieces_ne_nil
  intro piece member inside
  exact absurd (oid.decimal member inside) (by decide)

theorem span_le : span oid.pieces ≤ 20 * maxOidLen := by
  have each : ∀ width ∈ oid.pieces.map (·.length + 1), width ≤ 20 := by
    intro width member
    obtain ⟨piece, here, rfl⟩ := List.mem_map.mp member
    obtain ⟨number, inside, rfl⟩ := List.mem_map.mp here
    have below : number < 10 ^ 19 := Nat.lt_trans (oid.small number inside) (by decide)
    have short := (Nat.length_toDigits_le_iff (by decide) (by decide)).mpr below
    exact Nat.succ_le_succ short
  have total : span oid.pieces ≤ (oid.pieces.map (·.length + 1)).length * 20 :=
    List.sum_le_card_nsmul _ _ each
  have few := oid.few
  rw [List.length_map, pieces, List.length_map] at total
  rw [pieces]
  omega

end OidNumbers

theorem span_joined {pieces : List (List Char)} (some' : pieces ≠ []) :
    span pieces = (joined pieces).length + 1 := by
  induction pieces with
  | nil => exact absurd rfl some'
  | cons piece rest ih =>
    by_cases final : rest = []
    · rw [final, joined, List.intercalate_singleton]
      rfl
    · rw [span_cons, joined_cons final, ih final, List.length_append, List.length_cons]
      omega

theorem complete_eq_self {pieces : List (List Char)} (filled : [] ∉ pieces) :
    complete pieces = pieces := by
  induction pieces with
  | nil => rfl
  | cons piece rest ih =>
    have other : rest ≠ [[]] := by
      intro empty
      rw [empty] at filled
      simp at filled
    rw [complete, if_neg other, ih (List.not_mem_of_not_mem_cons filled)]

theorem oidLen_max : oidLen maxOidLen = maxOidLen := by decide

theorem components_numbers (oid : OidNumbers) :
    components oid.config.text maxOidLen = oid.pieces := by
  have filled : [] ∉ oid.pieces := by
    intro member
    obtain ⟨number, -, empty⟩ := List.mem_map.mp member
    exact Nat.toDigits_ne_nil empty
  have long := oid.span_le
  rw [span_joined oid.pieces_ne_nil] at long
  have short : int32 oid.config.text.length = (0 + (joined oid.pieces).length : Nat) := by
    have bound : 20 * maxOidLen = 2560 := rfl
    rw [Nat.zero_add]
    exact int32_of_range (by omega) (by change ((joined oid.pieces).length : Int) < _; omega)
  have few : oid.pieces.length ≤ maxOidLen + 1 := by
    rw [OidNumbers.pieces, List.length_map]
    exact Nat.le_succ_of_le oid.few
  rw [components, seen, oidLen_max, Nat.sub_zero, short, oid.splitOn_text, visited_complete,
    complete_eq_self filled, List.take_of_length_le few]

/-- The first elements are the numbers of an identifier, and the length is how many there are. -/
def Holds (field : OidField) : Option OidNumbers → Prop
  | none => field.len = 0
  | some oid => field.cells.take oid.numbers.length = oid.numbers ∧ field.len = oid.numbers.length

def memory (oid : OidNumbers) : List Char := oid.config.text ++ [nul]

theorem setupOid_reads (field : OidField) (size : field.cells.length = maxOidLen)
    (oid : Option OidNumbers) :
    ∃ enough after, Holds after oid ∧
      ∀ extra, setupOid (enough + extra) field (oid.map memory) = some after := by
  cases oid with
  | none => exact ⟨0, { field with len := 0 }, rfl, fun extra => rfl⟩
  | some oid =>
    obtain ⟨after, read⟩ := myReadObjid_components oid.config field.cells maxOidLen
    have counted : oid.pieces.length = oid.numbers.length := List.length_map _
    have values : oid.pieces.map oidOf = oid.numbers := by
      rw [OidNumbers.pieces, List.map_map]
      conv_rhs => rw [← List.map_id oid.numbers]
      apply List.map_congr_left
      intro number member
      exact oidOf_toDigits (oid.small number member)
    have room : Room field.cells.length 0 0 oid.pieces := by
      have long := oid.span_le
      have bound : 20 * maxOidLen = 2560 := rfl
      rw [Room, size, counted, Nat.zero_add, Nat.zero_add]
      exact ⟨oid.few, by omega⟩
    rw [components_numbers] at read
    dsimp only at read
    rw [if_pos room, values, counted, oidLen_max, Nat.min_eq_right oid.few] at read
    refine ⟨(oid.config.text.splitOn '.').length,
      ⟨patch field.cells 0 oid.numbers, oid.numbers.length⟩, ⟨List.take_left, rfl⟩, fun extra => ?_⟩
    simp only [Option.map_some, setupOid, memory, read extra]

/-- Both identifiers of a channel are read back as they were written. -/
theorem setupChannelSnmp_reads (channel : ChannelOids)
    (inputs : channel.inOid.cells.length = maxOidLen)
    (outputs : channel.outOid.cells.length = maxOidLen) (inOid outOid : Option OidNumbers) :
    ∃ enough after, Holds after.inOid inOid ∧ Holds after.outOid outOid ∧
      ∀ extra, setupChannelSnmp (enough + extra) channel (inOid.map memory) (outOid.map memory) =
        some after := by
  obtain ⟨first, input, held, read⟩ := setupOid_reads channel.inOid inputs inOid
  obtain ⟨second, output, kept, written⟩ := setupOid_reads channel.outOid outputs outOid
  refine ⟨first + second, ⟨input, output⟩, held, kept, fun extra => ?_⟩
  have one := read (second + extra)
  have two := written (first + extra)
  rw [← Nat.add_assoc] at one two
  rw [Nat.add_comm second] at two
  simp only [setupChannelSnmp, one, two, Option.bind_eq_bind, Option.bind_some]

def ifInOctets : OidNumbers where
  numbers := [1, 3, 6, 1, 2, 1, 2, 2, 1, 10, 1]
  nonempty := by decide
  few := by decide
  small := by decide

theorem setupChannelSnmp_reads_ifInOctets :
    ∃ enough after, Holds after.inOid (some ifInOctets) ∧ Holds after.outOid none ∧
      ∀ extra, setupChannelSnmp (enough + extra)
        ⟨⟨List.replicate maxOidLen 0, maxOidLen⟩, ⟨List.replicate maxOidLen 0, maxOidLen⟩⟩
        (some (memory ifInOctets)) none = some after :=
  setupChannelSnmp_reads
    ⟨⟨List.replicate maxOidLen 0, maxOidLen⟩, ⟨List.replicate maxOidLen 0, maxOidLen⟩⟩
    List.length_replicate List.length_replicate (some ifInOctets) none

end Oflops.Harness.ObjectId
