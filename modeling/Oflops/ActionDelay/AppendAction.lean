import Oflops.Lib.Framing
import Oflops.Traffic.Packet

/-! `append_action` of the action delay test (`action_delay.c`): action codes and strings become
a list of OpenFlow actions in one buffer. Walking the buffer by the length in each header visits
the actions that were accepted. -/

namespace Oflops.ActionDelay.AppendAction
open Lib.Bytes Lib.Framing Lib.Record Traffic.Packet

/-- `enum ofp_action_type` up to `OFPAT_SET_TP_DST`. -/
inductive ActionType where
  | output
  | setVlanVid
  | setVlanPcp
  | stripVlan
  | setDlSrc
  | setDlDst
  | setNwSrc
  | setNwDst
  | setNwTos
  | setTpSrc
  | setTpDst
  deriving DecidableEq, Repr

def ActionType.code : ActionType → Nat
  | .output => 0
  | .setVlanVid => 1
  | .setVlanPcp => 2
  | .stripVlan => 3
  | .setDlSrc => 4
  | .setDlDst => 5
  | .setNwSrc => 6
  | .setNwDst => 7
  | .setNwTos => 8
  | .setTpSrc => 9
  | .setTpDst => 10

def ActionType.ofCode : Int → Option ActionType
  | 0 => some .output
  | 1 => some .setVlanVid
  | 2 => some .setVlanPcp
  | 3 => some .stripVlan
  | 4 => some .setDlSrc
  | 5 => some .setDlDst
  | 6 => some .setNwSrc
  | 7 => some .setNwDst
  | 8 => some .setNwTos
  | 9 => some .setTpSrc
  | 10 => some .setTpDst
  | _ => none

theorem ActionType.ofCode_code (type : ActionType) : ofCode type.code = some type := by
  cases type <;> rfl

def unsigned (bits : Nat) (x : Int) : Nat := (x % 2 ^ bits).toNat

def isHexChar (c : Char) : Bool :=
  ('A' ≤ c ∧ c ≤ 'F') ∨ ('a' ≤ c ∧ c ≤ 'f') ∨ ('0' ≤ c ∧ c ≤ '9')

/-- The NUL that ends a string is no hexadecimal digit. -/
def isHex : List Char → Nat → Bool
  | _, 0 => true
  | [], _ + 1 => false
  | c :: rest, len + 1 => if isHexChar c then isHex rest len else false

def hexValue (c : Char) : Nat :=
  if 'A' ≤ c ∧ c ≤ 'F' then 10 + (c.toNat - 'A'.toNat)
  else if 'a' ≤ c ∧ c ≤ 'f' then 10 + (c.toNat - 'a'.toNat)
  else if '0' ≤ c ∧ c ≤ '9' then c.toNat - '0'.toNat
  else 0

def readHexLoop : Nat → Nat → List Char → Nat
  | 0, ret, _ => ret
  | left + 1, ret, data =>
      readHexLoop left ((ret * 2 ^ 4 + hexValue (data.headD '\x00')) % 2 ^ 8) data.tail

def readHex (data : List Char) : UInt8 := UInt8.ofNat (readHexLoop 2 0 data)

/-- What a case of the switch does: the size of the struct, how much of it is cleared, the value
of `len` and the assignments to the other members. -/
structure ActionStruct where
  size : Nat
  zeroed : Nat
  len : Nat
  members : List (Nat × List UInt8)

/-- The cases of the switch; none where the parameter is refused. -/
def actionStruct (type : ActionType) (param : List Char) : Option ActionStruct :=
  match type with
  | .output =>
      some ⟨8, 8, 8, [(6, leBytes 2 (htons 2000)),
        (4, leBytes 2 (htons (unsigned 16 (strtol10 param))))]⟩
  | .setVlanVid =>
      if strtol10 param < 0 ∨ strtol10 param ≥ 0xFFF then none
      else some ⟨8, 8, 8, [(4, leBytes 2 (htons (unsigned 16 (strtol10 param))))]⟩
  | .setVlanPcp =>
      if strtol16 param < 0 ∨ strtol16 param > 7 then none
      else some ⟨8, 8, 8, [(4, leBytes 1 (unsigned 8 (strtol16 param)))]⟩
  | .stripVlan => some ⟨8, 8, 8, []⟩
  | .setDlSrc | .setDlDst =>
      if param.length ≠ 12 ∨ isHex param 12 = false then none
      else some ⟨16, 8, 16, (List.range 6).map (fun i => (4 + i, [readHex (param.drop (2 * i))]))⟩
  | .setNwSrc | .setNwDst =>
      if param.length ≠ 8 ∨ isHex param 8 = false then none
      else some ⟨8, 0, 8, [(4, leBytes 4 (htonl (unsigned 32 (strtol16 param))))]⟩
  | .setNwTos => some ⟨8, 0, 8, [(4, leBytes 1 (unsigned 8 (strtol16 param)))]⟩
  | .setTpSrc | .setTpDst =>
      some ⟨8, 0, 8, [(4, leBytes 2 (htons (unsigned 16 (strtol16 param))))]⟩

/-- `realloc` to a larger size; what it brings in is not initialised. -/
def realloc (command : List UInt8) (size : Nat) (fresh : Nat → UInt8) : List UInt8 :=
  command ++ (List.range (size - command.length)).map fresh

def appendStruct (fresh : Nat → UInt8) (command : List UInt8) (action : Nat)
    (act : ActionStruct) : Option (List UInt8) := do
  let commandLen := command.length + act.size
  let command := realloc command commandLen fresh
  let start := commandLen - act.size
  let command ← assign command (shift start [(0, List.replicate act.zeroed 0)])
  assign command (shift start
    ((0, leBytes 2 (htons action)) :: (2, leBytes 2 (htons act.len)) :: act.members))

/-- The return value and the buffer. A code without a case changes nothing. -/
def appendAction (fresh : Nat → UInt8) (command : List UInt8) (action : Int) (param : List Char) :
    Option (Int × List UInt8) :=
  match ActionType.ofCode action with
  | none => some (0, command)
  | some type =>
      match actionStruct type param with
      | none => some (-1, command)
      | some act => (appendStruct fresh command action.toNat act).map (fun command => (0, command))

/-! ### What a switch reads -/

inductive Action where
  | output (port : Nat)
  | setVlanVid (vid : Nat)
  | setVlanPcp (pcp : Nat)
  | stripVlan
  | setDlSrc (addr : List UInt8)
  | setDlDst (addr : List UInt8)
  | setNwSrc (addr : Nat)
  | setNwDst (addr : Nat)
  | setNwTos (tos : Nat)
  | setTpSrc (port : Nat)
  | setTpDst (port : Nat)
  deriving DecidableEq, Repr

def decode (cells : List UInt8) : Option Action :=
  match ActionType.ofCode (beValue (slice cells 0 2)) with
  | none => none
  | some .output => some (.output (beValue (slice cells 4 2)))
  | some .setVlanVid => some (.setVlanVid (beValue (slice cells 4 2)))
  | some .setVlanPcp => some (.setVlanPcp (beValue (slice cells 4 1)))
  | some .stripVlan => some .stripVlan
  | some .setDlSrc => some (.setDlSrc (slice cells 4 6))
  | some .setDlDst => some (.setDlDst (slice cells 4 6))
  | some .setNwSrc => some (.setNwSrc (beValue (slice cells 4 4)))
  | some .setNwDst => some (.setNwDst (beValue (slice cells 4 4)))
  | some .setNwTos => some (.setNwTos (beValue (slice cells 4 1)))
  | some .setTpSrc => some (.setTpSrc (beValue (slice cells 4 2)))
  | some .setTpDst => some (.setTpDst (beValue (slice cells 4 2)))

/-- Actions announce their size in bytes 2 and 3. -/
def actionLayout : Layout UInt8 where
  header := 4
  size cells := beValue (slice cells 2 2)
  positive := Nat.succ_pos 3
  size_append _ rest long := congrArg beValue (slice_append_left rest long)

/-- Walking the buffer by the announced lengths visits these actions and ends where it ends. -/
def Visits (command : List UInt8) (actions : List Action) : Prop :=
  ∃ frames, actionLayout.cut command.length command = (frames, []) ∧
    frames.map decode = actions.map some

def hexNumber (s : List Char) : Nat := (digits 16 0 s).1

def AllHex (s : List Char) : Prop := ∀ c ∈ s, isHexChar c

instance (s : List Char) : Decidable (AllHex s) := inferInstanceAs (Decidable (∀ c ∈ s, _))

/-- What a code and a string ask for, if they ask for anything: a VLAN below 0xFFF, a priority up
to 7, a MAC address of 12 and an IPv4 address of 8 hexadecimal digits. -/
def meaning (type : ActionType) (param : List Char) : Option Action :=
  match type with
  | .output => some (.output (unsigned 16 (strtol10 param)))
  | .setVlanVid =>
      if 0 ≤ strtol10 param ∧ strtol10 param < 0xFFF then some (.setVlanVid (strtol10 param).toNat)
      else none
  | .setVlanPcp =>
      if 0 ≤ strtol16 param ∧ strtol16 param ≤ 7 then some (.setVlanPcp (strtol16 param).toNat)
      else none
  | .stripVlan => some .stripVlan
  | .setDlSrc =>
      if param.length = 12 ∧ AllHex param then some (.setDlSrc (beBytes 6 (hexNumber param)))
      else none
  | .setDlDst =>
      if param.length = 12 ∧ AllHex param then some (.setDlDst (beBytes 6 (hexNumber param)))
      else none
  | .setNwSrc =>
      if param.length = 8 ∧ AllHex param then some (.setNwSrc (hexNumber param)) else none
  | .setNwDst =>
      if param.length = 8 ∧ AllHex param then some (.setNwDst (hexNumber param)) else none
  | .setNwTos => some (.setNwTos (unsigned 8 (strtol16 param)))
  | .setTpSrc => some (.setTpSrc (unsigned 16 (strtol16 param)))
  | .setTpDst => some (.setTpDst (unsigned 16 (strtol16 param)))

/-! ### Hexadecimal digits -/

theorem isHex_iff (s : List Char) : isHex s s.length = true ↔ AllHex s := by
  induction s with
  | nil => simp [isHex, AllHex]
  | cons c s ih =>
    rw [List.length_cons, isHex, AllHex, List.forall_mem_cons]
    by_cases hex : isHexChar c
    · rw [if_pos hex, ih]
      exact ⟨fun rest => ⟨hex, rest⟩, fun both => both.2⟩
    · rw [if_neg hex]
      exact iff_of_false (by decide) fun both => hex both.1

theorem hexDigit_of_isHexChar {c : Char} (hex : isHexChar c) :
    hexDigit c = some (hexValue c) ∧ hexValue c < 16 := by
  have zero : '0'.toNat = 48 := rfl
  have nine : '9'.toNat = 57 := rfl
  have upperA : 'A'.toNat = 65 := rfl
  have upperF : 'F'.toNat = 70 := rfl
  have lowerA : 'a'.toNat = 97 := rfl
  have lowerF : 'f'.toNat = 102 := rfl
  simp only [isHexChar, Char.le_def, UInt32.le_iff_toNat_le, Char.toNat_val,
    decide_eq_true_eq] at hex
  simp only [hexDigit, hexValue, Char.le_def, UInt32.le_iff_toNat_le, Char.toNat_val]
  rcases hex with upper | lower | digit
  · rw [if_neg (by omega), if_neg (by omega), if_pos upper, if_pos upper, Nat.add_comm]
    exact ⟨rfl, by omega⟩
  · rw [if_neg (by omega), if_pos lower, if_neg (by omega), if_pos lower, Nat.add_comm]
    exact ⟨rfl, by omega⟩
  · rw [if_pos digit, if_neg (by omega), if_neg (by omega), if_pos digit]
    exact ⟨rfl, by omega⟩

theorem digits_cons {acc : Nat} {c : Char} {rest : List Char} (hex : isHexChar c) :
    digits 16 acc (c :: rest) = digits 16 (acc * 16 + hexValue c) rest := by
  obtain ⟨digit, small⟩ := hexDigit_of_isHexChar hex
  rw [digits, digit]
  exact if_pos small

theorem readHex_toNat {c d : Char} (rest : List Char) (first : isHexChar c) (second : isHexChar d) :
    (readHex (c :: d :: rest)).toNat = hexValue c * 16 + hexValue d := by
  have high := (hexDigit_of_isHexChar first).2
  have low := (hexDigit_of_isHexChar second).2
  rw [readHex, UInt8.toNat_ofNat']
  simp only [readHexLoop, List.headD_cons, List.tail_cons]
  omega

theorem digits_octets {n acc : Nat} {s : List Char} (length : s.length = 2 * n) (hex : AllHex s) :
    (digits 16 acc s).1 = ((List.range n).map (fun i => readHex (s.drop (2 * i)))).foldl
      (fun value byte => value * 256 + byte.toNat) acc := by
  induction n generalizing s acc with
  | zero =>
    rw [List.eq_nil_of_length_eq_zero length]
    rfl
  | succ n ih =>
    obtain ⟨c, d, rest, rfl⟩ : ∃ c d rest, s = c :: d :: rest := by
      match s, length with
      | c :: d :: rest, _ => exact ⟨c, d, rest, rfl⟩
    rw [AllHex, List.forall_mem_cons, List.forall_mem_cons] at hex
    have rest' : rest.length = 2 * n := by
      simp only [List.length_cons] at length
      omega
    have shifted : (fun i => readHex ((c :: d :: rest).drop (2 * i))) ∘ Nat.succ =
        fun i => readHex (rest.drop (2 * i)) := by
      funext i
      rfl
    rw [digits_cons hex.1, digits_cons hex.2.1, ih rest' hex.2.2, List.range_succ_eq_map,
      List.map_cons, List.map_map, shifted, List.foldl_cons]
    congr 1
    rw [Nat.mul_zero, List.drop_zero, readHex_toNat rest hex.1 hex.2.1]
    omega

theorem octets_eq {n : Nat} {s : List Char} (length : s.length = 2 * n) (hex : AllHex s) :
    (List.range n).map (fun i => readHex (s.drop (2 * i))) = beBytes n (hexNumber s) := by
  have octets := beBytes_beValue ((List.range n).map (fun i => readHex (s.drop (2 * i))))
  rw [beValue_eq_foldl, ← digits_octets length hex, List.length_map, List.length_range] at octets
  exact octets.symm

theorem hexNumber_lt {n : Nat} {s : List Char} (length : s.length = 2 * n) (hex : AllHex s) :
    hexNumber s < 256 ^ n := by
  have bound := leValue_lt ((List.range n).map (fun i => readHex (s.drop (2 * i)))).reverse
  rw [List.length_reverse, List.length_map, List.length_range] at bound
  rwa [hexNumber, digits_octets length hex, ← beValue_eq_foldl]

theorem not_space {c : Char} (hex : isHexChar c) : isSpace c = false := by
  have zero : '0'.toNat = 48 := rfl
  have upperA : 'A'.toNat = 65 := rfl
  have lowerA : 'a'.toNat = 97 := rfl
  have blank : ' '.toNat = 32 := rfl
  have last : '\r'.toNat = 13 := rfl
  simp only [isHexChar, Char.le_def, UInt32.le_iff_toNat_le, Char.toNat_val,
    decide_eq_true_eq] at hex
  simp only [isSpace, Char.le_def, UInt32.le_iff_toNat_le, Char.toNat_val, decide_eq_false_iff_not,
    ← Char.toNat_inj]
  omega

theorem ne_of_isHexChar {c : Char} (hex : isHexChar c) (other : Char)
    (not : isHexChar other = false) : c ≠ other := by
  rintro rfl
  exact Bool.false_ne_true (not.symm.trans hex)

/-- Digits alone are read as they are: no blank, no sign and no `0x`. -/
theorem strtol16_hex {s : List Char} (length : s.length = 8) (hex : AllHex s) :
    strtol16 s = hexNumber s := by
  have bound : hexNumber s < 256 ^ 4 := hexNumber_lt length hex
  obtain ⟨c, d, rest, rfl⟩ : ∃ c d rest, s = c :: d :: rest := by
    match s, length with
    | c :: d :: rest, _ => exact ⟨c, d, rest, rfl⟩
  rw [AllHex, List.forall_mem_cons, List.forall_mem_cons] at hex
  have minus := ne_of_isHexChar hex.1 '-' (by decide)
  have plus := ne_of_isHexChar hex.1 '+' (by decide)
  have lower := ne_of_isHexChar hex.2.1 'x' (by decide)
  have upper := ne_of_isHexChar hex.2.1 'X' (by decide)
  have dropped : (c :: d :: rest).dropWhile isSpace = c :: d :: rest := by
    rw [List.dropWhile_cons, if_neg (by simp [not_space hex.1])]
  simp only [strtol16, dropped]
  split
  · rename_i same
    exact absurd (List.cons.inj same).1 minus
  · rename_i same
    exact absurd (List.cons.inj same).1 plus
  · split
    · rename_i same
      exact absurd (List.cons.inj (List.cons.inj same).2).1 lower
    · rename_i same
      exact absurd (List.cons.inj (List.cons.inj same).2).1 upper
    · change max (-2 ^ 63) (min (hexNumber (c :: d :: rest) : Int) (2 ^ 63 - 1)) = _
      omega

/-! ### One action -/

structure Fits (act : ActionStruct) : Prop where
  size : act.size < 256 ^ 2
  header : 4 ≤ act.size
  len : act.len = act.size
  zeroed : act.zeroed ≤ act.size
  inside : ∀ p ∈ act.members.map place, 4 ≤ p.1 ∧ p.1 + p.2 ≤ act.size
  apart : (act.members.map place).Pairwise Apart

theorem fits_of_places {size zeroed len : Nat} {members : List (Nat × List UInt8)}
    (places : List (Nat × Nat)) (same : members.map place = places)
    (check : size < 256 ^ 2 ∧ 4 ≤ size ∧ len = size ∧ zeroed ≤ size ∧
      (∀ p ∈ places, 4 ≤ p.1 ∧ p.1 + p.2 ≤ size) ∧ places.Pairwise Apart) :
    Fits ⟨size, zeroed, len, members⟩ := by
  subst same
  exact ⟨check.1, check.2.1, check.2.2.1, check.2.2.2.1, check.2.2.2.2.1, check.2.2.2.2.2⟩

structure Holds (cells : List UInt8) (code : Nat) (act : ActionStruct) : Prop where
  length : cells.length = act.size
  type : beValue (slice cells 0 2) = code
  len : beValue (slice cells 2 2) = act.len
  members : ∀ {i width : Nat} {field : List UInt8}, (i, field) ∈ act.members →
    field.length = width → slice cells i width = field

theorem appendStruct_fits {act : ActionStruct} {code : Nat} (fresh : Nat → UInt8)
    (command : List UInt8) (fits : Fits act) (small : code < 256 ^ 2) :
    ∃ cells, appendStruct fresh command code act = some (command ++ cells) ∧
      Holds cells code act := by
  let header := [(0, leBytes 2 (htons code)), (2, leBytes 2 (htons act.len))]
  have garbage : ((List.range act.size).map fresh).length = act.size := by
    rw [List.length_map, List.length_range]
  obtain ⟨cleared, zeroed, size⟩ := assign_inside ((List.range act.size).map fresh)
    [(0, List.replicate act.zeroed 0)] (by
      simp [place, fits.zeroed])
  rw [garbage] at size
  obtain ⟨cells, filled, length⟩ := assign_inside cleared (header ++ act.members) (by
      have header' := fits.header
      rw [List.map_append, List.forall_mem_append, size]
      exact ⟨by simp [header, place]; omega, fun p mem => (fits.inside p mem).2⟩)
  have apart : ((header ++ act.members).map place).Pairwise Apart := by
    rw [List.map_append, List.pairwise_append]
    refine ⟨by simp [header, place, Apart], fits.apart, ?_⟩
    intro first mem second mem'
    have front : first.1 + first.2 ≤ 4 := by
      simp only [header, place, List.map_cons, List.map_nil, leBytes_length, List.mem_cons,
        List.not_mem_nil, or_false] at mem
      rcases mem with rfl | rfl <;> decide
    exact Or.inl (front.trans (fits.inside second mem').1)
  have read : ∀ {i width : Nat} {field : List UInt8}, (i, field) ∈ header ++ act.members →
      field.length = width → slice cells i width = field := slice_assign filled apart
  have number : ∀ {i x : Nat}, (i, leBytes 2 (htons x)) ∈ header → x < 256 ^ 2 →
      beValue (slice cells i 2) = x := by
    intro i x mem fitting
    rw [read (List.mem_append_left _ mem) (leBytes_length 2 _), htons, leBytes_swapBytes,
      beValue_beBytes_of_lt fitting]
  refine ⟨cells, ?_, length.trans size, number (by simp [header]) small,
    number (by simp [header]) (fits.len ▸ fits.size), fun mem => read (List.mem_append_right _ mem)⟩
  rw [appendStruct]
  simp only [realloc, Nat.add_sub_cancel_left, Nat.add_sub_cancel]
  rw [assign_shift, zeroed]
  change assign (command ++ cleared) (shift command.length (header ++ act.members)) = _
  rw [assign_shift, filled]
  rfl

theorem Holds.frame {cells : List UInt8} {code : Nat} {act : ActionStruct}
    (holds : Holds cells code act) (fits : Fits act) : actionLayout.Frame cells :=
  ⟨holds.length.symm ▸ fits.header, holds.len.trans (fits.len.trans holds.length.symm)⟩

theorem decode_type {cells : List UInt8} {type : ActionType} {act : ActionStruct}
    (holds : Holds cells type.code act) :
    ActionType.ofCode (beValue (slice cells 0 2)) = some type := by
  rw [holds.type, type.ofCode_code]

theorem Holds.number {cells : List UInt8} {code : Nat} {act : ActionStruct}
    (holds : Holds cells code act) (width x : Nat) (mem : (4, beBytes width x) ∈ act.members)
    (small : x < 256 ^ width) : beValue (slice cells 4 width) = x := by
  rw [holds.members mem (beBytes_length width x), beValue_beBytes_of_lt small]

theorem Holds.octets {cells : List UInt8} {code n : Nat} {act : ActionStruct}
    (holds : Holds cells code act) (octets : Nat → UInt8)
    (mem : act.members = (List.range n).map (fun i => (4 + i, [octets i]))) :
    slice cells 4 n = (List.range n).map octets := by
  have whole := slice_cells cells ((List.range n).map octets) 4 (by
    intro k cell here
    obtain ⟨inside, rfl⟩ := List.getElem?_eq_some_iff.mp here
    rw [List.length_map, List.length_range] at inside
    rw [List.getElem_map, List.getElem_range]
    have among : (4 + k, [octets k]) ∈ act.members := by
      rw [mem]
      exact List.mem_map_of_mem (List.mem_range.mpr inside)
    exact holds.members among rfl)
  rwa [List.length_map, List.length_range] at whole

theorem unsigned_lt (bits : Nat) (x : Int) : unsigned bits x < 2 ^ bits := by
  have positive : (0 : Int) < 2 ^ bits := Int.pow_pos (by decide)
  have bound := Int.emod_lt_of_pos x positive
  rw [unsigned, Int.toNat_lt (Int.emod_nonneg x positive.ne')]
  exact_mod_cast bound

theorem unsigned_of_small {bits : Nat} {x : Int} (lower : 0 ≤ x) (upper : x < 2 ^ bits) :
    unsigned bits x = x.toNat := by
  rw [unsigned, Int.emod_eq_of_lt lower upper]

theorem hex_check (param : List Char) (n : Nat) :
    (param.length ≠ n ∨ isHex param n = false) ↔ ¬ (param.length = n ∧ AllHex param) := by
  by_cases length : param.length = n
  · subst length
    rw [← isHex_iff]
    simp
  · simp [length]

/-- Either a parameter is refused and has no meaning, or its struct fits and reads back as what it
asks for. -/
def Understood (type : ActionType) (param : List Char) : Prop :=
  (actionStruct type param = none ∧ meaning type param = none) ∨
    ∃ act action, actionStruct type param = some act ∧ meaning type param = some action ∧ Fits act ∧
      ∀ cells, Holds cells type.code act → decode cells = some action

theorem understood_vid (param : List Char) : Understood .setVlanVid param := by
  by_cases valid : 0 ≤ strtol10 param ∧ strtol10 param < 0xFFF
  · refine Or.inr ⟨_, _, if_neg (by omega), if_pos valid,
      fits_of_places [(4, 2)] rfl (by decide), fun cells holds => ?_⟩
    have number := holds.number 2 (unsigned 16 (strtol10 param))
      (by simp [htons, leBytes_swapBytes]) (unsigned_lt 16 _)
    simp only [decode, decode_type holds, number]
    rw [unsigned_of_small valid.1 (by omega)]
  · exact Or.inl ⟨if_pos (by omega), if_neg valid⟩

theorem understood_pcp (param : List Char) : Understood .setVlanPcp param := by
  by_cases valid : 0 ≤ strtol16 param ∧ strtol16 param ≤ 7
  · refine Or.inr ⟨_, _, if_neg (by omega), if_pos valid,
      fits_of_places [(4, 1)] rfl (by decide), fun cells holds => ?_⟩
    have number := holds.number 1 (unsigned 8 (strtol16 param))
      List.mem_cons_self (unsigned_lt 8 _)
    simp only [decode, decode_type holds, number]
    rw [unsigned_of_small valid.1 (by omega)]
  · exact Or.inl ⟨if_pos (by omega), if_neg valid⟩

theorem understood_output (param : List Char) : Understood .output param := by
  refine Or.inr ⟨_, _, rfl, rfl, fits_of_places [(6, 2), (4, 2)] rfl (by decide),
    fun cells holds => ?_⟩
  have number := holds.number 2 (unsigned 16 (strtol10 param))
    (by simp [htons, leBytes_swapBytes]) (unsigned_lt 16 _)
  simp only [decode, decode_type holds, number]

theorem understood_strip (param : List Char) : Understood .stripVlan param := by
  refine Or.inr ⟨_, _, rfl, rfl, fits_of_places [] rfl (by decide), fun cells holds => ?_⟩
  simp only [decode, decode_type holds]

theorem understood_tos (param : List Char) : Understood .setNwTos param := by
  refine Or.inr ⟨_, _, rfl, rfl, fits_of_places [(4, 1)] rfl (by decide), fun cells holds => ?_⟩
  have number := holds.number 1 (unsigned 8 (strtol16 param))
    List.mem_cons_self (unsigned_lt 8 _)
  simp only [decode, decode_type holds, number]

theorem understood_port {type : ActionType} (param : List Char)
    (either : type = .setTpSrc ∨ type = .setTpDst) : Understood type param := by
  rcases either with rfl | rfl <;>
  · refine Or.inr ⟨_, _, rfl, rfl, fits_of_places [(4, 2)] rfl (by decide), fun cells holds => ?_⟩
    have number := holds.number 2 (unsigned 16 (strtol16 param))
      (by simp [htons, leBytes_swapBytes]) (unsigned_lt 16 _)
    simp only [decode, decode_type holds, number]

theorem understood_dl {type : ActionType} (param : List Char)
    (either : type = .setDlSrc ∨ type = .setDlDst) : Understood type param := by
  by_cases valid : param.length = 12 ∧ AllHex param
  · have accepted : ¬ (param.length ≠ 12 ∨ isHex param 12 = false) :=
      (hex_check param 12).not_left.mpr valid
    rcases either with rfl | rfl <;>
    · refine Or.inr ⟨_, _, if_neg accepted, if_pos valid,
        fits_of_places [(4, 1), (5, 1), (6, 1), (7, 1), (8, 1), (9, 1)] rfl (by decide),
        fun cells holds => ?_⟩
      have address := holds.octets (fun i => readHex (param.drop (2 * i))) rfl
      rw [octets_eq valid.1 valid.2] at address
      simp only [decode, decode_type holds, address]
  · rcases either with rfl | rfl <;>
      exact Or.inl ⟨if_pos ((hex_check param 12).mpr valid), if_neg valid⟩

theorem understood_nw {type : ActionType} (param : List Char)
    (either : type = .setNwSrc ∨ type = .setNwDst) : Understood type param := by
  by_cases valid : param.length = 8 ∧ AllHex param
  · have accepted : ¬ (param.length ≠ 8 ∨ isHex param 8 = false) :=
      (hex_check param 8).not_left.mpr valid
    have small := hexNumber_lt (n := 4) valid.1 valid.2
    have whole : unsigned 32 (strtol16 param) = hexNumber param := by
      rw [strtol16_hex valid.1 valid.2, unsigned_of_small (by omega) (by omega), Int.toNat_natCast]
    rcases either with rfl | rfl <;>
    · refine Or.inr ⟨_, _, if_neg accepted, if_pos valid, fits_of_places [(4, 4)] rfl (by decide),
        fun cells holds => ?_⟩
      have number := holds.number 4 (hexNumber param)
        (by simp [htonl, leBytes_swapBytes, whole]) small
      simp only [decode, decode_type holds, number]
  · rcases either with rfl | rfl <;>
      exact Or.inl ⟨if_pos ((hex_check param 8).mpr valid), if_neg valid⟩

theorem understood (type : ActionType) (param : List Char) : Understood type param := by
  cases type with
  | output => exact understood_output param
  | setVlanVid => exact understood_vid param
  | setVlanPcp => exact understood_pcp param
  | stripVlan => exact understood_strip param
  | setDlSrc => exact understood_dl param (Or.inl rfl)
  | setDlDst => exact understood_dl param (Or.inr rfl)
  | setNwSrc => exact understood_nw param (Or.inl rfl)
  | setNwDst => exact understood_nw param (Or.inr rfl)
  | setNwTos => exact understood_tos param
  | setTpSrc => exact understood_port param (Or.inl rfl)
  | setTpDst => exact understood_port param (Or.inr rfl)

/-! ### Sequences of calls -/

/-- A call with one of the codes 0 to 10, a string and what `realloc` brings in. -/
structure Call where
  type : ActionType
  param : List Char
  fresh : Nat → UInt8

def Call.meaning (call : Call) : Option Action := AppendAction.meaning call.type call.param

/-- What a call is to return: 0 exactly if its string has a meaning. -/
def Call.ret (call : Call) : Int := if call.meaning.isSome then 0 else -1

def perform (command : List UInt8) (call : Call) : Option (Int × List UInt8) :=
  appendAction call.fresh command call.type.code call.param

def performAll (command : List UInt8) : List Call → Option (List Int × List UInt8)
  | [] => some ([], command)
  | call :: calls => do
      let (ret, command) ← perform command call
      let (returns, command) ← performAll command calls
      some (ret :: returns, command)

def accepted (calls : List Call) (returns : List Int) : List Call :=
  ((calls.zip returns).filter (fun (_, ret) => ret = 0)).map Prod.fst

/-- A call without a meaning is refused and changes nothing, another one appends its action. -/
def Appends (command : List UInt8) (call : Call) (ret : Int) (after : List UInt8) : Prop :=
  (ret = -1 ∧ after = command ∧ call.meaning = none) ∨
    (ret = 0 ∧ ∃ cells action, after = command ++ cells ∧ actionLayout.Frame cells ∧
      decode cells = some action ∧ call.meaning = some action)

theorem perform_appends (command : List UInt8) (call : Call) :
    ∃ ret after, perform command call = some (ret, after) ∧ Appends command call ret after := by
  rcases understood call.type call.param with
    ⟨refused, empty⟩ | ⟨act, action, made, means, fits, reads⟩
  · refine ⟨-1, command, ?_, Or.inl ⟨rfl, rfl, empty⟩⟩
    simp only [perform, appendAction, call.type.ofCode_code, refused]
  · have small : call.type.code < 256 ^ 2 := by cases call.type <;> decide
    obtain ⟨cells, appended, holds⟩ := appendStruct_fits call.fresh command fits small
    refine ⟨0, command ++ cells, ?_,
      Or.inr ⟨rfl, cells, action, rfl, holds.frame fits, reads cells holds, means⟩⟩
    simp only [perform, appendAction, call.type.ofCode_code, made, Int.toNat_natCast, appended,
      Option.map_some]

theorem performAll_cons {command next : List UInt8} {call : Call} {ret : Int}
    (performed : perform command call = some (ret, next)) (calls : List Call) :
    performAll command (call :: calls) =
      (performAll next calls).map (fun (returns, command) => (ret :: returns, command)) := by
  rw [performAll, performed]
  change (performAll next calls).bind _ = _
  cases performAll next calls <;> rfl

theorem accepted_refused (call : Call) (calls : List Call) (returns : List Int) :
    accepted (call :: calls) (-1 :: returns) = accepted calls returns := rfl

theorem accepted_zero (call : Call) (calls : List Call) (returns : List Int) :
    accepted (call :: calls) (0 :: returns) = call :: accepted calls returns := rfl

theorem performAll_frames (calls : List Call) (frames : List (List UInt8))
    (framed : ∀ frame ∈ frames, actionLayout.Frame frame) :
    ∃ returns more, ∃ actions : List Action,
      performAll frames.flatten calls = some (returns, (frames ++ more).flatten) ∧
      returns = calls.map Call.ret ∧ (∀ frame ∈ frames ++ more, actionLayout.Frame frame) ∧
      more.map decode = actions.map some ∧
      (accepted calls returns).map Call.meaning = actions.map some := by
  -- the induction is on the calls, with the frames in the buffer before them
  induction calls generalizing frames with
  | nil => exact ⟨[], [], [], by rw [List.append_nil]; rfl, rfl, by rwa [List.append_nil], rfl, rfl⟩
  | cons call calls ih =>
    obtain ⟨ret, after, performed, refused | ⟨rfl, cells, action, grown, frame, decoded, means⟩⟩ :=
      perform_appends frames.flatten call
    · obtain ⟨rfl, rfl, empty⟩ := refused
      obtain ⟨returns, more, actions, rest, returned, all, visits, meant⟩ := ih frames framed
      refine ⟨-1 :: returns, more, actions, ?_, ?_, all, visits, ?_⟩
      · rw [performAll_cons performed, rest]
        rfl
      · rw [List.map_cons, returned, Call.ret, empty]
        rfl
      · rw [accepted_refused, meant]
    · have longer : ∀ other ∈ frames ++ [cells], actionLayout.Frame other := by
        rw [List.forall_mem_append, List.forall_mem_singleton]
        exact ⟨framed, frame⟩
      have joined : (frames ++ [cells]).flatten = after := by
        rw [List.flatten_append, List.flatten_singleton, grown]
      obtain ⟨returns, more, actions, rest, returned, all, visits, meant⟩ :=
        ih (frames ++ [cells]) longer
      rw [List.append_assoc, List.singleton_append] at rest all
      refine ⟨0 :: returns, cells :: more, action :: actions, ?_, ?_, all, ?_, ?_⟩
      · rw [performAll_cons performed, ← joined, rest]
        rfl
      · rw [List.map_cons, returned, Call.ret, means]
        rfl
      · rw [List.map_cons, List.map_cons, decoded, visits]
      · rw [accepted_zero, List.map_cons, List.map_cons, means, meant]

/-- After any calls the buffer is a list of the accepted actions, those of the calls whose strings
have a meaning, and the next call is refused without a trace or appends exactly one more. -/
theorem append_action_well_formed (calls : List Call) :
    ∃ returns command actions, performAll [] calls = some (returns, command) ∧
      returns = calls.map Call.ret ∧ Visits command actions ∧
      (accepted calls returns).map Call.meaning = actions.map some ∧
      ∀ next, ∃ ret after, perform command next = some (ret, after) ∧
        Appends command next ret after := by
  obtain ⟨returns, frames, actions, performed, returned, framed, visits, meant⟩ :=
    performAll_frames calls [] (by simp)
  rw [List.nil_append] at performed framed
  refine ⟨returns, frames.flatten, actions, performed, returned, ⟨frames, ?_, visits⟩, meant,
    perform_appends frames.flatten⟩
  have walked := actionLayout.cut_frames framed [] (Or.inl (by decide))
    (Layout.length_le_flatten framed)
  rwa [List.append_nil] at walked

example : decode [0, 4, 0, 16, 1, 35, 69, 103, 137, 171, 255, 255, 255, 255, 255, 255] =
    some (.setDlSrc [1, 35, 69, 103, 137, 171]) := by decide

end Oflops.ActionDelay.AppendAction
