import Oflops.ActionDelay.AppendAction
import Oflops.Harness.ParamTokens

/-! The parameters of `openflow_action_delay` and the interval that `init` computes from them. The
settings are taken as the configuration string gives them, up to its end. -/

namespace Oflops.ActionDelay.Init
open Lib.MachineInt AppendAction Harness.ParamLoop Harness.ParamTokens

def minPktSize : UInt32 := 64
def maxPktSize : UInt32 := 1500

def byteToBits : UInt64 := 8
def secToUsec : UInt64 := 1000000
def mbitsToBits : UInt64 := 1024 * 1024

/-- `command` is the list of actions that the `action` parameter builds. -/
structure Params where
  pktSize : UInt32
  datarate : UInt64
  table : Int
  print : Int
  command : List UInt8
  deriving DecidableEq, Repr

def defaults : Params where
  pktSize := 1500
  datarate := 100
  table := 0
  print := 0
  command := []

/-- Why `init` does not return: `perror_and_exit`, or an access through `NULL`. -/
inductive Stop where
  | exit (message : String)
  | crash
  deriving DecidableEq, Repr

section Set
variable (fresh : Nat → UInt8)

/-- `append_action` with a parameter that may be missing. Only `OFPAT_STRIP_VLAN` does not
read it. -/
def appendParam (command : List UInt8) (code : Int) (param : Option (List Char)) :
    Except Stop (List UInt8) :=
  if param = none ∧ ActionType.ofCode code ≠ some .stripVlan then .error .crash
  else match appendAction fresh command code (param.getD []) with
    | none => .error .crash
    | some (_, command) => .ok command

/-- One action of the list: its code, and its parameter behind a `/`. Others are reported. -/
def addAction (command : List UInt8) (text : List Char) : Except Stop (List UInt8) :=
  let action := text.takeWhile (· ≠ '/')
  let param := if '/' ∈ text then some (text.dropWhile (· ≠ '/')).tail else none
  match action with
  | [] => .ok command
  | c :: _ =>
    if '0' ≤ c ∧ c ≤ '9' then appendParam fresh command ((c.toNat : Int) - '0'.toNat) param
    else if c = 'a' then appendParam fresh command 10 param
    else .ok command

/-- The loop over the actions, which commas separate. It ends at the end of the string, so it does
not see an empty text behind the last comma. -/
def addActions (command : List UInt8) : List (List Char) → Except Stop (List UInt8)
  | [] => .ok command
  | text :: rest =>
    if text = [] ∧ rest = [] then .ok command
    else do
      let command ← addAction fresh command text
      addActions command rest

/-- The chain of comparisons of the parameter's name. Other names are only reported. -/
def set (params : Params) (param value : List Char) : Except Stop Params :=
  if param = "pkt_size".toList then
    let pktSize := UInt32.ofInt (strtol0 value)
    store { params with pktSize } (pktSize < minPktSize ∧ pktSize > maxPktSize)
      (Stop.exit "Invalid packet size value")
  else if param = "data_rate".toList then
    let datarate := UInt64.ofInt (strtol0 value)
    -- unsigned, so never below zero
    store { params with datarate } (datarate < 0 ∨ datarate > 1010)
      (Stop.exit "Invalid data rate param(Values between 1 and 1010)")
  else if param = "action".toList then do
    let command ← addActions fresh params.command (value.splitOn ',')
    .ok { params with command }
  else if param = "table".toList then
    let table := int32 (strtol0 value)
    store { params with table } (table < 0 ∧ table > 2) (Stop.exit "Invalid table number")
  else if param = "print".toList then .ok { params with print := int32 (strtol0 value) }
  else .ok params

def divisor (params : Params) : UInt64 := params.datarate * mbitsToBits

/-- A division by zero does not return. -/
def dataSndInterval (params : Params) : Except Stop UInt64 :=
  if divisor params = 0 then .error .crash
  else .ok (params.pktSize.toUInt64 * byteToBits * secToUsec / divisor params)

def readSettings (config : ConfigString) : Except Stop Params :=
  applyAll (set fresh) defaults (settings (pieces config.text))

def init (config : ConfigString) : Except Stop (Params × UInt64) := do
  let params ← readSettings fresh config
  let interval ← dataSndInterval params
  .ok (params, interval)

end Set

structure InRange (params : Params) : Prop where
  pktSize : minPktSize ≤ params.pktSize ∧ params.pktSize ≤ maxPktSize
  datarate : 1 ≤ params.datarate ∧ params.datarate ≤ 1010
  table : 0 ≤ params.table ∧ params.table ≤ 2
  divisor : divisor params ≠ 0

section Steps
variable {fresh : Nat → UInt8} {params next : Params} {param value : List Char}

theorem store_ok {S ε : Type} {state next : S} {bad : Prop} [Decidable bad] {stop : ε}
    (stored : store state bad stop = .ok next) : ¬ bad ∧ next = state := by
  unfold store at stored
  split_ifs at stored with holds
  exact ⟨holds, (Except.ok.inj stored).symm⟩

theorem set_fields (done : set fresh params param value = .ok next) :
    (next.pktSize = if param = "pkt_size".toList then UInt32.ofInt (strtol0 value)
      else params.pktSize) ∧
    (next.datarate = if param = "data_rate".toList then UInt64.ofInt (strtol0 value)
      else params.datarate) ∧
    (next.table = if param = "table".toList then int32 (strtol0 value) else params.table) ∧
    (params.datarate ≤ 1010 → next.datarate ≤ 1010) := by
  have apart : "pkt_size".toList ≠ "data_rate".toList ∧ "pkt_size".toList ≠ "table".toList ∧
      "data_rate".toList ≠ "table".toList ∧ "action".toList ≠ "table".toList := by decide
  unfold set at done
  dsimp only at done
  split_ifs at done with pktSize datarate action table print
  · obtain ⟨-, rfl⟩ := store_ok done
    rw [pktSize, if_pos rfl, if_neg apart.1, if_neg apart.2.1]
    exact ⟨rfl, rfl, rfl, id⟩
  · obtain ⟨good, rfl⟩ := store_ok done
    rw [if_neg pktSize, datarate, if_pos rfl, if_neg apart.2.2.1]
    exact ⟨rfl, rfl, rfl, fun _ => UInt64.not_lt.mp (not_or.mp good).2⟩
  · rw [if_neg pktSize, if_neg datarate, action, if_neg apart.2.2.2]
    cases built : addActions fresh params.command (value.splitOn ',') with
    | error stop =>
      rw [built] at done
      cases done
    | ok command =>
      rw [built] at done
      cases done
      exact ⟨rfl, rfl, rfl, id⟩
  · obtain ⟨-, rfl⟩ := store_ok done
    rw [if_neg pktSize, if_neg datarate, if_pos table]
    exact ⟨rfl, rfl, rfl, id⟩
  all_goals
    cases done
    rw [if_neg pktSize, if_neg datarate, if_neg table]
    exact ⟨rfl, rfl, rfl, id⟩

end Steps

section Accepted
variable {fresh : Nat → UInt8} {settings : List (List Char × List Char)} {params : Params}
  (accepted : applyAll (set fresh) defaults settings = .ok params)
include accepted

theorem pktSize_accepted : params.pktSize =
    ((lastValue "pkt_size".toList settings).map
      (fun value => UInt32.ofInt (strtol0 value))).getD 1500 := by
  apply applyAll_last Params.pktSize (fun value => UInt32.ofInt (strtol0 value))
    "pkt_size".toList _ accepted
  intro state name value next done
  exact (set_fields done).1

theorem datarate_accepted : params.datarate =
    ((lastValue "data_rate".toList settings).map
      (fun value => UInt64.ofInt (strtol0 value))).getD 100 := by
  apply applyAll_last Params.datarate (fun value => UInt64.ofInt (strtol0 value))
    "data_rate".toList _ accepted
  intro state name value next done
  exact (set_fields done).2.1

theorem table_accepted : params.table =
    ((lastValue "table".toList settings).map (fun value => int32 (strtol0 value))).getD 0 := by
  apply applyAll_last Params.table (fun value => int32 (strtol0 value)) "table".toList _ accepted
  intro state name value next done
  exact (set_fields done).2.2.1

theorem datarate_le : params.datarate ≤ 1010 :=
  applyAll_invariant (fun params => params.datarate ≤ 1010)
    (fun start done => (set_fields done).2.2.2 start)
    (by decide) accepted

end Accepted

/-- The last value given for each of the three parameters is one that its check was meant to let
through. -/
structure LastInRange (settings : List (List Char × List Char)) : Prop where
  pktSize : ∀ value ∈ lastValue "pkt_size".toList settings,
    minPktSize ≤ UInt32.ofInt (strtol0 value) ∧ UInt32.ofInt (strtol0 value) ≤ maxPktSize
  datarate : ∀ value ∈ lastValue "data_rate".toList settings, strtol0 value ≠ 0
  table : ∀ value ∈ lastValue "table".toList settings,
    0 ≤ int32 (strtol0 value) ∧ int32 (strtol0 value) ≤ 2

theorem forall_getD {α β : Type} {P : β → Prop} (given : Option α) (read : α → β) (default : β)
    (good : P default) : P ((given.map read).getD default) ↔ ∀ value ∈ given, P (read value) := by
  cases given with
  | none => simp [good]
  | some value => simp

theorem ofInt_eq_zero_iff {x : Int} (low : -2 ^ 63 ≤ x) (high : x < 2 ^ 63) :
    UInt64.ofInt x = 0 ↔ x = 0 := by
  rw [← UInt64.toNat_inj]
  simp only [UInt64.ofInt, UInt64.toNat_ofNat', UInt64.toNat_zero]
  omega

theorem one_le_iff (rate : UInt64) : 1 ≤ rate ↔ rate ≠ 0 := by
  rw [UInt64.le_iff_toNat_le, ne_eq, ← UInt64.toNat_inj]
  exact Nat.one_le_iff_ne_zero

theorem divisor_ne_zero {params : Params} (some' : params.datarate ≠ 0)
    (low : params.datarate ≤ 1010) : divisor params ≠ 0 := by
  rw [ne_eq, ← UInt64.toNat_inj] at some'
  rw [UInt64.le_iff_toNat_le] at low
  rw [divisor, ne_eq, ← UInt64.toNat_inj, UInt64.toNat_mul]
  have rate : params.datarate.toNat ≤ 1010 := low
  have positive : params.datarate.toNat ≠ 0 := some'
  have factor : mbitsToBits.toNat = 1048576 := rfl
  rw [factor, UInt64.toNat_zero]
  omega

/-- The checks let everything through but a rate above 1010. -/
theorem inRange_iff {fresh : Nat → UInt8} {settings : List (List Char × List Char)}
    {params : Params} (accepted : applyAll (set fresh) defaults settings = .ok params) :
    InRange params ↔ LastInRange settings := by
  have size := forall_getD (P := fun size => minPktSize ≤ size ∧ size ≤ maxPktSize)
    (lastValue "pkt_size".toList settings) (fun value => UInt32.ofInt (strtol0 value))
    1500 (by decide)
  have rate := forall_getD (P := fun rate => rate ≠ 0) (lastValue "data_rate".toList settings)
    (fun value => UInt64.ofInt (strtol0 value)) 100 (by decide)
  have table := forall_getD (P := fun table => 0 ≤ table ∧ table ≤ 2)
    (lastValue "table".toList settings)
    (fun value => int32 (strtol0 value)) 0 (by decide)
  have zero : ∀ value, UInt64.ofInt (strtol0 value) ≠ 0 ↔ strtol0 value ≠ 0 := fun value =>
    not_congr (ofInt_eq_zero_iff (strtol0_range value).1 (strtol0_range value).2)
  rw [← pktSize_accepted accepted] at size
  rw [← datarate_accepted accepted] at rate
  rw [← table_accepted accepted] at table
  simp only [zero] at rate
  constructor
  · intro range
    exact ⟨size.mp range.pktSize, rate.mp ((one_le_iff _).mp range.datarate.1),
      table.mp range.table⟩
  · intro last
    have positive := rate.mpr last.datarate
    have low := datarate_le accepted
    exact ⟨size.mpr last.pktSize, ⟨(one_le_iff _).mpr positive, low⟩, table.mpr last.table,
      divisor_ne_zero positive low⟩

/-- Whenever the parameters are read to the end, they are in range exactly if the values that
count are: of the checks, only the upper bound of the rate works. -/
theorem accepted_in_range_iff (fresh : Nat → UInt8) (blanks : Nat) (tokens : List Token)
    {params : Params} (accepted : readSettings fresh (tokenString blanks tokens) = .ok params) :
    InRange params ↔ LastInRange (tokens.map Token.pair) := by
  rw [readSettings, settings_tokenString] at accepted
  exact inRange_iff accepted

theorem accepted_in_range_iff_size :
    let size : Token := ⟨"pkt_size".toList, "100".toList, by decide, by decide, by decide⟩
    readSettings (fun _ => 0) (tokenString 1 [size]) = .ok { defaults with pktSize := 100 } ∧
      InRange { defaults with pktSize := 100 } := by
  intro size
  have accepted : readSettings (fun _ => 0) (tokenString 1 [size]) =
      .ok { defaults with pktSize := 100 } := by decide +kernel
  refine ⟨accepted, (accepted_in_range_iff (fun _ => 0) 1 [size] accepted).mpr ⟨?_, ?_, ?_⟩⟩
  · intro value last
    have same : lastValue "pkt_size".toList ([size].map Token.pair) = some "100".toList := by
      decide +kernel
    cases same.symm.trans last
    decide +kernel
  · intro value last
    have none' : lastValue "data_rate".toList ([size].map Token.pair) = none := by decide +kernel
    cases none'.symm.trans last
  · intro value last
    have none' : lastValue "table".toList ([size].map Token.pair) = none := by decide +kernel
    cases none'.symm.trans last

/-- A packet size of 0 and a table 7 are accepted; with a rate of 0, `init` divides by zero. -/
theorem bad_values_accepted :
    let size : Token := ⟨"pkt_size".toList, "0".toList, by decide, by decide, by decide⟩
    let table : Token := ⟨"table".toList, "7".toList, by decide, by decide, by decide⟩
    let rate : Token := ⟨"data_rate".toList, "0".toList, by decide, by decide, by decide⟩
    init (fun _ => 0) (tokenString 1 [size, table]) = .ok ({ defaults with
      pktSize := 0, table := 7 }, 0) ∧
      readSettings (fun _ => 0) (tokenString 1 [rate]) = .ok { defaults with datarate := 0 } ∧
      init (fun _ => 0) (tokenString 1 [rate]) = .error .crash := by
  decide +kernel

end Oflops.ActionDelay.Init
