import Oflops.Harness.ParamLoop
import Oflops.Lib.MachineInt

/-! The parameters of `openflow_add_flow`: what `init` accepts, and which configuration strings it
gets through. -/

namespace Oflops.AddFlow.Init
open Lib.MachineInt Harness.ParamLoop

def minPktSize : UInt32 := 64
def maxPktSize : UInt32 := 1500

/-- `OFPCML_NO_BUFFER` and `OFPTT_MAX` of OpenFlow 1.3. -/
def ofpcmlNoBuffer : UInt16 := 0xffff
def ofpttMax : Int := 0xfe

structure Params where
  pktSize : UInt32
  backgroundRate : UInt64
  probeSndRate : UInt64
  flows : Int
  print : List Char
  testDuration : Int
  reactive : Bool
  maxBufSize : UInt16
  tableId : Int
  deriving DecidableEq, Repr

def defaults : Params where
  pktSize := 1500
  backgroundRate := 100
  probeSndRate := 0
  flows := 100
  print := []
  testDuration := 60
  reactive := false
  maxBufSize := ofpcmlNoBuffer
  tableId := 0

/-- The buffer holds at least the headers of a probe; 0 stands for the whole packet. -/
def bufSize (given : UInt16) : UInt16 :=
  let maxBufSize := if given = 0 then ofpcmlNoBuffer else given
  if maxBufSize < 58 then 58 else maxBufSize

def set (params : Params) (param value : List Char) : Except String Params :=
  if param = "pkt_size".toList then
    let pktSize := UInt32.ofInt (strtol0 value)
    store { params with pktSize } (pktSize < minPktSize ∧ pktSize > maxPktSize)
      "Invalid packet size value"
  else if param = "background_rate".toList then
    let backgroundRate := UInt64.ofInt (strtol0 value)
    store { params with backgroundRate } (backgroundRate ≤ 0 ∨ backgroundRate ≥ 10010)
      "Invalid data rate param(Value between 1 and 10010)"
  else if param = "probe_snd_rate".toList then
    let probeSndRate := UInt64.ofInt (strtol0 value)
    store { params with probeSndRate } (probeSndRate ≤ 0)
      "Invalid probe rate param(Value must be larger than 0)"
  else if param = "flows".toList then
    let flows := int32 (strtol0 value)
    store { params with flows } (flows ≤ 0) "Invalid flow number"
  else if param = "print".toList then .ok { params with print := value }
  else if param = "duration".toList then
    let testDuration := int32 (strtol0 value)
    store { params with testDuration } (testDuration ≤ 0)
      "Invalid duration, value must be larger than 0"
  else if param = "reactive".toList then .ok { params with reactive := strtol0 value ≠ 0 }
  else if param = "max_buf_size".toList then
    .ok { params with maxBufSize := bufSize (UInt16.ofInt (strtol0 value)) }
  else if param = "table".toList then
    let tableId := int32 (strtol0 value)
    store { params with tableId } (tableId < 0 ∨ tableId > ofpttMax)
      "Invalid table id must be less than OFPTT_MAX"
  else .ok params

/-- What `init` leaves behind, or the message it ends the process with. -/
def init (fuel : Nat) (configStr : List Char) : Option (Except String Params) :=
  readParams (cppTurn set) defaults fuel configStr

/-- The settings are applied in order and everything else is skipped exactly if nothing has to be
skipped but an empty token at the end: any other token without a `=` is a write through `NULL`,
unless a setting before it ends the process. -/
theorem init_applies_iff (config : ConfigString) (tail : List Char) :
    (∃ fuel, init fuel (config.text ++ nul :: tail) =
        some (applyAll set defaults (settings (pieces config.text)))) ↔
      Settable set defaults (pieces config.text) :=
  cpp_applies_iff set defaults config tail

theorem walk_bare : walk set defaults (pieces "flows=2 verbose".toList) = none ∧
    walk set defaults (pieces "flows=2  table=1".toList) = none := by
  decide +kernel

/-- A token without a `=`, and two blanks in a row. -/
theorem bare_token_crashes :
    let bare : ConfigString := ⟨"flows=2 verbose".toList, by decide⟩
    let doubled : ConfigString := ⟨"flows=2  table=1".toList, by decide⟩
    (¬ ∃ fuel outcome, init fuel (bare.text ++ [nul]) = some outcome) ∧
      ¬ ∃ fuel outcome, init fuel (doubled.text ++ [nul]) = some outcome := by
  intro bare doubled
  refine ⟨fun ⟨fuel, outcome, returned⟩ => ?_, fun ⟨fuel, outcome, returned⟩ => ?_⟩
  · have walked := (cpp_run_iff set defaults bare [] outcome).mp ⟨fuel, returned⟩
    rw [walk_bare.1] at walked
    cases walked
  · have walked := (cpp_run_iff set defaults doubled [] outcome).mp ⟨fuel, returned⟩
    rw [walk_bare.2] at walked
    cases walked

end Oflops.AddFlow.Init
