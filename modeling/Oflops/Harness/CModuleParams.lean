import Oflops.FlowStats.Sweep
import Oflops.Harness.ParamTokens

/-! The parameters of `openflow_flow_stats` and `openflow_mod_flow`. Their loop runs over the end of
the configuration string, so what it sets depends on the bytes behind the string. -/

namespace Oflops.Harness.CModuleParams
open Lib.MachineInt ParamLoop ParamTokens
open Traffic.Packet (strtol10)

def minQueryDelay : Int := 1000

def atoi (s : List Char) : Int := int32 (strtol10 s)

namespace FlowStats

structure Params where
  flows : Int
  query : Int
  network : List Char
  pktSize : UInt64
  datarate : UInt64
  proberate : UInt64
  queryDelay : Int
  print : Int
  table : Int
  deriving DecidableEq, Repr

def defaults : Params where
  flows := 128
  query := 64
  network := "192.168.2.0".toList
  pktSize := 1500
  datarate := 100
  proberate := 100
  queryDelay := 1000000
  print := 0
  table := 0

/-- The next power of two. One that is no `int` becomes the least `int`, as the processor converts
it. -/
def powerOfTwo (query : Int) : Int :=
  ((Oflops.FlowStats.Sweep.roundQuery query.toNat).map Int.ofNat).getD (-2 ^ 31)

/-- The chain of comparisons of the parameter's name. Other names are only reported. -/
def set (params : Params) (param value : List Char) : Except String Params :=
  if param = "flows".toList then
    let flows := atoi value
    store { params with flows } (flows ≤ 0) "Invalid flow number"
  else if param = "query".toList then
    let query := atoi value
    store { params with query := powerOfTwo query } (query ≤ 0) "Invalid flow number"
  else if param = "network".toList then .ok { params with network := value }
  else if param = "pkt_size".toList then
    let pktSize := UInt64.ofInt (strtol0 value)
    store { params with pktSize } (pktSize < 64 ∧ pktSize > 1500) "Invalid packet size value"
  else if param = "data_rate".toList then
    let datarate := UInt64.ofInt (strtol0 value)
    store { params with datarate } (datarate ≤ 0 ∨ datarate > 1010)
      "Invalid data rate param(Values between 1 and 1010)"
  else if param = "probe_rate".toList then
    let proberate := UInt64.ofInt (strtol0 value)
    store { params with proberate } (proberate ≤ 0 ∨ proberate ≥ 1010)
      "Invalid probe rate param(Value between 1 and 1010)"
  else if param = "query_delay".toList then
    let queryDelay := int32 (strtol0 value)
    store { params with queryDelay } (queryDelay ≤ minQueryDelay)
      "Invalid probe rate param(Value between 1 and 1010)"
  else if param = "print".toList then .ok { params with print := int32 (strtol0 value) }
  else if param = "table".toList then .ok { params with table := int32 (strtol0 value) }
  else .ok params

end FlowStats

namespace ModFlow

structure Params where
  pktSize : UInt32
  proberate : UInt64
  datarate : UInt64
  table : Int
  flows : Int
  print : Int
  deriving DecidableEq, Repr

def defaults : Params where
  pktSize := 1500
  proberate := 100
  datarate := 100
  table := 0
  flows := 100
  print := 0

def set (params : Params) (param value : List Char) : Except String Params :=
  if param = "pkt_size".toList then
    let pktSize := UInt32.ofInt (strtol0 value)
    store { params with pktSize } (pktSize < 64 ∧ pktSize > 1500) "Invalid packet size value"
  else if param = "probe_rate".toList then
    let proberate := UInt64.ofInt (strtol0 value)
    store { params with proberate } (proberate ≤ 0 ∨ proberate ≥ 1010)
      "Invalid probe rate param(Value between 1 and 1010)"
  else if param = "data_rate".toList then
    let datarate := UInt64.ofInt (strtol0 value)
    store { params with datarate } (datarate ≤ 0 ∨ datarate ≥ 1010)
      "Invalid data rate param(Value between 1 and 1010)"
  else if param = "table".toList then
    let table := int32 (strtol0 value)
    store { params with table } (table < 0 ∧ table > 2) "Invalid table number"
  else if param = "flows".toList then
    let flows := int32 (strtol0 value)
    store { params with flows } (flows ≤ 0) "Invalid flow number"
  else if param = "print".toList then .ok { params with print := int32 (strtol0 value) }
  else .ok params

end ModFlow

inductive CModule where
  | flowStats
  | modFlow

namespace CModule

def Params : CModule → Type
  | .flowStats => FlowStats.Params
  | .modFlow => ModFlow.Params

def defaults : (mod : CModule) → mod.Params
  | .flowStats => FlowStats.defaults
  | .modFlow => ModFlow.defaults

def set : (mod : CModule) → mod.Params → List Char → List Char → Except String mod.Params
  | .flowStats => FlowStats.set
  | .modFlow => ModFlow.set

end CModule

/-- The loop stops at the end of the string only if there is no token at all, or if a token before
the last ends the process. -/
theorem stops_at_end_iff (mod : CModule) (blanks : Nat) (tokens : List Token) :
    StopsAtEnd mod.set mod.defaults (tokenString blanks tokens) ↔
      tokens = [] ∨
        ∃ message, applyAll mod.set mod.defaults (tokens.dropLast.map Token.pair) =
          .error message :=
  stopsAtEnd_iff mod.set mod.defaults blanks tokens

def flowsOne : Token where
  name := "flows".toList
  value := "1".toList
  first := by decide
  plain := by decide
  blankless := by decide

/-- What is left on the stack behind the string sets the number of flows. -/
theorem stack_sets_flows :
    Sets FlowStats.set FlowStats.defaults (tokenString 1 [flowsOne]) [nul, nul]
        (.ok { FlowStats.defaults with flows := 1 }) ∧
      Sets FlowStats.set FlowStats.defaults (tokenString 1 [flowsOne])
        (nul :: "flows=2".toList ++ [nul, nul, nul]) (.ok { FlowStats.defaults with flows := 2 }) ∧
      Sets ModFlow.set ModFlow.defaults (tokenString 1 [flowsOne]) [nul, nul]
        (.ok { ModFlow.defaults with flows := 1 }) ∧
      Sets ModFlow.set ModFlow.defaults (tokenString 1 [flowsOne])
        (nul :: "flows=2".toList ++ [nul, nul, nul]) (.ok { ModFlow.defaults with
          flows := 2 }) := by
  refine ⟨⟨2, ?_⟩, ⟨3, ?_⟩, ⟨2, ?_⟩, ⟨3, ?_⟩⟩
  all_goals decide +kernel

end Oflops.Harness.CModuleParams
