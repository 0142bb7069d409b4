import Oflops.Openflow.StatsRequest

/-! `openflow_flow_stats` and `openflow_aggr_flow_stats`: the rules that `start` installs, the
requests of the GETSTAT event, and whether a round of requests takes all of the rules. -/

namespace Oflops.FlowStats.Sweep
open Lib.Bytes Lib.Record Lib.Blocks Traffic.Packet Traffic.Wire Traffic.Decode Openflow.FlowMod
  Openflow.StatsRequest

/-- The parameters that `init` accepts (`flows` and `query` are positive numbers of type `int`),
and what `start` asks the system for. -/
structure Params where
  network : List Char
  flows : Nat
  query : Nat
  ofPort1 : Nat
  ofPort2 : Nat
  dataMac : List UInt8
  flowsAccepted : 0 < flows ∧ flows < 2 ^ 31
  queryAccepted : 0 < query ∧ query < 2 ^ 31
  macLength : dataMac.length = 6

/-- `init` rounds the query up to a power of two; one that is no `int` has no value. The logarithm
is taken as exact. -/
def roundQuery (query : Nat) : Option Nat :=
  if 2 ^ query.log2 = query then some query
  else
    let rounded := 2 ^ (query.log2 + 1)
    if rounded < 2 ^ 31 then some rounded else none

def flowsExponent (params : Params) : Nat := params.flows.log2

def queryExponent (params : Params) : Option Nat := (roundQuery params.query).map Nat.log2

/-- The flow of a rule, but for the destination. -/
def ruleFlow (params : Params) (nwDst : Nat) : Flow where
  mask := 0
  inPort := htons params.ofPort1
  dlSrc := params.dataMac
  dlDst := [0x00, 0x1e, 0x68, 0x9a, 0xc5, 0x75]
  dlVlan := 0xffff
  dlType := htons 0x0800
  nwSrc := inetAddr "10.1.1.1".toList
  nwDst := nwDst
  nwProto := 17
  tpSrc := htons 8080
  tpDst := htons 8080
  reserved := 0

/-- The wildcards of a request: all but the high bits of the destination. -/
def queryWildcards (queryExponent : Nat) : Nat :=
  ofpfwInPort ||| ofpfwDlVlan ||| ofpfwDlSrc ||| ofpfwDlDst ||| ofpfwDlType ||| ofpfwNwProto |||
    ofpfwTpSrc ||| ofpfwDlVlanPcp ||| ofpfwNwTos ||| ofpfwTpDst ||| (32 <<< ofpfwNwSrcShift) |||
    (queryExponent <<< ofpfwNwDstShift)

def flowNetmask (params : Params) (queryExponent statsCount : Nat) : Nat :=
  let netmask := ntohl (inetAddr params.network) &&&
    ((0xFFFFFFFF <<< flowsExponent params) % 2 ^ 32)
  if queryExponent < flowsExponent params then
    (netmask + ((statsCount % (1 <<< (flowsExponent params - queryExponent))) <<< queryExponent)) %
      2 ^ 32
  else netmask

/-- The request of a GETSTAT event, from the message that the module builds. -/
def getStat (make : Nat → Option (Nat × List UInt8)) (params : Params) (transId statsCount : Nat) :
    Option (List UInt8) := do
  let exponent ← queryExponent params
  let (_, b) ← make transId
  assign b [(ofpStatsRequestSize, leBytes 4 (htonl (queryWildcards exponent))),
    (ofpStatsRequestSize + 32, leBytes 4 (htonl (flowNetmask params exponent statsCount)))]

/-! ### openflow_flow_stats -/

/-- The loop of `start`: the destination is incremented behind each rule. -/
def flowStatsRules (params : Params) : Nat → Nat → Option (List (List UInt8))
  | 0, _ => some []
  | n + 1, nwDst => do
    let (_, b) ← makeOfpFlowAdd (ruleFlow params nwDst) params.ofPort2 1200
    let rest ← flowStatsRules params n (htonl ((ntohl nwDst + 1) % 2 ^ 32))
    some (b :: rest)

/-! ### openflow_aggr_flow_stats -/

/-- The loop of `start`: the address is incremented before each rule. -/
def aggrFlowStatsRules (params : Params) : Nat → Nat → Option (List (List UInt8))
  | 0, _ => some []
  | n + 1, sAddr => do
    let sAddr := (sAddr + 1) % 2 ^ 32
    let (_, b) ← makeOfpFlowAdd (ruleFlow params (htonl sAddr)) params.ofPort2 1200
    let rest ← aggrFlowStatsRules params n sAddr
    some (b :: rest)

inductive TestModule where
  | flowStats
  | aggrFlowStats

namespace TestModule

def start (params : Params) : TestModule → Option (List (List UInt8))
  | .flowStats => flowStatsRules params params.flows (inetAddr params.network)
  | .aggrFlowStats => aggrFlowStatsRules params params.flows (ntohl (inetAddr params.network))

def request (params : Params) (transId statsCount : Nat) : TestModule → Option (List UInt8)
  | .flowStats => getStat makeOfpFlowGetStat params transId statsCount
  | .aggrFlowStats => getStat makeOfpAggrFlowStats params transId statsCount

def first : TestModule → Nat
  | .flowStats => 0
  | .aggrFlowStats => 1

end TestModule

/-! ### Rounds of requests -/

def ruleDst (message : List UInt8) : Nat := ntohl (readFlowMod message).rule.nwDst

def Takes (request : List UInt8) (address : Nat) : Prop :=
  MatchesDst (readMatch request ofpStatsRequestSize) address

instance (request : List UInt8) (address : Nat) : Decidable (Takes request address) :=
  inferInstanceAs (Decidable (MatchesDst _ _))

/-- Any round of consecutive requests takes the destination of every rule, and if a request is for
less than all flows, no two of a round take a common address. `requests` are those for the values
of `stats_count`, whatever their transaction numbers. -/
structure Sweeps (rules : List (List UInt8)) (flowsExponent queryExponent : Nat)
    (requests : Nat → List UInt8) : Prop where
  takesAll : ∀ first, ∀ rule ∈ rules,
    ∃ j < 2 ^ (flowsExponent - queryExponent), Takes (requests (first + j)) (ruleDst rule)
  apart : queryExponent < flowsExponent → ∀ first i j, i < 2 ^ (flowsExponent - queryExponent) →
    j < 2 ^ (flowsExponent - queryExponent) → i ≠ j →
    ∀ address < 2 ^ 32,
    ¬ (Takes (requests (first + i)) address ∧ Takes (requests (first + j)) address)

def SweepsAll (mod : TestModule) (params : Params) : Prop :=
  ∃ rules exponent, mod.start params = some rules ∧ queryExponent params = some exponent ∧
    ∀ transId : Nat → Nat, ∃ requests : Nat → List UInt8,
      (∀ statsCount,
        mod.request params (transId statsCount) statsCount = some (requests statsCount)) ∧
      Sweeps rules (flowsExponent params) exponent requests

def Fits (mod : TestModule) (params : Params) (exponent : Nat) : Prop :=
  let bits := max (flowsExponent params) exponent
  ntohl (inetAddr params.network) % 2 ^ bits + mod.first + params.flows ≤ 2 ^ bits

section
variable (params : Params)

theorem ruleFlow_sized {nwDst : Nat} (small : nwDst < 2 ^ 32) : Sized (ruleFlow params nwDst) := by
  have mask : 0 < 256 ^ 4 := by decide
  have vlan : 0xffff < 256 ^ 2 := by decide
  have proto : 17 < 256 ^ 1 := by decide
  exact ⟨mask, swapBytes_lt 2 _, params.macLength, rfl, vlan, swapBytes_lt 2 _, proto,
    inetAddr_lt "10.1.1.1".toList, small, swapBytes_lt 2 _, swapBytes_lt 2 _⟩

theorem makeRule {nwDst : Nat} (small : nwDst < 2 ^ 32) :
    ∃ n b, makeOfpFlowAdd (ruleFlow params nwDst) params.ofPort2 1200 = some (n, b) ∧
      ruleDst b = ntohl nwDst := by
  obtain ⟨b, built, -, reads⟩ :=
    build_reads (.flowAdd params.ofPort2) (ruleFlow_sized params small) (by decide : 1200 < 256 ^ 2)
  refine ⟨_, b, built, ?_⟩
  rw [ruleDst, reads]
  rfl

theorem ntohl_htonl {x : Nat} (small : x < 2 ^ 32) : ntohl (htonl x) = x := by
  rw [ntohl, htonl, swapBytes_swapBytes]
  exact Nat.mod_eq_of_lt small

theorem flowStatsRules_dst (n : Nat) {nwDst : Nat} (small : nwDst < 2 ^ 32) :
    ∃ rules, flowStatsRules params n nwDst = some rules ∧
      rules.map ruleDst = (List.range n).map fun i => (ntohl nwDst + 0 + i) % 2 ^ 32 := by
  induction n generalizing nwDst with
  | zero => exact ⟨[], rfl, rfl⟩
  | succ n ih =>
    obtain ⟨size, b, made, dst⟩ := makeRule params small
    obtain ⟨rest, sent, dsts⟩ := ih (htonl_lt ((ntohl nwDst + 1) % 2 ^ 32))
    refine ⟨b :: rest, ?_, ?_⟩
    · rw [flowStatsRules, made]
      simp only [Option.bind_eq_bind, Option.bind_some, sent]
    · rw [List.map_cons, dst, dsts, ntohl_htonl (Nat.mod_lt _ (by decide)), List.range_succ_eq_map,
        List.map_cons, List.map_map, List.cons_eq_cons]
      refine ⟨(Nat.mod_eq_of_lt (ntohl_lt nwDst)).symm, List.map_congr_left fun i _ => ?_⟩
      simp only [Function.comp]
      omega

theorem aggrFlowStatsRules_dst (n sAddr : Nat) :
    ∃ rules, aggrFlowStatsRules params n sAddr = some rules ∧
      rules.map ruleDst = (List.range n).map fun i => (sAddr + 1 + i) % 2 ^ 32 := by
  induction n generalizing sAddr with
  | zero => exact ⟨[], rfl, rfl⟩
  | succ n ih =>
    obtain ⟨size, b, made, dst⟩ := makeRule params (htonl_lt ((sAddr + 1) % 2 ^ 32))
    obtain ⟨rest, sent, dsts⟩ := ih ((sAddr + 1) % 2 ^ 32)
    refine ⟨b :: rest, ?_, ?_⟩
    · rw [aggrFlowStatsRules]
      simp only [Option.bind_eq_bind, Option.bind_some, made, sent]
    · rw [List.map_cons, dst, dsts, ntohl_htonl (Nat.mod_lt _ (by decide)), List.range_succ_eq_map,
        List.map_cons, List.map_map, List.cons_eq_cons]
      refine ⟨rfl, List.map_congr_left fun i _ => ?_⟩
      simp only [Function.comp]
      omega

theorem start_dst (mod : TestModule) :
    ∃ rules, mod.start params = some rules ∧
      rules.map ruleDst = (List.range params.flows).map fun i =>
      (ntohl (inetAddr params.network) + mod.first + i) % 2 ^ 32 := by
  cases mod with
  | flowStats => exact flowStatsRules_dst params params.flows (inetAddr_lt params.network)
  | aggrFlowStats =>
    exact aggrFlowStatsRules_dst params params.flows (ntohl (inetAddr params.network))

end

section
variable {params : Params} {exponent : Nat}

theorem flowsExponent_lt (params : Params) : flowsExponent params < 31 :=
  (Nat.log2_lt (by have := params.flowsAccepted; omega)).mpr params.flowsAccepted.2

theorem queryExponent_lt (known : queryExponent params = some exponent) : exponent < 31 := by
  obtain ⟨query, rounded, rfl⟩ := Option.map_eq_some_iff.mp known
  unfold roundQuery at rounded
  dsimp only at rounded
  split_ifs at rounded with power small
  · cases rounded
    exact (Nat.log2_lt (by have := params.queryAccepted; omega)).mpr params.queryAccepted.2
  · cases rounded
    rw [Nat.log2_two_pow]
    exact (Nat.pow_lt_pow_iff_right (by decide)).mp small

/-- A query above 2 ^ 30 would be rounded to a number that is no `int`. -/
theorem queryExponent_isSome_iff (params : Params) :
    (queryExponent params).isSome ↔ params.query ≤ 2 ^ 30 := by
  have nonzero : params.query ≠ 0 := by
    have := params.queryAccepted
    omega
  rw [queryExponent, Option.isSome_map]
  unfold roundQuery
  dsimp only
  split_ifs with power small
  · have exponent : params.query.log2 < 31 := (Nat.log2_lt nonzero).mpr params.queryAccepted.2
    refine iff_of_true rfl ?_
    rw [← power]
    exact Nat.pow_le_pow_right (by decide) (by omega)
  · have exponent : params.query.log2 + 1 < 31 := (Nat.pow_lt_pow_iff_right (by decide)).mp small
    exact iff_of_true rfl ((Nat.log2_lt nonzero).mp (by omega)).le
  · refine iff_of_false Bool.false_ne_true fun le => ?_
    rcases Nat.lt_or_eq_of_le le with below | exact_
    · have exponent : params.query.log2 < 30 := (Nat.log2_lt nonzero).mpr below
      exact small (Nat.pow_lt_pow_right (by decide) (by omega))
    · rw [exact_, Nat.log2_two_pow] at power
      exact power rfl

theorem dstBits_query :
    ∀ exponent < 31, queryWildcards exponent % 2 ^ 32 / 2 ^ ofpfwNwDstShift % 2 ^ 6 =
    exponent := by
  decide

theorem flowNetmask_eq (params : Params) (exponent statsCount : Nat) :
    flowNetmask params exponent statsCount =
      ntohl (inetAddr params.network) / 2 ^ flowsExponent params * 2 ^ flowsExponent params +
        if exponent < flowsExponent params then
          statsCount % 2 ^ (flowsExponent params - exponent) * 2 ^ exponent
        else 0 := by
  have small := ntohl_lt (inetAddr params.network)
  have masked := and_mask (flowsExponent params) small
  have ends := block_end_le (flowsExponent_lt params).le.step small
  unfold flowNetmask
  dsimp only
  rw [show 0xFFFFFFFF = 2 ^ 32 - 1 from rfl, masked]
  split_ifs with several
  · have part : statsCount % 2 ^ (flowsExponent params - exponent) * 2 ^ exponent <
        2 ^ flowsExponent params := by
      calc statsCount % 2 ^ (flowsExponent params - exponent) * 2 ^ exponent
          < 2 ^ (flowsExponent params - exponent) * 2 ^ exponent :=
            Nat.mul_lt_mul_of_pos_right (Nat.mod_lt _ (Nat.two_pow_pos _)) (Nat.two_pow_pos _)
        _ = 2 ^ flowsExponent params := by rw [← pow_add, Nat.sub_add_cancel several.le]
    rw [Nat.shiftLeft_eq, Nat.shiftLeft_eq, one_mul]
    exact Nat.mod_eq_of_lt (by omega)
  · rfl

theorem flowNetmask_lt (params : Params) (exponent statsCount : Nat) :
    flowNetmask params exponent statsCount < 2 ^ 32 := by
  unfold flowNetmask
  dsimp only
  split_ifs
  · exact Nat.mod_lt _ (by decide)
  · exact Nat.and_le_left.trans_lt (ntohl_lt _)

theorem request_takes (mod : TestModule) (known : queryExponent params = some exponent)
    (transId statsCount : Nat) :
    ∃ b, mod.request params transId statsCount = some b ∧ ∀ address,
      Takes b address ↔ SameBlock exponent address (flowNetmask params exponent statsCount) := by
  have built : ∀ statsType, ∃ b, getStat (makeStatsRequest · statsType) params transId statsCount =
      some b ∧ ∀ address,
        Takes b address ↔ SameBlock exponent address (flowNetmask params exponent statsCount) := by
    intro statsType
    obtain ⟨made, make, length⟩ := makeStatsRequest_made transId statsType
    obtain ⟨b, written, wildcards, nwDst⟩ := readMatch_assigned length (queryWildcards exponent)
      (htonl (flowNetmask params exponent statsCount))
    refine ⟨b, ?_, fun address => ?_⟩
    · rw [getStat]
      simp only [known, make, written, Option.bind_eq_bind, Option.bind_some]
    · rw [Takes, MatchesDst, dstBits, wildcards,
        dstBits_query exponent (queryExponent_lt known), nwDst, Nat.mod_eq_of_lt (htonl_lt _),
        ntohl_htonl (flowNetmask_lt params exponent statsCount)]
  cases mod with
  | flowStats => exact built ofpstFlow
  | aggrFlowStats => exact built ofpstAggregate

theorem takes_part_iff {b : List UInt8} {statsCount address : Nat}
    (takes : Takes b address ↔ SameBlock exponent address (flowNetmask params exponent statsCount))
    (several : exponent < flowsExponent params) :
    Takes b address ↔ SameBlock (flowsExponent params) address (ntohl (inetAddr params.network)) ∧
      address / 2 ^ exponent % 2 ^ (flowsExponent params - exponent) =
        statsCount % 2 ^ (flowsExponent params - exponent) := by
  rw [takes, flowNetmask_eq, if_pos several]
  exact sameBlock_part several.le (Nat.mod_lt _ (Nat.two_pow_pos _)) _ _

theorem takes_block_iff {b : List UInt8} {statsCount address : Nat}
    (takes : Takes b address ↔ SameBlock exponent address (flowNetmask params exponent statsCount))
    (one : flowsExponent params ≤ exponent) :
    Takes b address ↔ SameBlock exponent address (ntohl (inetAddr params.network)) := by
  rw [takes, flowNetmask_eq, if_neg (Nat.not_lt.mpr one), Nat.add_zero]
  exact sameBlock_base _ _ one address

section
variable {requests : Nat → List UInt8}
  (takes : ∀ statsCount address, Takes (requests statsCount) address ↔
    SameBlock exponent address (flowNetmask params exponent statsCount))
include takes

theorem round_takes_iff (first address : Nat) :
    (∃ j < 2 ^ (flowsExponent params - exponent), Takes (requests (first + j)) address) ↔
      SameBlock (max (flowsExponent params) exponent) address
      (ntohl (inetAddr params.network)) := by
  rcases Nat.lt_or_ge exponent (flowsExponent params) with several | one
  · rw [Nat.max_eq_left several.le]
    constructor
    · rintro ⟨j, -, taken⟩
      exact ((takes_part_iff (takes _ _) several).mp taken).1
    · intro same
      obtain ⟨j, inside, residue⟩ := exists_residue first
        (Nat.mod_lt (address / 2 ^ exponent) (Nat.two_pow_pos (flowsExponent params - exponent)))
      exact ⟨j, inside, (takes_part_iff (takes _ _) several).mpr ⟨same, residue.symm⟩⟩
  · rw [Nat.max_eq_right one, Nat.sub_eq_zero_of_le one]
    constructor
    · rintro ⟨j, -, taken⟩
      exact (takes_block_iff (takes _ _) one).mp taken
    · intro same
      exact ⟨0, Nat.one_pos, (takes_block_iff (takes _ _) one).mpr same⟩

/-- Two requests of a round have no address in common, whatever the network is. -/
theorem round_apart (several : exponent < flowsExponent params) {first i j address : Nat}
    (left : i < 2 ^ (flowsExponent params - exponent))
    (right : j < 2 ^ (flowsExponent params - exponent))
    (both : Takes (requests (first + i)) address ∧ Takes (requests (first + j)) address) :
    i = j := by
  have one := ((takes_part_iff (takes _ _) several).mp both.1).2
  have other := ((takes_part_iff (takes _ _) several).mp both.2).2
  have same : first + i ≡ first + j [MOD 2 ^ (flowsExponent params - exponent)] :=
    one.symm.trans other
  exact (Nat.ModEq.add_left_cancel' first same).eq_of_lt_of_lt left right

end

end

section
variable {params : Params} {exponent : Nat}

theorem fits_iff (mod : TestModule) (known : queryExponent params = some exponent) :
    (∀ i < params.flows, SameBlock (max (flowsExponent params) exponent)
      ((ntohl (inetAddr params.network) + mod.first + i) % 2 ^ 32)
      (ntohl (inetAddr params.network))) ↔
      Fits mod params exponent := by
  have lower := flowsExponent_lt params
  have upper := queryExponent_lt known
  refine interval_sameBlock_iff (by omega) (ntohl_lt _) ?_
  have below := Nat.mod_lt (ntohl (inetAddr params.network))
    (Nat.two_pow_pos (max (flowsExponent params) exponent))
  have near : mod.first ≤ 1 := by cases mod <;> decide
  omega

theorem sweeps_iff (mod : TestModule) (known : queryExponent params = some exponent)
    {rules : List (List UInt8)} (dsts : rules.map ruleDst = (List.range params.flows).map fun i =>
      (ntohl (inetAddr params.network) + mod.first + i) % 2 ^ 32) {requests : Nat → List UInt8}
    (takes : ∀ statsCount address, Takes (requests statsCount) address ↔
      SameBlock exponent address (flowNetmask params exponent statsCount)) :
    Sweeps rules (flowsExponent params) exponent requests ↔ Fits mod params exponent := by
  rw [← fits_iff mod known]
  constructor
  · intro sweeps i inside
    have among : (ntohl (inetAddr params.network) + mod.first + i) % 2 ^ 32 ∈
        rules.map ruleDst := by
      rw [dsts]
      exact List.mem_map.mpr ⟨i, List.mem_range.mpr inside, rfl⟩
    obtain ⟨rule, installed, dst⟩ := List.mem_map.mp among
    rw [← dst]
    exact (round_takes_iff takes 0 _).mp (sweeps.takesAll 0 rule installed)
  · intro same
    refine ⟨fun first rule installed => ?_,
      fun several first i j left right different address _ both => ?_⟩
    · have among : ruleDst rule ∈ rules.map ruleDst := List.mem_map_of_mem installed
      rw [dsts] at among
      obtain ⟨i, inside, dst⟩ := List.mem_map.mp among
      rw [← dst]
      exact (round_takes_iff takes first _).mpr (same i (List.mem_range.mp inside))
    · exact different (round_apart takes several left right both)

end

/-- The requests sweep the rules exactly if the query can be rounded and the rules, counted from
the start of the block, fit into the larger one of the two blocks. -/
theorem sweeps_all_iff (mod : TestModule) (params : Params) :
    SweepsAll mod params ↔ params.query ≤ 2 ^ 30 ∧
      ∀ exponent, queryExponent params = some exponent → Fits mod params exponent := by
  obtain ⟨rules, started, dsts⟩ := start_dst params mod
  constructor
  · rintro ⟨rules', exponent, started', known, sweeps⟩
    cases started.symm.trans started'
    obtain ⟨requests, sent, sweeps⟩ := sweeps id
    refine ⟨(queryExponent_isSome_iff params).mp (by rw [known]; rfl), fun other same => ?_⟩
    cases known.symm.trans same
    refine (sweeps_iff mod known dsts fun statsCount address => ?_).mp sweeps
    obtain ⟨b, sent', takes⟩ := request_takes mod known (id statsCount) statsCount
    cases (sent statsCount).symm.trans sent'
    exact takes address
  · rintro ⟨small, fits⟩
    obtain ⟨exponent, known⟩ :=
      Option.isSome_iff_exists.mp ((queryExponent_isSome_iff params).mpr small)
    refine ⟨rules, exponent, started, known, fun transId => ?_⟩
    choose requests sent takes using fun statsCount =>
      request_takes mod known (transId statsCount) statsCount
    exact ⟨requests, sent, (sweeps_iff mod known dsts takes).mpr (fits exponent known)⟩

/-- Three rules from the network address on, or two behind it, asked for one address at a time: no
request of a round takes the last one. -/
theorem last_rule_missed :
    let two : Params :=
  ⟨"192.168.2.0".toList, 2, 1, 1, 2, List.replicate 6 0, by decide, by decide, rfl⟩
    let three : Params := { two with flows := 3, flowsAccepted := by decide }
    let taken (mod : TestModule) (params : Params) (address : Nat) :=
      [0, 1].map fun count => (mod.request params count count).map fun b => decide (Takes b address)
    ((TestModule.flowStats.start three).map (List.map ruleDst) =
        some [0xC0A80200, 0xC0A80201, 0xC0A80202] ∧
      taken .flowStats three 0xC0A80202 = [some false, some false]) ∧
    (TestModule.aggrFlowStats.start two).map (List.map ruleDst) = some [0xC0A80201, 0xC0A80202] ∧
      taken .aggrFlowStats two 0xC0A80202 = [some false, some false] := by
  decide +kernel

end Oflops.FlowStats.Sweep
