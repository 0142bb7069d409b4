import Mathlib.Data.List.TakeWhile
import Oflops.FlowStats.Sweep

/-! `openflow_flow_stats`, `openflow_mod_flow` and `openflow_interaction_test`: the rules
that `start` installs for a port, and the destinations that `handle_traffic_generation` gives
its generator. -/

namespace Oflops.Insertion.TrafficRanges
open Lib.Bytes Lib.Record Lib.Blocks Traffic.Packet Traffic.Wire Traffic.Decode Openflow.FlowMod
  Openflow.StatsRequest FlowStats.Sweep

def decimalOctet (octet : UInt8) : List Char := Nat.toDigits 10 octet.toNat

/-- The octets of an address in memory order; `s_addr` is a number of a little-endian host. -/
def inetNtoa (sAddr : Nat) : List Char := ['.'].intercalate ((leBytes 4 sAddr).map decimalOctet)

/-- What `init` accepts and `start` asks the system for. `openflow_mod_flow` has no parameter
`network`. -/
structure Setup extends Params where
  few : flows ≤ 1024
  table : Int
  ofPort3 : Nat
  probeMac : List UInt8
  probeMacLength : probeMac.length = 6

def totalFlows : Nat := 1024

def defaultNetwork : List Char := "192.168.2.0".toList

/-! ### start -/

/-- The flow of a rule, but for what the modules fill in themselves. -/
def probeFlow (mask inPort : Nat) (dlSrc : List UInt8) (nwDst : Nat) : Flow where
  mask := mask
  inPort := inPort
  dlSrc := dlSrc
  dlDst := [0x00, 0x15, 0x17, 0x7b, 0x92, 0x0a]
  dlVlan := 0xffff
  dlType := htons 0x0800
  nwSrc := inetAddr "10.1.1.1".toList
  nwDst := nwDst
  nwProto := 17
  tpSrc := htons 8080
  tpDst := htons 8080
  reserved := 0

def addRule (flow : Flow) (outPort idleTimeout : Nat) : Option (List UInt8) := do
  let (_, b) ← makeOfpFlowAdd flow outPort idleTimeout
  some b

def flowStatsMask (setup : Setup) : Nat :=
  if setup.table ≠ 0 then
    ofpfwInPort ||| ofpfwDlDst ||| ofpfwDlSrc ||| (0 <<< ofpfwNwSrcShift) |||
      (0 <<< ofpfwNwDstShift) |||
      ofpfwDlVlan ||| ofpfwTpDst ||| ofpfwNwProto ||| ofpfwTpSrc ||| ofpfwDlVlanPcp ||| ofpfwNwTos
  else 0

/-- A rule for the probe on the second channel, then those of the loop. -/
def flowStatsStart (setup : Setup) : Option (List (List UInt8)) := do
  let probe ← addRule (probeFlow (flowStatsMask setup) (htons setup.ofPort2) setup.probeMac
    (inetAddr "10.1.1.2".toList)) setup.ofPort3 1200
  let rules ← flowStatsRules setup.toParams setup.flows (inetAddr setup.network)
  some (probe :: rules)

def modFlowMask (setup : Setup) : Nat :=
  if setup.table = 0 then 0 else ofpfwInPort ||| ofpfwDlVlan ||| ofpfwTpDst

/-- The destination is counted from the network for each rule. -/
def modFlowRule (setup : Setup) (i : Nat) : Option (List UInt8) :=
  addRule (probeFlow (modFlowMask setup) (htons setup.ofPort1) setup.dataMac
    (htonl ((ntohl (inetAddr defaultNetwork) + i) % 2 ^ 32))) setup.ofPort3 120

/-- The rule for the probe comes last. -/
def modFlowStart (setup : Setup) : Option (List (List UInt8)) := do
  let rules ← (List.range setup.flows).mapM (modFlowRule setup)
  let probe ← addRule (probeFlow (modFlowMask setup) (htons setup.ofPort2) setup.probeMac
    (inetAddr "10.1.1.2".toList)) setup.ofPort3 120
  some (rules ++ [probe])

def interactionTestMask (setup : Setup) : Nat :=
  if setup.table = 0 then 0 else
    ofpfwDlDst ||| ofpfwDlSrc ||| (32 <<< ofpfwNwSrcShift) ||| (0 <<< ofpfwNwDstShift) |||
      ofpfwDlVlan ||| ofpfwTpDst ||| ofpfwNwProto ||| ofpfwTpSrc ||| ofpfwDlVlanPcp ||| ofpfwNwTos

/-- A rule whose `flags` are cleared in the message. -/
def interactionTestRule (setup : Setup) (ofPort nwDst : Nat) : Option (List UInt8) := do
  let b ← addRule (probeFlow (interactionTestMask setup) (htons ofPort) setup.dataMac nwDst)
    setup.ofPort3 1200
  assign b [(70, leBytes 2 0)]

/-- A loop over rules, with the destination incremented behind each: the messages, and the
destination it ends with. -/
def ruleLoop (rule : Nat → Option (List UInt8)) : Nat → Nat → Option (List (List UInt8) × Nat)
  | 0, nwDst => some ([], nwDst)
  | n + 1, nwDst => do
    let b ← rule nwDst
    let (rest, last) ← ruleLoop rule n (htonl ((ntohl nwDst + 1) % 2 ^ 32))
    some (b :: rest, last)

/-- The second loop goes on where the first one ended, up to `total_flows`. -/
def interactionTestStart (setup : Setup) : Option (List (List UInt8)) := do
  let (background, nwDst) ←
    ruleLoop (interactionTestRule setup setup.ofPort1) setup.flows (inetAddr setup.network)
  let (probes, _) ←
    ruleLoop (interactionTestRule setup setup.ofPort2) (totalFlows - setup.flows) nwDst
  some (background ++ probes)

/-! ### handle_traffic_generation -/

/-- The port of the switch that a generator's channel leads to, and the range it is added with. -/
structure Generator where
  ofPort : Nat
  dstIpMin : List Char
  dstIpMax : List Char

/-- The same code in the three modules. -/
def background (setup : Setup) : Generator where
  ofPort := setup.ofPort1
  dstIpMin := "192.168.2.0".toList
  dstIpMax := inetNtoa
    (htonl ((ntohl (inetAddr "192.168.2.0".toList) + (setup.flows - 1)) % 2 ^ 32))

def probe (setup : Setup) : Generator := ⟨setup.ofPort2, "10.1.1.2".toList, "10.1.1.2".toList⟩

/-- The lower end is not converted back before it is rendered. -/
def interactionTestProbe (setup : Setup) : Generator where
  ofPort := setup.ofPort2
  dstIpMin := inetNtoa ((ntohl (inetAddr "192.168.2.0".toList) + setup.flows) % 2 ^ 32)
  dstIpMax := inetNtoa (htonl ((ntohl (inetAddr "192.168.2.0".toList) + totalFlows - 1) % 2 ^ 32))

inductive TestModule where
  | flowStats
  | modFlow
  | interactionTest

namespace TestModule

def start (setup : Setup) : TestModule → Option (List (List UInt8))
  | .flowStats => flowStatsStart setup
  | .modFlow => modFlowStart setup
  | .interactionTest => interactionTestStart setup

def generators (setup : Setup) : TestModule → List Generator
  | .flowStats | .modFlow => [background setup, probe setup]
  | .interactionTest => [interactionTestProbe setup, background setup]

end TestModule

/-! ### Traffic and rules -/

def target (rule : List UInt8) : Nat × Nat := ((readFlowMod rule).rule.inPort, ruleDst rule)

def ruled (rules : List (List UInt8)) (ofPort : Nat) : Set Nat :=
  {address | (htons ofPort, address) ∈ rules.map target}

def Generator.destinations (generator : Generator) : Set Nat :=
  Set.Icc (ntohl (inetAddr generator.dstIpMin)) (ntohl (inetAddr generator.dstIpMax))

/-- Every generator has the destinations that there are rules for. -/
def HitsRules (mod : TestModule) (setup : Setup) : Prop :=
  ∃ rules, mod.start setup = some rules ∧
    ∀ generator ∈ mod.generators setup, generator.destinations = ruled rules generator.ofPort

/-- The channels lead to two ports, and the network is the one that the traffic is for: that of
`openflow_flow_stats` goes to 192.168.2.0 and on whatever the parameter says. -/
def TestModule.Agrees (setup : Setup) : TestModule → Prop
  | .flowStats =>
    htons setup.ofPort1 ≠ htons setup.ofPort2 ∧ ntohl (inetAddr setup.network) = 0xC0A80200
  | .modFlow => htons setup.ofPort1 ≠ htons setup.ofPort2
  | .interactionTest => False

/-! ### Addresses as text -/

theorem decimalOctet_reads (octet : UInt8) :
    '.' ∉ decimalOctet octet ∧ inetNumber (decimalOctet octet) = some octet.toNat := by
  revert octet
  exact forall_byte (by decide +kernel)

theorem inetHost_octets (a b c d : UInt8) :
    inetHost (['.'].intercalate ([a, b, c, d].map decimalOctet)) = some (beValue [a, b, c, d]) := by
  have separate : ∀ part ∈ [a, b, c, d].map decimalOctet, '.' ∉ part := by
    intro part member
    obtain ⟨octet, -, rfl⟩ := List.mem_map.mp member
    exact (decimalOctet_reads octet).1
  have parts : (['.'].intercalate ([a, b, c, d].map decimalOctet)).splitOn '.' =
      [a, b, c, d].map decimalOctet := List.splitOn_intercalate '.' separate (by simp)
  have visible : ∀ octet : UInt8, ∀ c ∈ decimalOctet octet, isSpace c = false :=
    fun octet c member =>
      (isDigit_apart (Nat.isDigit_of_mem_toDigits (by decide) (by decide) member)).1
  have dot : isSpace '.' = false := by decide
  have whole : (['.'].intercalate ([a, b, c, d].map decimalOctet)).takeWhile (fun c => !isSpace c) =
      ['.'].intercalate ([a, b, c, d].map decimalOctet) := by
    rw [List.takeWhile_eq_self_iff]
    simp only [List.map_cons, List.map_nil, List.intercalate, List.intersperse, List.flatten_cons,
      List.flatten_nil, List.mem_append, List.mem_singleton, List.append_nil, Bool.not_eq_true']
    rintro x (own | rfl | own | rfl | own | rfl | own)
    all_goals first | exact visible _ x own | exact dot
  have numbers : ([a, b, c, d].map decimalOctet).mapM inetNumber =
      some [a.toNat, b.toNat, c.toNat, d.toNat] := by
    simp [fun octet => (decimalOctet_reads octet).2]
  have octet : ∀ octet : UInt8, octet.toNat < 256 := UInt8.toNat_lt
  have bounds : (∀ part ∈ [a.toNat, b.toNat, c.toNat], part < 256) ∧ d.toNat < 256 ^ 1 := by
    simp [octet]
  rw [inetHost, whole, parts, numbers, Option.bind_eq_bind, Option.bind_some, beValue_eq_foldl]
  dsimp only [List.dropLast, List.getLast?]
  rw [Option.bind_eq_bind, Option.bind_some]
  exact if_pos ⟨Nat.le_refl 3, bounds⟩

theorem inetAddr_inetNtoa {sAddr : Nat} (small : sAddr < 2 ^ 32) :
    inetAddr (inetNtoa sAddr) = sAddr := by
  have host : inetHost (inetNtoa sAddr) = some (beValue (leBytes 4 sAddr)) :=
    inetHost_octets _ _ _ _
  have swapped := swapBytes_leValue (leBytes 4 sAddr)
  rw [leBytes_length, leValue_leBytes,
    Nat.mod_eq_of_lt (show sAddr < 256 ^ 4 from small)] at swapped
  rw [inetAddr, host, ← swapped]
  exact ntohl_htonl small

theorem background_address : ntohl (inetAddr "192.168.2.0".toList) = 0xC0A80200 := by
  decide +kernel

theorem probe_address : ntohl (inetAddr "10.1.1.2".toList) = 0x0A010102 := by decide +kernel

/-! ### The rules of a module -/

def targets (ofPort first count : Nat) : List (Nat × Nat) :=
  (List.range count).map fun i => (htons ofPort, (first + i) % 2 ^ 32)

theorem mem_targets_iff {port address ofPort first count : Nat} :
    (port, address) ∈ targets ofPort first count ↔
      port = htons ofPort ∧ address ∈ consecutive (2 ^ 32) first count := by
  simp only [targets, List.mem_map, List.mem_range, Prod.mk.injEq, consecutive, Set.mem_ofPred_eq]
  constructor
  · rintro ⟨i, inside, rfl, rfl⟩
    exact ⟨rfl, i, inside, rfl⟩
  · rintro ⟨rfl, i, inside, rfl⟩
    exact ⟨i, inside, rfl, rfl⟩

theorem targets_cons (ofPort count : Nat) {first : Nat} (small : first < 2 ^ 32) :
    targets ofPort first (count + 1) =
      (htons ofPort, first) :: targets ofPort ((first + 1) % 2 ^ 32) count := by
  rw [targets, List.range_succ_eq_map, List.map_cons, List.map_map, Nat.add_zero,
    Nat.mod_eq_of_lt small, targets, List.cons_eq_cons]
  refine ⟨rfl, List.map_congr_left fun i _ => ?_⟩
  simp only [Function.comp, Prod.mk.injEq, true_and]
  omega

theorem addRule_reads {flow : Flow} (sized : Sized flow) (outPort : Nat) {idleTimeout : Nat}
    (small : idleTimeout < 256 ^ 2) :
    ∃ b, addRule flow outPort idleTimeout = some b ∧ b.length = 80 ∧
      target b = (flow.inPort, ntohl flow.nwDst) := by
  obtain ⟨b, built, length, reads⟩ := build_reads (.flowAdd outPort) sized small
  have made : makeOfpFlowAdd flow outPort idleTimeout = some (80, b) := built
  refine ⟨b, ?_, length, ?_⟩
  · rw [addRule, made]
    rfl
  · rw [target, ruleDst, reads]
    rfl

theorem probeFlow_sized {mask nwDst : Nat} {dlSrc : List UInt8} (ofPort : Nat)
    (bits : mask < 256 ^ 4) (length : dlSrc.length = 6) (small : nwDst < 2 ^ 32) :
    Sized (probeFlow mask (htons ofPort) dlSrc nwDst) := by
  have vlan : 0xffff < 256 ^ 2 := by decide
  have proto : 17 < 256 ^ 1 := by decide
  exact ⟨bits, swapBytes_lt 2 _, length, rfl, vlan, swapBytes_lt 2 _, proto,
    inetAddr_lt "10.1.1.1".toList, small, swapBytes_lt 2 _, swapBytes_lt 2 _⟩

theorem ruleLoop_targets {rule : Nat → Option (List UInt8)} {ofPort : Nat}
    (sent : ∀ nwDst < 2 ^ 32, ∃ b, rule nwDst = some b ∧ target b = (htons ofPort, ntohl nwDst))
    (n : Nat) {nwDst : Nat} (small : nwDst < 2 ^ 32) :
    ∃ rules last, ruleLoop rule n nwDst = some (rules, last) ∧
      rules.map target = targets ofPort (ntohl nwDst) n ∧
      last < 2 ^ 32 ∧ ntohl last = (ntohl nwDst + n) % 2 ^ 32 := by
  induction n generalizing nwDst with
  | zero => exact ⟨[], nwDst, rfl, rfl, small, (Nat.mod_eq_of_lt (ntohl_lt nwDst)).symm⟩
  | succ n ih =>
    obtain ⟨b, made, reads⟩ := sent nwDst small
    obtain ⟨rest, last, run, reads', bound, ends⟩ := ih (htonl_lt ((ntohl nwDst + 1) % 2 ^ 32))
    rw [ntohl_htonl (Nat.mod_lt _ (by decide))] at reads' ends
    refine ⟨b :: rest, last, ?_, ?_, bound, ?_⟩
    · rw [ruleLoop, made]
      simp only [Option.bind_eq_bind, Option.bind_some, run]
    · rw [List.map_cons, reads, reads', targets_cons ofPort n (ntohl_lt nwDst)]
    · rw [ends]
      omega

theorem flowStatsRules_eq (params : Params) (n nwDst : Nat) :
    flowStatsRules params n nwDst =
      (ruleLoop (fun nwDst => addRule (ruleFlow params nwDst) params.ofPort2 1200) n nwDst).map
        Prod.fst := by
  induction n generalizing nwDst with
  | zero => rfl
  | succ n ih =>
    rw [flowStatsRules, ruleLoop, addRule]
    cases makeOfpFlowAdd (ruleFlow params nwDst) params.ofPort2 1200 with
    | none => rfl
    | some made =>
      simp only [Option.bind_eq_bind, Option.bind_some, ih]
      cases ruleLoop _ n (htonl ((ntohl nwDst + 1) % 2 ^ 32)) <;> rfl

section
variable (setup : Setup)

theorem probeRule_reads {mask idleTimeout : Nat} (bits : mask < 256 ^ 4)
    (small : idleTimeout < 256 ^ 2) :
    ∃ b, addRule (probeFlow mask (htons setup.ofPort2) setup.probeMac (inetAddr "10.1.1.2".toList))
      setup.ofPort3 idleTimeout = some b ∧ target b = (htons setup.ofPort2, 0x0A010102) := by
  obtain ⟨b, made, -, reads⟩ := addRule_reads
    (probeFlow_sized setup.ofPort2 bits setup.probeMacLength (inetAddr_lt "10.1.1.2".toList))
    setup.ofPort3 small
  refine ⟨b, made, reads.trans ?_⟩
  rw [probeFlow, probe_address]

theorem flowStatsMask_lt : flowStatsMask setup < 256 ^ 4 := by
  unfold flowStatsMask
  split_ifs <;> decide

theorem modFlowMask_lt : modFlowMask setup < 256 ^ 4 := by
  unfold modFlowMask
  split_ifs <;> decide

theorem interactionTestMask_lt : interactionTestMask setup < 256 ^ 4 := by
  unfold interactionTestMask
  split_ifs <;> decide

theorem flowStatsStart_targets : ∃ rules, flowStatsStart setup = some rules ∧
    rules.map target = (htons setup.ofPort2, 0x0A010102) ::
      targets setup.ofPort1 (ntohl (inetAddr setup.network)) setup.flows := by
  have rule : ∀ nwDst < 2 ^ 32, ∃ b,
      addRule (ruleFlow setup.toParams nwDst) setup.ofPort2 1200 = some b ∧
        target b = (htons setup.ofPort1, ntohl nwDst) := by
    intro nwDst small
    obtain ⟨b, made, -, reads⟩ := addRule_reads (ruleFlow_sized setup.toParams small) setup.ofPort2
      (by decide : 1200 < 256 ^ 2)
    exact ⟨b, made, reads⟩
  obtain ⟨first, made, reads⟩ := probeRule_reads setup (flowStatsMask_lt setup)
    (by decide : 1200 < 256 ^ 2)
  obtain ⟨rest, last, run, reads', -⟩ :=
    ruleLoop_targets rule setup.flows (inetAddr_lt setup.network)
  refine ⟨first :: rest, ?_, ?_⟩
  · rw [flowStatsStart, made, flowStatsRules_eq, run]
    rfl
  · rw [List.map_cons, reads, reads']

theorem modFlowStart_targets : ∃ rules, modFlowStart setup = some rules ∧
    rules.map target = targets setup.ofPort1 0xC0A80200 setup.flows ++
      [(htons setup.ofPort2, 0x0A010102)] := by
  have made : ∀ i, ∃ b, modFlowRule setup i = some b ∧
      target b = (htons setup.ofPort1, (0xC0A80200 + i) % 2 ^ 32) := by
    intro i
    have network : ntohl (inetAddr defaultNetwork) = 0xC0A80200 := background_address
    have address : ntohl (htonl ((ntohl (inetAddr defaultNetwork) + i) % 2 ^ 32)) =
        (ntohl (inetAddr defaultNetwork) + i) % 2 ^ 32 := ntohl_htonl (Nat.mod_lt _ (by decide))
    rw [network] at address
    obtain ⟨b, made, -, reads⟩ :=
      addRule_reads (probeFlow_sized setup.ofPort1 (modFlowMask_lt setup)
      setup.macLength (htonl_lt ((ntohl (inetAddr defaultNetwork) + i) % 2 ^ 32))) setup.ofPort3
      (by decide : 120 < 256 ^ 2)
    exact ⟨b, made, reads.trans (congrArg (Prod.mk _) address)⟩
  choose message made reads using made
  obtain ⟨last, made', reads'⟩ :=
    probeRule_reads setup (modFlowMask_lt setup) (by decide : 120 < 256 ^ 2)
  have loop : (List.range setup.flows).mapM (modFlowRule setup) =
      some ((List.range setup.flows).map message) := by
    rw [funext made]
    exact List.mapM_pure
  refine ⟨(List.range setup.flows).map message ++ [last], ?_, ?_⟩
  · rw [modFlowStart, loop, made']
    rfl
  · rw [List.map_append, List.map_map, List.map_singleton, reads', targets]
    exact congrArg (· ++ _) (List.map_congr_left fun i _ => reads i)

theorem interactionTestRule_reads (ofPort : Nat) {nwDst : Nat} (small : nwDst < 2 ^ 32) :
    ∃ b, interactionTestRule setup ofPort nwDst = some b ∧
      target b = (htons ofPort, ntohl nwDst) := by
  obtain ⟨b, made, length, reads⟩ := addRule_reads
    (probeFlow_sized ofPort (interactionTestMask_lt setup) setup.macLength small) setup.ofPort3
    (by decide : 1200 < 256 ^ 2)
  obtain ⟨after, written, -⟩ := assign_inside b [(70, leBytes 2 0)] (by simp [place, length])
  have kept : ∀ {i width : Nat}, i + width ≤ 70 → slice after i width = slice b i width :=
    fun front => slice_assign_apart written (by simpa [place, Apart] using Or.inl front)
  refine ⟨after, ?_, ?_⟩
  · rw [interactionTestRule, made]
    exact written
  · have port : (readFlowMod after).rule.inPort = (readFlowMod b).rule.inPort :=
      congrArg leValue (kept (i := 12) (by decide))
    have dst : ruleDst after = ruleDst b := congrArg (fun field => ntohl (leValue field))
      (kept (i := 40) (by decide))
    rw [target, port, dst]
    exact reads

theorem interactionTestStart_targets : ∃ rules, interactionTestStart setup = some rules ∧
    rules.map target = targets setup.ofPort1 (ntohl (inetAddr setup.network)) setup.flows ++
      targets setup.ofPort2 ((ntohl (inetAddr setup.network) + setup.flows) % 2 ^ 32)
        (1024 - setup.flows) := by
  have rule (ofPort : Nat) : ∀ nwDst < 2 ^ 32, ∃ b,
      interactionTestRule setup ofPort nwDst = some b ∧
      target b = (htons ofPort, ntohl nwDst) :=
    fun nwDst small => interactionTestRule_reads setup ofPort small
  obtain ⟨first, middle, run, reads, small, between⟩ :=
    ruleLoop_targets (rule setup.ofPort1) setup.flows (inetAddr_lt setup.network)
  obtain ⟨second, last, run', reads', -⟩ :=
    ruleLoop_targets (rule setup.ofPort2) (1024 - setup.flows) small
  refine ⟨first ++ second, ?_, ?_⟩
  · rw [interactionTestStart, run, Option.bind_eq_bind, Option.bind_some]
    dsimp only
    rw [totalFlows, run']
    rfl
  · rw [List.map_append, reads, reads', between]

/-! ### The generators -/

theorem background_destinations :
    (background setup).destinations = Set.Icc 0xC0A80200 (0xC0A80200 + (setup.flows - 1)) := by
  have few := setup.few
  rw [Generator.destinations, background, inetAddr_inetNtoa (htonl_lt _),
    ntohl_htonl (Nat.mod_lt _ (by decide)), background_address, Nat.mod_eq_of_lt (by omega)]

theorem probe_destinations : (probe setup).destinations = {0x0A010102} := by
  rw [Generator.destinations, probe, probe_address, Set.Icc_self]

theorem interactionTestProbe_destinations :
    (interactionTestProbe setup).destinations =
      Set.Icc (ntohl (0xC0A80200 + setup.flows)) 0xC0A805FF := by
  have few := setup.few
  rw [Generator.destinations, interactionTestProbe, inetAddr_inetNtoa (Nat.mod_lt _ (by decide)),
    inetAddr_inetNtoa (htonl_lt _), ntohl_htonl (Nat.mod_lt _ (by decide)), background_address,
    Nat.mod_eq_of_lt (by omega)]
  rfl

theorem probe_low_mod : ntohl (0xC0A80200 + setup.flows) % 2 ^ 16 = 0xA8C0 := by
  have few := setup.few
  have network : (0xC0A80200 + setup.flows) / 256 / 256 = 0xC0A8 := by omega
  rw [ntohl, swapBytes_four, network]
  omega

/-- No range of at most 1023 addresses up to the upper end begins there. -/
theorem interactionTestProbe_misses (first : Nat) :
    (interactionTestProbe setup).destinations ≠ consecutive (2 ^ 32) first
      (1024 - setup.flows) := by
  have few := setup.few
  have some := setup.flowsAccepted.1
  have low := probe_low_mod setup
  rw [interactionTestProbe_destinations]
  intro same
  have short := interval_length_le same
  rcases Nat.lt_or_ge setup.flows 1024 with left | none
  · have among : first % 2 ^ 32 ∈ consecutive (2 ^ 32) first (1024 - setup.flows) :=
      ⟨0, Nat.sub_pos_of_lt left, rfl⟩
    rw [← same, Set.mem_Icc] at among
    omega
  · have all : setup.flows = 1024 := Nat.le_antisymm few none
    rw [all] at short
    exact absurd short (by decide)

theorem interactionTestProbe_ne_background :
    (interactionTestProbe setup).destinations ≠ (background setup).destinations := by
  have low := probe_low_mod setup
  rw [interactionTestProbe_destinations, background_destinations]
  intro same
  have first : 0xC0A80200 ∈ Set.Icc (ntohl (0xC0A80200 + setup.flows)) 0xC0A805FF := by
    rw [same, Set.mem_Icc]
    omega
  have lowest : ntohl (0xC0A80200 + setup.flows) ∈
      Set.Icc 0xC0A80200 (0xC0A80200 + (setup.flows - 1)) := by
    rw [← same, Set.mem_Icc]
    exact ⟨Nat.le_refl _, first.1.trans first.2⟩
  rw [Set.mem_Icc] at first lowest
  omega

variable {setup} {rules : List (List UInt8)}

theorem hitsRules_iff (mod : TestModule) (started : mod.start setup = some rules) :
    HitsRules mod setup ↔
      ∀ generator ∈ mod.generators setup, generator.destinations =
        ruled rules generator.ofPort := by
  constructor
  · rintro ⟨rules', started', hits⟩
    cases started.symm.trans started'
    exact hits
  · intro hits
    exact ⟨rules, started, hits⟩

section Background
variable {first : Nat} (reads : ∀ pair, pair ∈ rules.map target ↔
  pair = (htons setup.ofPort2, 0x0A010102) ∨ pair ∈ targets setup.ofPort1 first setup.flows)
include reads

theorem background_misses (same : htons setup.ofPort1 = htons setup.ofPort2) :
    (background setup).destinations ≠ ruled rules setup.ofPort1 := by
  rw [background_destinations]
  intro equal
  have among : 0x0A010102 ∈ ruled rules setup.ofPort1 :=
    (reads _).mpr (Or.inl (congrArg (·, 0x0A010102) same))
  rw [← equal, Set.mem_Icc] at among
  omega

theorem background_hits_iff (small : first < 2 ^ 32) :
    (∀ generator ∈ [background setup, probe setup],
      generator.destinations = ruled rules generator.ofPort) ↔
      htons setup.ofPort1 ≠ htons setup.ofPort2 ∧ first = 0xC0A80200 := by
  rw [List.forall_mem_cons, List.forall_mem_singleton]
  change _ = ruled rules setup.ofPort1 ∧ _ = ruled rules setup.ofPort2 ↔ _
  by_cases same : htons setup.ofPort1 = htons setup.ofPort2
  · exact iff_of_false (fun hits => background_misses reads same hits.1)
      (fun agrees => agrees.1 same)
  · have background_rules : ruled rules setup.ofPort1 = consecutive (2 ^ 32) first setup.flows := by
      ext address
      rw [ruled, Set.mem_ofPred_eq, reads, mem_targets_iff, Prod.mk.injEq]
      tauto
    have probe_rules : ruled rules setup.ofPort2 = {0x0A010102} := by
      ext address
      rw [ruled, Set.mem_ofPred_eq, reads, mem_targets_iff, Prod.mk.injEq, Set.mem_singleton_iff]
      have other := Ne.symm same
      tauto
    have few := setup.few
    rw [background_destinations, probe_destinations, background_rules, probe_rules,
      interval_eq_consecutive_iff (by omega) setup.flowsAccepted.1 (by omega) small]
    exact ⟨fun hits => ⟨same, hits.1⟩, fun agrees => ⟨agrees.2, rfl⟩⟩

end Background

/-- The two generators have different destinations, so that one port is not enough, and on two
ports the probes miss their rules. -/
theorem interactionTest_misses
    (reads : rules.map target = targets setup.ofPort1 (ntohl (inetAddr setup.network))
      setup.flows ++ targets setup.ofPort2 ((ntohl (inetAddr setup.network) + setup.flows) % 2 ^ 32)
      (1024 - setup.flows)) :
    ¬ ((interactionTestProbe setup).destinations = ruled rules setup.ofPort2 ∧
      (background setup).destinations = ruled rules setup.ofPort1) := by
  rintro ⟨probes, others⟩
  by_cases same : htons setup.ofPort1 = htons setup.ofPort2
  · apply interactionTestProbe_ne_background setup
    rw [probes, others, ruled, ruled, same]
  · apply interactionTestProbe_misses setup
      ((ntohl (inetAddr setup.network) + setup.flows) % 2 ^ 32)
    rw [probes]
    ext address
    rw [ruled, Set.mem_ofPred_eq, reads, List.mem_append, mem_targets_iff, mem_targets_iff]
    have other := Ne.symm same
    tauto

end

/-- On two ports, the traffic hits the rules of `openflow_mod_flow`, and of
`openflow_flow_stats` if the network is the one that the traffic is for; it never hits those
of `openflow_interaction_test`. -/
theorem hits_rules_iff_agrees (mod : TestModule) (setup : Setup) :
    HitsRules mod setup ↔ mod.Agrees setup := by
  cases mod with
  | flowStats =>
    obtain ⟨rules, started, reads⟩ := flowStatsStart_targets setup
    have either : ∀ pair, pair ∈ rules.map target ↔ pair = (htons setup.ofPort2, 0x0A010102) ∨
        pair ∈ targets setup.ofPort1 (ntohl (inetAddr setup.network)) setup.flows := by
      intro pair
      rw [reads, List.mem_cons]
    rw [hitsRules_iff .flowStats started]
    exact background_hits_iff either (ntohl_lt _)
  | modFlow =>
    obtain ⟨rules, started, reads⟩ := modFlowStart_targets setup
    have either : ∀ pair, pair ∈ rules.map target ↔ pair = (htons setup.ofPort2, 0x0A010102) ∨
        pair ∈ targets setup.ofPort1 0xC0A80200 setup.flows := by
      intro pair
      rw [reads, List.mem_append, List.mem_singleton, or_comm]
    rw [hitsRules_iff .modFlow started]
    exact (background_hits_iff either (by decide)).trans (and_iff_left rfl)
  | interactionTest =>
    obtain ⟨rules, started, reads⟩ := interactionTestStart_targets setup
    rw [hitsRules_iff .interactionTest started]
    refine iff_of_false (fun hits => interactionTest_misses reads ?_) id
    rwa [TestModule.generators, List.forall_mem_cons, List.forall_mem_singleton] at hits

/-- One flow in another network: the traffic goes to 192.168.2.0, the rule is for 10.0.0.0. And
with the defaults of `openflow_interaction_test`, the probes begin at 128.2.168.192, for which the
second port has no rule. -/
theorem traffic_elsewhere :
    let setup : Setup :=
  ⟨⟨"10.0.0.0".toList, 1, 1, 1, 2, List.replicate 6 0, by decide, by decide, rfl⟩,
      by decide, 0, 3, List.replicate 6 0, rfl⟩
    let defaults : Setup := { setup with
      network := defaultNetwork, flows := 128, flowsAccepted := by decide, few := by decide }
    ((flowStatsStart setup).map (List.map target) =
        some [(htons 2, 0x0A010102), (htons 1, 0x0A000000)] ∧
      (background setup).dstIpMin = "192.168.2.0".toList ∧
      (background setup).dstIpMax = "192.168.2.0".toList) ∧
    (interactionTestProbe defaults).dstIpMin = "128.2.168.192".toList ∧
      (interactionTestProbe defaults).dstIpMax = "192.168.5.255".toList ∧
      ∃ rules, interactionTestStart defaults = some rules ∧ 0x8002A8C0 ∉ ruled rules 2 := by
  intro setup defaults
  refine ⟨by decide +kernel, by decide +kernel, by decide +kernel, ?_⟩
  obtain ⟨rules, started, reads⟩ := interactionTestStart_targets defaults
  refine ⟨rules, started, ?_⟩
  have network : ntohl (inetAddr defaults.network) = 0xC0A80200 := background_address
  rw [ruled, Set.mem_ofPred_eq, reads, List.mem_append, mem_targets_iff, mem_targets_iff, network]
  rintro (⟨-, i, inside, value⟩ | ⟨-, i, inside, value⟩)
  · change i < 128 at inside
    omega
  · change (((0xC0A80200 + 128) % 2 ^ 32) + i) % 2 ^ 32 = _ at value
    change i < 1024 - 128 at inside
    omega

end Oflops.Insertion.TrafficRanges
