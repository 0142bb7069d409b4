import Oflops.Insertion.TrafficRanges
import Oflops.Openflow.Rules
import Oflops.Traffic.Flows
import Oflops.Traffic.RoundTrip

/-! The rules of the test `openflow_timer` and the traffic it generates for them. The rules send a
frame back to where it came from, for ten seconds; those that are meant to match exactly ask for
frames without a tag, and the traffic is tagged. -/

namespace Oflops.FlowTimer.Rules
open Lib.Bytes Lib.Record Lib.Blocks Time Traffic.Packet Traffic.Wire Traffic.UserLoop Traffic.Flows
open Openflow.FlowMod Openflow.StatsRequest Openflow.Matching Openflow.Rules Insertion.TrafficRanges
open Traffic.Decode (Flow)
open FlowStats.Sweep (ntohl_htonl)
open Traffic.RoundTrip (macString readMacAddr_macString slice_etherType)

structure Config where
  flows : Nat
  table : Int
  pktSize : UInt32
  dataSndInterval : UInt64
  dataMac : List UInt8
  dataMacLength : dataMac.length = 6
  ofPort1 : Nat

/-! ### SND_FLOW -/

def mask (config : Config) : Nat :=
  if config.table = 0 then 0
  else
    ofpfwInPort ||| ofpfwDlDst ||| ofpfwDlSrc ||| (0 <<< ofpfwNwSrcShift) |||
      (0 <<< ofpfwNwDstShift) |||
      ofpfwDlVlan ||| ofpfwTpDst ||| ofpfwNwProto ||| ofpfwTpSrc ||| ofpfwDlVlanPcp ||| ofpfwNwTos

def timeoutFields : List (Nat × List UInt8) :=
  [(62, leBytes 2 (htons 10)), (70, leBytes 2 (htons ofpffSendFlowRem)),
    (58, leBytes 2 ofpFlowPermanent), (60, leBytes 2 (htons 10))]

def flowMessage (config : Config) (nwDst : Nat) : Option (List UInt8) := do
  let b ← addRule (probeFlow (mask config) (htons config.ofPort1) config.dataMac nwDst)
    ofppInPort 10
  assign b timeoutFields

/-- The messages of the event `SND_FLOW`, one for each flow. -/
def sendFlow (config : Config) : Option (List (List UInt8)) := do
  let (messages, _) ← ruleLoop (flowMessage config) config.flows (inetAddr defaultNetwork)
  some messages

/-! ### handle_traffic_generation -/

/-- The details of the generator; `pktgen` tells whether it is the kernel's. -/
def trafGenDet (config : Config) (pktgen : Bool) : TrafGenDet where
  srcIp := "10.1.1.1".toList
  dstIpMax := inetNtoa
    (htonl ((ntohl (inetAddr "192.168.2.0".toList) + (config.flows - 1)) % 2 ^ 32))
  dstIpMin := "192.168.2.0".toList
  macDst := "00:15:17:7b:92:0a".toList
  macSrc := if pktgen then "00:00:00:00:00:00".toList else macString config.dataMac
  udpSrcPort := 8080
  udpDstPort := 8080
  pktSize := config.pktSize
  vlan := 100
  delay := (config.dataSndInterval * 1000).toUInt32

/-! ### The rules -/

section
variable {config : Config}

theorem mask_lt (config : Config) : mask config < 256 ^ 4 := by
  unfold mask
  split_ifs <;> decide

/-- What `init` is meant to make sure of, and addresses that do not wrap around. -/
structure Sensible (config : Config) : Prop where
  some : 0 < config.flows
  range : 0xC0A80200 + config.flows ≤ 2 ^ 32
  least : 64 ≤ config.pktSize.toNat
  greatest : config.pktSize.toNat ≤ 1500

theorem flowMessage_rule (config : Config) {nwDst : Nat} (small : nwDst < 2 ^ 32) :
    ∃ b, flowMessage config nwDst = some b ∧
      readRule b =
        flowRule (probeFlow (mask config) (htons config.ofPort1) config.dataMac nwDst) := by
  have timeout : 10 < 256 ^ 2 := by decide
  have sized := probeFlow_sized config.ofPort1 (mask_lt config) config.dataMacLength small
  obtain ⟨b, built, length, rule⟩ := build_rule (.flowAdd ofppInPort) sized timeout
  have made : addRule (probeFlow (mask config) (htons config.ofPort1) config.dataMac nwDst)
      ofppInPort 10 = some b := by
    rw [addRule, show makeOfpFlowAdd _ ofppInPort 10 = _ from built]
    rfl
  have room : b.length = 80 := length
  obtain ⟨after, written, -⟩ := assign_inside b timeoutFields (by
    rw [room]
    decide)
  refine ⟨after, ?_, (readRule_assign written (by decide)).trans rule⟩
  rw [flowMessage, made, Option.bind_eq_bind, Option.bind_some, written]

theorem ruleLoop_rules (config : Config) (n : Nat) {nwDst : Nat} (small : nwDst < 2 ^ 32) :
    ∃ messages last, ruleLoop (flowMessage config) n nwDst = some (messages, last) ∧
      messages.length = n ∧
      ∀ (i : Nat) b, messages[i]? = some b →
        readRule b = flowRule (probeFlow (mask config) (htons config.ofPort1) config.dataMac
          (htonl ((ntohl nwDst + i) % 2 ^ 32))) := by
  induction n generalizing nwDst with
  | zero => exact ⟨[], nwDst, rfl, rfl, by simp⟩
  | succ n ih =>
    obtain ⟨b, made, rule⟩ := flowMessage_rule config small
    obtain ⟨rest, last, run, length, rules⟩ := ih (htonl_lt ((ntohl nwDst + 1) % 2 ^ 32))
    rw [ntohl_htonl (Nat.mod_lt _ (by decide))] at rules
    refine ⟨b :: rest, last, ?_, by rw [List.length_cons, length], ?_⟩
    · rw [ruleLoop, made]
      simp only [Option.bind_eq_bind, Option.bind_some, run]
    · rintro (_ | i) other found
      · cases found
        rw [rule, Nat.add_zero, Nat.mod_eq_of_lt (ntohl_lt nwDst),
          show htonl (ntohl nwDst) = nwDst from ntohl_htonl small]
      · rw [rules i other found, Nat.mod_add_mod, Nat.add_assoc, Nat.add_comm 1 i]

/-! ### The traffic -/

theorem trafGenDet_wellFormed (config : Config) (pktgen : Bool) :
    WellFormed (trafGenDet config pktgen) := by
  refine ⟨show (readMacAddr "00:15:17:7b:92:0a".toList).1.length ≤ 6 by decide, ?_⟩
  cases pktgen
  · have octets : (readMacAddr (macString config.dataMac)).1 = config.dataMac :=
      readMacAddr_macString (List.ne_nil_of_length_eq_add_one config.dataMacLength)
    change (readMacAddr (macString config.dataMac)).1.length ≤ 6
    rw [octets, config.dataMacLength]
  · exact show (readMacAddr "00:00:00:00:00:00".toList).1.length ≤ 6 by decide

theorem lowFlow_eq (config : Config) (pktgen : Bool) :
    lowFlow (trafGenDet config pktgen) = 0xC0A80200 :=
  background_address

theorem highFlow_eq (sensible : Sensible config) (pktgen : Bool) :
    highFlow (trafGenDet config pktgen) = 0xC0A80200 + (config.flows - 1) := by
  have range := sensible.range
  have positive := sensible.some
  have high : inetAddr (trafGenDet config pktgen).dstIpMax = _ := inetAddr_inetNtoa (htonl_lt _)
  rw [highFlow, high, background_address, ntohl_htonl (Nat.mod_lt _ (by decide))]
  exact Nat.mod_eq_of_lt (by omega)

theorem flowCount_eq (sensible : Sensible config) (pktgen : Bool) :
    flowCount (trafGenDet config pktgen) = config.flows := by
  have positive := sensible.some
  rw [flowCount, highFlow_eq sensible, lowFlow_eq]
  omega

theorem trafGenDet_usable (sensible : Sensible config) (pktgen : Bool) :
    Usable (trafGenDet config pktgen) := by
  refine ⟨trafGenDet_wellFormed config pktgen, sensible.least, sensible.greatest, ?_⟩
  rw [highFlow_eq sensible, lowFlow_eq]
  exact Nat.le_add_right _ _

theorem headerOf_frame (config : Config) (pktgen : Bool) (inPort : List UInt8) (k : Nat)
    (now : Timeval) :
    let header := headerOf inPort (kthFrame (trafGenDet config pktgen) k now)
    header.dlVlan = [0, 100] ∧ header.dlType = [8, 0] ∧
      header.nwSrc = beBytes 4 (ntohl (inetAddr "10.1.1.1".toList)) ∧
      header.nwDst = beBytes 4 (lowFlow (trafGenDet config pktgen) +
        (k + 1) % flowCount (trafGenDet config pktgen)) := by
  intro header
  unfold header kthFrame
  set probe := probeAt (trafGenDet config pktgen) (k + 1) (k % 2 ^ 32) (now.tvSec % 2 ^ 32).toNat
    (now.tvUsec % 2 ^ 32).toNat with isProbe
  have wellFormed := trafGenDet_wellFormed config pktgen
  have ether : probe.ether.length = 18 := etherHeader_length wellFormed
  have type : etherType (trafGenDet config pktgen) = [0x81, 0, 0, 100, 8, 0] := by
    have control : tci (trafGenDet config pktgen) = [0, 100] :=
      show leBytes 2 (htons (100 : UInt16).toNat / 2 ^ 4 % 2 ^ 12 * 16) = [0, 100] by decide
    have tagged : isTagged (trafGenDet config pktgen) = true := rfl
    rw [etherType, if_pos tagged, control]
    rfl
  have front : ∀ {i}, i + 2 ≤ 6 →
      slice probe.encode (12 + i) 2 = slice [0x81, 0, 0, 100, 8, 0] i 2 := by
    rw [← type]
    exact fun inside => slice_etherType wellFormed rfl inside
  have tag : slice probe.encode 12 2 = [0x81, 0] := front (i := 0) (by decide)
  have tci : slice probe.encode 14 2 = [0, 100] := front (i := 2) (by decide)
  have inner : slice probe.encode 16 2 = [8, 0] := front (i := 4) (by decide)
  have read : headerOf inPort probe.encode = _ :=
    (if_pos tag).trans (headerAt_probe inPort _ _ _ (by decide) ether)
  rw [read, tci, inner]
  exact ⟨rfl, rfl, rfl, rfl⟩

/-! ### Rules and traffic -/

theorem takes_addresses_iff {rule : Rule} {header : Header}
    (wildcards : rule.wildcards = 0x3000EF) :
    Takes rule header ↔ rule.fields.dlType = header.dlType ∧
      beValue rule.fields.nwSrc = beValue header.nwSrc ∧
      beValue rule.fields.nwDst = beValue header.nwDst := by
  have source : rule.wildcards / 2 ^ ofpfwNwSrcShift % 2 ^ 6 = 0 := by rw [wildcards]; decide
  have dest : rule.wildcards / 2 ^ ofpfwNwDstShift % 2 ^ 6 = 0 := by rw [wildcards]; decide
  have set : ∀ i ∈ [0, 1, 2, 3, 5, 6, 7, 20, 21], rule.wildcards.testBit i = true := by
    rw [wildcards]; decide
  have compared : rule.wildcards.testBit 4 = false := by rw [wildcards]; decide
  constructor
  · intro takes
    have nwSrc := takes.nwSrc
    have nwDst := takes.nwDst
    rw [source, SameBlock, Nat.pow_zero, Nat.div_one, Nat.div_one] at nwSrc
    rw [dest, SameBlock, Nat.pow_zero, Nat.div_one, Nat.div_one] at nwDst
    exact ⟨takes.dlType.resolve_left (by rw [compared]; decide), nwSrc, nwDst⟩
  · rintro ⟨dlType, nwSrc, nwDst⟩
    have wild : ∀ {i} {first second : List UInt8}, i ∈ [0, 1, 2, 3, 5, 6, 7, 20, 21] →
        rule.wildcards.testBit i = true ∨ first = second := fun member => .inl (set _ member)
    exact ⟨wild (by decide), wild (by decide), wild (by decide), wild (by decide), .inr dlType,
      wild (by decide), wild (by decide), wild (by decide), congrArg (· / _) nwSrc,
      congrArg (· / _) nwDst, wild (by decide), wild (by decide)⟩

theorem takes_frame_iff (sensible : Sensible config) (pktgen : Bool) (inPort : List UInt8)
    (k : Nat) (now : Timeval) {i : Nat} (inside : i < config.flows) :
    Takes (flowRule (probeFlow (mask config) (htons config.ofPort1) config.dataMac
        (htonl ((ntohl (inetAddr defaultNetwork) + i) % 2 ^ 32))))
        (headerOf inPort (kthFrame (trafGenDet config pktgen) k now)) ↔
      config.table ≠ 0 ∧ (k + 1) % config.flows = i := by
  have range := sensible.range
  have turn := Nat.mod_lt (k + 1) sensible.some
  obtain ⟨dlVlan, dlType, nwSrc, nwDst⟩ := headerOf_frame config pktgen inPort k now
  by_cases table : config.table = 0
  · -- the rule asks for a frame without a tag
    have wildcards : mask config = 0 := if_pos table
    refine iff_of_false (fun takes => ?_) (fun other => other.1 table)
    have compared := takes.dlVlan
    rw [dlVlan] at compared
    change (mask config).testBit 1 = true ∨ leBytes 2 0xffff = [0, 100] at compared
    rw [wildcards] at compared
    revert compared
    decide
  · have wildcards : mask config = 0x3000EF := (if_neg table).trans (by decide)
    have network : ntohl (inetAddr defaultNetwork) = 0xC0A80200 := background_address
    have source : leBytes 4 (inetAddr "10.1.1.1".toList) =
        beBytes 4 (ntohl (inetAddr "10.1.1.1".toList)) := by
      decide +kernel
    have dest : leBytes 4 (htonl (0xC0A80200 + i)) = beBytes 4 (0xC0A80200 + i) :=
      leBytes_swapBytes 4 _
    rw [takes_addresses_iff wildcards, dlType, nwSrc, nwDst, lowFlow_eq,
      flowCount_eq sensible, network, Nat.mod_eq_of_lt (by omega)]
    simp only [flowRule, probeFlow, source, dest]
    rw [beValue_beBytes_of_lt (by omega), beValue_beBytes_of_lt (by omega)]
    constructor
    · rintro ⟨-, -, same⟩
      exact ⟨table, by omega⟩
    · rintro ⟨-, same⟩
      exact ⟨by decide, trivial, by omega⟩

/-- The module installs a rule for each flow, and its generator sends the flows in turn. The rules
with wildcards are each for one flow; those that are meant to match exactly take no frame at all. -/
theorem timer_rules_take_iff (sensible : Sensible config) (timestamp : Timespec) (wait : UInt32)
    (nows : List Timeval) :
    ∃ rules fresh det frames after, sendFlow config = some rules ∧ rules.length = config.flows ∧
      innitializeGeneratorPacket (blank oflopsData1 timestamp) (trafGenDet config false) =
        some (1, fresh, det) ∧
      sendAll wait fresh nows = some (frames, after) ∧ frames.length = nows.length ∧
      ∀ (i : Nat) rule (k : Nat) frame inPort, rules[i]? = some rule → frames[k]? = some frame →
        (Takes (readRule rule) (headerOf inPort frame) ↔ config.table ≠ 0 ∧
          (k + 1) % config.flows = i) := by
  have usable := trafGenDet_usable sensible false
  obtain ⟨rules, last, installed, length, reads⟩ :=
    ruleLoop_rules config config.flows (inetAddr_lt defaultNetwork)
  obtain ⟨fresh, det, built, here⟩ := fresh_at usable oflopsData1 timestamp
  obtain ⟨frames, after, sent, count, packets⟩ := here.sendAll usable wait nows
  refine ⟨rules, fresh, det, frames, after, ?_, length, built, sent, count, ?_⟩
  · rw [sendFlow, installed]
    rfl
  · intro i rule k frame inPort found there
    have inside : i < config.flows := length ▸ (List.getElem?_eq_some_iff.mp found).1
    have read : k < nows.length := count ▸ (List.getElem?_eq_some_iff.mp there).1
    rw [reads i rule found, packets k _ frame (List.getElem?_eq_getElem read) there, Nat.zero_add]
    exact takes_frame_iff sensible false inPort k _ inside

end

def twoFlows : Config where
  flows := 2
  table := 1
  pktSize := 100
  dataSndInterval := 7
  dataMac := [0, 0x1e, 0x68, 0x9a, 0xc5, 0x74]
  dataMacLength := rfl
  ofPort1 := 1

theorem timer_rules_take_iff_two_flows :
    Sensible twoFlows ∧ ∃ rules fresh det frames after, sendFlow twoFlows = some rules ∧
      rules.length = 2 ∧
      innitializeGeneratorPacket (blank oflopsData1 ⟨0, 0⟩) (trafGenDet twoFlows false) =
        some (1, fresh, det) ∧
      sendAll 0 fresh [⟨1400000000, 0⟩] = some (frames, after) ∧ frames.length = 1 ∧
      ∀ first second frame, rules[0]? = some first → rules[1]? = some second →
      frames[0]? = some frame →
        ¬Takes (readRule first) (headerOf [0, 1] frame) ∧
        Takes (readRule second) (headerOf [0, 1] frame) := by
  have sensible : Sensible twoFlows := ⟨by decide, by decide, by decide, by decide⟩
  obtain ⟨rules, fresh, det, frames, after, installed, length, built, sent, count, takes⟩ :=
    timer_rules_take_iff sensible ⟨0, 0⟩ 0 [⟨1400000000, 0⟩]
  refine ⟨sensible, rules, fresh, det, frames, after, installed, length, built, sent, count, ?_⟩
  intro first second frame found found' there
  rw [takes 0 first 0 frame [0, 1] found there, takes 1 second 0 frame [0, 1] found' there]
  decide

end Oflops.FlowTimer.Rules
