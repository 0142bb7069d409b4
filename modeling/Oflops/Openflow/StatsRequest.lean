import Oflops.Lib.Blocks
import Oflops.Openflow.FlowMod

/-! The statistics requests of `msg.c` for flows, and the destination addresses that the match in
one of them stands for. -/

namespace Oflops.Openflow.StatsRequest
open Lib.Bytes Lib.Record Lib.Blocks FlowMod

def ofptStatsRequest : UInt8 := 16
def ofpstFlow : Nat := 1
def ofpstAggregate : Nat := 2
def ofppNone : Nat := 0xffff

def ofpfwInPort : Nat := 1 <<< 0
def ofpfwDlVlan : Nat := 1 <<< 1
def ofpfwDlSrc : Nat := 1 <<< 2
def ofpfwDlDst : Nat := 1 <<< 3
def ofpfwDlType : Nat := 1 <<< 4
def ofpfwNwProto : Nat := 1 <<< 5
def ofpfwTpSrc : Nat := 1 <<< 6
def ofpfwTpDst : Nat := 1 <<< 7
def ofpfwNwSrcShift : Nat := 8
def ofpfwNwDstShift : Nat := 14
def ofpfwDlVlanPcp : Nat := 1 <<< 20
def ofpfwNwTos : Nat := 1 <<< 21
def ofpfwAll : Nat := (1 <<< 22) - 1

/-- `sizeof(struct ofp_stats_request)`; the match follows it. -/
def ofpStatsRequestSize : Nat := 12

/-- `sizeof(struct ofp_flow_stats_request)`, which is that of the aggregate request. -/
def ofpFlowStatsRequestSize : Nat := 44

/-- The assignments the two builders have in common; the port is not converted. -/
def statsRequestFields (len transId statsType : Nat) : List (Nat × List UInt8) :=
  [(0, [ofpVersion]), (1, [ofptStatsRequest]), (2, leBytes 2 (htons len)),
    (4, leBytes 4 (htonl transId)), (8, leBytes 2 (htons statsType)),
    (ofpStatsRequestSize, leBytes 4 (htonl ofpfwAll)), (ofpStatsRequestSize + 40, [0xff]),
    (ofpStatsRequestSize + 42, leBytes 2 ofppNone)]

def makeStatsRequest (transId statsType : Nat) : Option (Nat × List UInt8) := do
  let len := ofpStatsRequestSize + ofpFlowStatsRequestSize
  let b ← assign (List.replicate len 0) (statsRequestFields len transId statsType)
  some (len, b)

def makeOfpFlowGetStat (transId : Nat) : Option (Nat × List UInt8) :=
  makeStatsRequest transId ofpstFlow

def makeOfpAggrFlowStats (transId : Nat) : Option (Nat × List UInt8) :=
  makeStatsRequest transId ofpstAggregate

/-! ### What a switch reads -/

def dstBits (rule : Match) : Nat := rule.wildcards / 2 ^ ofpfwNwDstShift % 2 ^ 6

def MatchesDst (rule : Match) (address : Nat) : Prop :=
  SameBlock (dstBits rule) address (ntohl rule.nwDst)

instance (rule : Match) (address : Nat) : Decidable (MatchesDst rule address) :=
  inferInstanceAs (Decidable (SameBlock _ _ _))

theorem makeStatsRequest_made (transId statsType : Nat) :
    ∃ b, makeStatsRequest transId statsType = some (56, b) ∧ b.length = 56 := by
  have inside : ∀ p ∈ (statsRequestFields 56 transId statsType).map place, p.1 + p.2 ≤ 56 := by
    simp [statsRequestFields, place, ofpStatsRequestSize]
  obtain ⟨b, made, length⟩ := assign_inside (List.replicate 56 (0 : UInt8)) _ (by
    rw [List.length_replicate]
    exact inside)
  refine ⟨b, ?_, length.trans List.length_replicate⟩
  rw [makeStatsRequest]
  exact congrArg (Option.bind · _) made

theorem readMatch_assigned {b : List UInt8} (length : b.length = 56) (wildcards nwDst : Nat) :
    ∃ after, assign b [(ofpStatsRequestSize, leBytes 4 (htonl wildcards)),
        (ofpStatsRequestSize + 32, leBytes 4 nwDst)] = some after ∧
      (readMatch after ofpStatsRequestSize).wildcards = wildcards % 2 ^ 32 ∧
      (readMatch after ofpStatsRequestSize).nwDst = nwDst % 2 ^ 32 := by
  obtain ⟨after, written, -⟩ := assign_inside b
    [(ofpStatsRequestSize, leBytes 4 (htonl wildcards)),
      (ofpStatsRequestSize + 32, leBytes 4 nwDst)] (by simp [place, ofpStatsRequestSize, length])
  have apart : ([(ofpStatsRequestSize, leBytes 4 (htonl wildcards)),
      (ofpStatsRequestSize + 32, leBytes 4 nwDst)].map place).Pairwise Apart := by
    simp [place, Apart]
  refine ⟨after, written, ?_, ?_⟩
  · exact beValue_field (slice_assign written apart (by simp [htonl]) (leBytes_length 4 _))
  · have field : slice after (ofpStatsRequestSize + 32) 4 = leBytes 4 nwDst :=
      slice_assign written apart (by simp) (leBytes_length 4 _)
    change leValue (slice after (ofpStatsRequestSize + 32) 4) = _
    rw [field, leValue_leBytes]
    rfl

end Oflops.Openflow.StatsRequest
