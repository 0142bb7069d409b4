import Oflops.Openflow.FlowMod
import Oflops.Openflow.Matching

/-! The rules in the messages that the builders of `msg.c` make, and the headers of the probes that
a switch compares with them. -/

namespace Oflops.Openflow.Rules
open Lib.Bytes Lib.Record Traffic.Wire FlowMod Matching
open Traffic.Decode (Flow slice_ether)

/-- The port of an OUTPUT action that stands for the one a frame came from. -/
def ofppInPort : Nat := 0xfff8

theorem beBytes_inj {n x y : Nat} (first : x < 256 ^ n) (second : y < 256 ^ n)
    (same : beBytes n x = beBytes n y) :
    x = y := leBytes_inj first second (List.reverse_injective same)

theorem slice_eq_leBytes {b : List UInt8} {offset width : Nat} (inside : offset + width ≤ b.length)
    {x : Nat} (value : leValue (slice b offset width) = x) :
    slice b offset width = leBytes width x := by
  have bytes := leBytes_leValue (slice b offset width)
  rwa [slice_length inside, value, eq_comm] at bytes

theorem build_blank {flow : Flow} {idleTimeout n : Nat} {builder : Builder} {b : List UInt8}
    (sized : Sized flow) (built : builder.build flow idleTimeout = some (n, b)) :
    slice b 28 1 = [0] ∧ slice b 32 1 = [0] := by
  rw [build_eq] at built
  obtain ⟨ofm, made, built⟩ := Option.bind_eq_some_iff.mp built
  obtain ⟨written, assigned, built⟩ := Option.bind_eq_some_iff.mp built
  cases built
  have blank : ∀ i, i + 1 ≤ 56 →
      (∀ p ∈ (makeFlowModFields builder.command builder.size flow).map place, Apart (i, 1) p) →
      slice b i 1 = slice (List.replicate builder.size (0 : UInt8)) i 1 := by
    intro i front apart
    rw [slice_front assigned front, slice_assign_apart made apart]
  have zero : ∀ i, i + 1 ≤ 56 → slice (List.replicate builder.size (0 : UInt8)) i 1 = [0] := by
    intro i front
    have room : 1 ≤ builder.size - i := by
      unfold Builder.size ofpFlowModSize
      omega
    rw [slice, List.drop_replicate, List.take_replicate, Nat.min_eq_left room]
    rfl
  constructor
  · rw [blank 28 (by decide) (by rw [makeFlowModFields_places sized]; decide), zero 28 (by decide)]
  · rw [blank 32 (by decide) (by rw [makeFlowModFields_places sized]; decide), zero 32 (by decide)]

theorem readRule_eq {b : List UInt8} (long : 48 ≤ b.length) {rule : Match}
    (reads : readMatch b 8 = rule) (pcp : slice b 28 1 = [0]) (tos : slice b 32 1 = [0]) :
    readRule b =
      { wildcards := rule.wildcards
        fields :=
          { inPort := leBytes 2 rule.inPort
            dlSrc := rule.dlSrc
            dlDst := rule.dlDst
            dlVlan := leBytes 2 rule.dlVlan
            dlVlanPcp := [0]
            dlType := leBytes 2 rule.dlType
            nwTos := [0]
            nwProto := leBytes 1 rule.nwProto
            nwSrc := leBytes 4 rule.nwSrc
            nwDst := leBytes 4 rule.nwDst
            tpSrc := leBytes 2 rule.tpSrc
            tpDst := leBytes 2 rule.tpDst } } := by
  subst reads
  have field : ∀ {offset width : Nat}, offset + width ≤ 48 →
      slice b offset width = leBytes width (leValue (slice b offset width)) :=
    fun inside => slice_eq_leBytes (inside.trans long) rfl
  simp only [readRule, readMatch, Nat.reduceAdd, pcp, tos, Rule.mk.injEq, Header.mk.injEq, true_and]
  exact ⟨field (by decide), field (by decide), field (by decide), field (by decide),
    field (by decide), field (by decide), field (by decide), field (by decide)⟩

def flowRule (flow : Flow) : Rule where
  wildcards := flow.mask
  fields :=
    { inPort := leBytes 2 flow.inPort
      dlSrc := flow.dlSrc
      dlDst := flow.dlDst
      dlVlan := leBytes 2 flow.dlVlan
      dlVlanPcp := [0]
      dlType := leBytes 2 flow.dlType
      nwTos := [0]
      nwProto := leBytes 1 flow.nwProto
      nwSrc := leBytes 4 flow.nwSrc
      nwDst := leBytes 4 flow.nwDst
      tpSrc := leBytes 2 flow.tpSrc
      tpDst := leBytes 2 flow.tpDst }

theorem build_rule {flow : Flow} {idleTimeout : Nat} (builder : Builder) (sized : Sized flow)
    (timeout : idleTimeout < 256 ^ 2) :
    ∃ b, builder.build flow idleTimeout = some (builder.size, b) ∧ b.length = builder.size ∧
      readRule b = flowRule flow := by
  obtain ⟨b, built, length, reads⟩ := build_reads builder sized timeout
  obtain ⟨pcp, tos⟩ := build_blank sized built
  have long : 48 ≤ b.length := by
    rw [length, Builder.size, ofpFlowModSize]
    omega
  exact ⟨b, built, length, readRule_eq long (congrArg Message.rule reads) pcp tos⟩

theorem readRule_assign {b after : List UInt8} {fields : List (Nat × List UInt8)}
    (written : assign b fields = some after) (behind : ∀ p ∈ fields.map place, 48 ≤ p.1) :
    readRule after = readRule b := by
  have kept : ∀ {i width : Nat}, i + width ≤ 48 → slice after i width = slice b i width :=
    fun front => slice_assign_apart written fun p member => Or.inl (front.trans (behind p member))
  simp only [readRule, Rule.mk.injEq, Header.mk.injEq]
  refine ⟨?_, ?_, ?_, ?_, ?_, ?_, ?_, ?_, ?_, ?_, ?_, ?_, ?_⟩ <;> rw [kept (by decide)]

theorem headerAt_probe (inPort dlVlan dlVlanPcp dlType : List UInt8) {probe : Probe} {base : Nat}
    (header : 12 ≤ base) (ether : probe.ether.length = base) :
    headerAt inPort probe.encode dlVlan dlVlanPcp dlType base =
      { inPort, dlVlan, dlVlanPcp, dlType
        dlSrc := slice probe.ether 6 6
        dlDst := slice probe.ether 0 6
        nwTos := [0]
        nwProto := [17]
        nwSrc := beBytes 4 probe.saddr
        nwDst := beBytes 4 probe.daddr
        tpSrc := beBytes 2 probe.sport
        tpDst := beBytes 2 probe.dport } := by
  subst ether
  have service : slice probe.encode (probe.ether.length + 1) 1 = [0] := probe.slice_ip (by decide)
  have protocol : slice probe.encode (probe.ether.length + 9) 1 = [17] := probe.slice_ip (by decide)
  have tp : 4 * (beValue [0x45] % 2 ^ 4) = 20 := rfl
  have dport : slice probe.encode (probe.ether.length + 20 + 2) 2 = beBytes 2 probe.dport :=
    probe.encode_dport
  have tos : beBytes 1 (beValue [0] / 4 * 4) = [0] := rfl
  unfold headerAt
  rw [probe.encode_version]
  simp only [tp, service, protocol, probe.encode_saddr, probe.encode_daddr,
    probe.encode_sport, dport, tos]
  rw [slice_ether probe (by omega), slice_ether probe (by omega)]

end Oflops.Openflow.Rules
