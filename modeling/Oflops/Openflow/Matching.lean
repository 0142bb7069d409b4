import Mathlib.Tactic.MkIffOfInductiveProp
import Oflops.Openflow.StatsRequest

/-! What an OpenFlow 1.0 switch compares when it looks up a frame: the header fields, as they stand
on the wire, with those of a rule. The frames are IP packets of a transport protocol with ports. -/

namespace Oflops.Openflow.Matching
open Lib.Bytes Lib.Record Lib.Blocks StatsRequest

/-- The fields of `struct ofp_match` other than the wildcards, in network order. -/
@[ext]
structure Header where
  inPort : List UInt8
  dlSrc : List UInt8
  dlDst : List UInt8
  dlVlan : List UInt8
  dlVlanPcp : List UInt8
  dlType : List UInt8
  nwTos : List UInt8
  nwProto : List UInt8
  nwSrc : List UInt8
  nwDst : List UInt8
  tpSrc : List UInt8
  tpDst : List UInt8
  deriving DecidableEq, Repr

structure Rule where
  wildcards : Nat
  fields : Header
  deriving DecidableEq, Repr

def readRule (message : List UInt8) : Rule where
  wildcards := beValue (slice message 8 4)
  fields :=
    { inPort := slice message 12 2
      dlSrc := slice message 14 6
      dlDst := slice message 20 6
      dlVlan := slice message 26 2
      dlVlanPcp := slice message 28 1
      dlType := slice message 30 2
      nwTos := slice message 32 1
      nwProto := slice message 33 1
      nwSrc := slice message 36 4
      nwDst := slice message 40 4
      tpSrc := slice message 44 2
      tpDst := slice message 46 2 }

/-- The header of a frame that has its IP header at this offset. -/
def headerAt (inPort frame dlVlan dlVlanPcp dlType : List UInt8) (ip : Nat) : Header :=
  let tp := ip + 4 * (beValue (slice frame ip 1) % 2 ^ 4)
  { inPort, dlVlan, dlVlanPcp, dlType
    dlSrc := slice frame 6 6
    dlDst := slice frame 0 6
    nwTos := beBytes 1 (beValue (slice frame (ip + 1) 1) / 4 * 4)
    nwProto := slice frame (ip + 9) 1
    nwSrc := slice frame (ip + 12) 4
    nwDst := slice frame (ip + 16) 4
    tpSrc := slice frame tp 2
    tpDst := slice frame (tp + 2) 2 }

/-- A frame without a tag has the VLAN `OFP_VLAN_NONE`; one with a tag has its identifier and
priority, and the type behind the tag. -/
def headerOf (inPort frame : List UInt8) : Header :=
  if slice frame 12 2 = [0x81, 0] then
    let tci := beValue (slice frame 14 2)
    headerAt inPort frame (beBytes 2 (tci % 2 ^ 12)) (beBytes 1 (tci / 2 ^ 13))
      (slice frame 16 2) 18
  else headerAt inPort frame [0xff, 0xff] [0] (slice frame 12 2) 14

/-- Fields whose wildcard is set are not compared, and of the addresses only the bits in front of
the number of bits given. -/
@[mk_iff]
structure Takes (rule : Rule) (header : Header) : Prop where
  inPort : rule.wildcards.testBit 0 = true ∨ rule.fields.inPort = header.inPort
  dlVlan : rule.wildcards.testBit 1 = true ∨ rule.fields.dlVlan = header.dlVlan
  dlSrc : rule.wildcards.testBit 2 = true ∨ rule.fields.dlSrc = header.dlSrc
  dlDst : rule.wildcards.testBit 3 = true ∨ rule.fields.dlDst = header.dlDst
  dlType : rule.wildcards.testBit 4 = true ∨ rule.fields.dlType = header.dlType
  nwProto : rule.wildcards.testBit 5 = true ∨ rule.fields.nwProto = header.nwProto
  tpSrc : rule.wildcards.testBit 6 = true ∨ rule.fields.tpSrc = header.tpSrc
  tpDst : rule.wildcards.testBit 7 = true ∨ rule.fields.tpDst = header.tpDst
  nwSrc : SameBlock (rule.wildcards / 2 ^ ofpfwNwSrcShift % 2 ^ 6) (beValue rule.fields.nwSrc)
    (beValue header.nwSrc)
  nwDst : SameBlock (rule.wildcards / 2 ^ ofpfwNwDstShift % 2 ^ 6) (beValue rule.fields.nwDst)
    (beValue header.nwDst)
  dlVlanPcp : rule.wildcards.testBit 20 = true ∨ rule.fields.dlVlanPcp = header.dlVlanPcp
  nwTos : rule.wildcards.testBit 21 = true ∨ rule.fields.nwTos = header.nwTos

instance (rule : Rule) (header : Header) : Decidable (Takes rule header) :=
  decidable_of_iff' _ (takes_iff rule header)

theorem takes_exact_iff {rule : Rule} {header : Header} (exact' : rule.wildcards = 0)
    (src : rule.fields.nwSrc.length = header.nwSrc.length)
    (dst : rule.fields.nwDst.length = header.nwDst.length) :
    Takes rule header ↔ rule.fields = header := by
  have compared : ∀ i (first second : List UInt8), rule.wildcards.testBit i = true ∨
      first = second → first = second := by
    intro i first second either
    rw [exact', Nat.zero_testBit] at either
    exact either.resolve_left Bool.false_ne_true
  have whole : ∀ shift a b, SameBlock (rule.wildcards / 2 ^ shift % 2 ^ 6) a b → a = b := by
    intro shift a b same
    rwa [exact', Nat.zero_div, Nat.zero_mod, SameBlock, Nat.pow_zero, Nat.div_one,
      Nat.div_one] at same
  constructor
  · intro takes
    apply Header.ext
    · exact compared 0 _ _ takes.inPort
    · exact compared 2 _ _ takes.dlSrc
    · exact compared 3 _ _ takes.dlDst
    · exact compared 1 _ _ takes.dlVlan
    · exact compared 20 _ _ takes.dlVlanPcp
    · exact compared 4 _ _ takes.dlType
    · exact compared 21 _ _ takes.nwTos
    · exact compared 5 _ _ takes.nwProto
    · exact beValue_inj src (whole _ _ _ takes.nwSrc)
    · exact beValue_inj dst (whole _ _ _ takes.nwDst)
    · exact compared 6 _ _ takes.tpSrc
    · exact compared 7 _ _ takes.tpDst
  · rintro rfl
    exact ⟨.inr rfl, .inr rfl, .inr rfl, .inr rfl, .inr rfl, .inr rfl, .inr rfl, .inr rfl, rfl,
      rfl, .inr rfl, .inr rfl⟩

end Oflops.Openflow.Matching
