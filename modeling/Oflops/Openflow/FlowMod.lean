import Oflops.Traffic.Decode

/-! The flow modification messages of `msg.c`, written field by field into a buffer with the
layout of `struct ofp_flow_mod`, and read back with it. -/

namespace Oflops.Openflow.FlowMod
open Lib.Bytes Lib.Record Traffic.Decode

def ofpVersion : UInt8 := 1
def ofptFlowMod : UInt8 := 14

/-- `OFP_NO_BUFFER`: the frame of a message is in none of the buffers. -/
def noBuffer : Nat := 0xffffffff

def ofpfcAdd : Nat := 0
def ofpfcModify : Nat := 1

def ofpFlowPermanent : Nat := 0
def ofpffSendFlowRem : Nat := 1
def ofpatOutput : Nat := 0

/-- `sizeof(struct ofp_flow_mod)`, without actions. -/
def ofpFlowModSize : Nat := 72
def ofpActionOutputSize : Nat := 8

/-- The assignments of `make_flow_mod`. Only the mask is converted; the other fields of a flow
are in network order already. -/
def makeFlowModFields (command len : Nat) (flow : Flow) : List (Nat × List UInt8) :=
  [(0, [ofpVersion]), (1, [ofptFlowMod]), (2, leBytes 2 (htons len)),
    (8, leBytes 4 (htonl flow.mask)), (12, leBytes 2 flow.inPort), (14, flow.dlSrc),
    (20, flow.dlDst), (26, leBytes 2 flow.dlVlan), (30, leBytes 2 flow.dlType),
    (36, leBytes 4 flow.nwSrc), (40, leBytes 4 flow.nwDst), (33, leBytes 1 flow.nwProto),
    (44, leBytes 2 flow.tpSrc), (46, leBytes 2 flow.tpDst), (56, leBytes 2 (htons command))]

def makeFlowMod (command len : Nat) (flow : Flow) : Option (List UInt8) :=
  assign (List.replicate len 0) (makeFlowModFields command len flow)

/-- The assignments the three builders have in common; `buffer_id` is not used. -/
def timeoutFields (idleTimeout : Nat) : List (Nat × List UInt8) :=
  [(58, leBytes 2 (htons idleTimeout)), (60, leBytes 2 (htons ofpFlowPermanent)),
    (64, leBytes 4 (htonl 0xffffffff)), (56, leBytes 2 (htons ofpfcAdd))]

/-- The assignments to the action, a `struct ofp_action_output`. -/
def outputFields (outPort : Nat) : List (Nat × List UInt8) :=
  [(72, leBytes 2 (htons ofpatOutput)), (74, leBytes 2 (htons 8)), (76, leBytes 2 (htons outPort)),
    (78, leBytes 2 (htons 2000))]

def flowAddFields (outPort idleTimeout : Nat) : List (Nat × List UInt8) :=
  timeoutFields idleTimeout ++
    [(62, leBytes 2 (htons 1000)), (70, leBytes 2 (htons ofpffSendFlowRem))] ++ outputFields outPort

/-- The byte count returned and the buffer. -/
def makeOfpFlowAdd (fl : Flow) (outPort idleTimeout : Nat) : Option (Nat × List UInt8) := do
  let len := ofpFlowModSize + ofpActionOutputSize
  let ofm ← makeFlowMod ofpfcAdd len fl
  let ofm ← assign ofm (flowAddFields outPort idleTimeout)
  some (len, ofm)

def flowModifyOutputPortFields (outPort idleTimeout : Nat) : List (Nat × List UInt8) :=
  timeoutFields idleTimeout ++ [(70, leBytes 2 (htons ofpffSendFlowRem))] ++ outputFields outPort

def makeOfpFlowModifyOutputPort (fl : Flow) (outPort idleTimeout : Nat) :
    Option (Nat × List UInt8) := do
  let len := ofpFlowModSize + ofpActionOutputSize
  let ofm ← makeFlowMod ofpfcModify len fl
  let ofm ← assign ofm (flowModifyOutputPortFields outPort idleTimeout)
  some (len, ofm)

def flowModifyFields (actions : List UInt8) (idleTimeout : Nat) : List (Nat × List UInt8) :=
  (ofpFlowModSize, actions) :: timeoutFields idleTimeout

def makeOfpFlowModify (fl : Flow) (actions : List UInt8) (idleTimeout : Nat) :
    Option (Nat × List UInt8) := do
  let len := ofpFlowModSize + actions.length
  let ofm ← makeFlowMod ofpfcModify len fl
  let ofm ← assign ofm (flowModifyFields actions idleTimeout)
  some (len, ofm)

/-! ### What a switch reads -/

structure Match where
  wildcards : Nat
  inPort : Nat
  dlSrc : List UInt8
  dlDst : List UInt8
  dlVlan : Nat
  dlType : Nat
  nwProto : Nat
  nwSrc : Nat
  nwDst : Nat
  tpSrc : Nat
  tpDst : Nat
  deriving DecidableEq, Repr

structure Message where
  length : Nat
  rule : Match
  command : Nat
  idleTimeout : Nat
  actions : List UInt8
  deriving DecidableEq, Repr

/-- The fields of a match at `offset`: the wildcards in network order, the others as they are. -/
def readMatch (b : List UInt8) (offset : Nat) : Match where
  wildcards := beValue (slice b offset 4)
  inPort := leValue (slice b (offset + 4) 2)
  dlSrc := slice b (offset + 6) 6
  dlDst := slice b (offset + 12) 6
  dlVlan := leValue (slice b (offset + 18) 2)
  dlType := leValue (slice b (offset + 22) 2)
  nwProto := leValue (slice b (offset + 25) 1)
  nwSrc := leValue (slice b (offset + 28) 4)
  nwDst := leValue (slice b (offset + 32) 4)
  tpSrc := leValue (slice b (offset + 36) 2)
  tpDst := leValue (slice b (offset + 38) 2)

def readFlowMod (b : List UInt8) : Message where
  length := beValue (slice b 2 2)
  rule := readMatch b 8
  command := beValue (slice b 56 2)
  idleTimeout := beValue (slice b 58 2)
  actions := b.drop ofpFlowModSize

def ruleOf (flow : Flow) : Match where
  wildcards := flow.mask
  inPort := flow.inPort
  dlSrc := flow.dlSrc
  dlDst := flow.dlDst
  dlVlan := flow.dlVlan
  dlType := flow.dlType
  nwProto := flow.nwProto
  nwSrc := flow.nwSrc
  nwDst := flow.nwDst
  tpSrc := flow.tpSrc
  tpDst := flow.tpDst

/-- The fields of `struct flow` have the widths of their C types. -/
structure Sized (flow : Flow) : Prop where
  mask : flow.mask < 256 ^ 4
  inPort : flow.inPort < 256 ^ 2
  dlSrc : flow.dlSrc.length = 6
  dlDst : flow.dlDst.length = 6
  dlVlan : flow.dlVlan < 256 ^ 2
  dlType : flow.dlType < 256 ^ 2
  nwProto : flow.nwProto < 256 ^ 1
  nwSrc : flow.nwSrc < 256 ^ 4
  nwDst : flow.nwDst < 256 ^ 4
  tpSrc : flow.tpSrc < 256 ^ 2
  tpDst : flow.tpDst < 256 ^ 2

/-- A builder with the arguments that make up its actions. -/
inductive Builder where
  | flowAdd (outPort : Nat)
  | flowModifyOutputPort (outPort : Nat)
  | flowModify (actions : List UInt8)

namespace Builder

def build (flow : Flow) (idleTimeout : Nat) : Builder → Option (Nat × List UInt8)
  | .flowAdd outPort => makeOfpFlowAdd flow outPort idleTimeout
  | .flowModifyOutputPort outPort => makeOfpFlowModifyOutputPort flow outPort idleTimeout
  | .flowModify actions => makeOfpFlowModify flow actions idleTimeout

def command : Builder → Nat
  | .flowAdd _ => ofpfcAdd
  | .flowModifyOutputPort _ | .flowModify _ => ofpfcModify

/-- An OUTPUT action of 8 bytes to the port, or the actions given. -/
def actions : Builder → List UInt8
  | .flowAdd outPort | .flowModifyOutputPort outPort =>
      beBytes 2 ofpatOutput ++ beBytes 2 8 ++ beBytes 2 outPort ++ beBytes 2 2000
  | .flowModify actions => actions

def fields (idleTimeout : Nat) : Builder → List (Nat × List UInt8)
  | .flowAdd outPort => flowAddFields outPort idleTimeout
  | .flowModifyOutputPort outPort => flowModifyOutputPortFields outPort idleTimeout
  | .flowModify actions => flowModifyFields actions idleTimeout

def size (builder : Builder) : Nat := ofpFlowModSize + builder.actions.length

end Builder

/-- The message that is built has the size returned and reads back as its arguments, with this
command. -/
def EncodesArguments (flow : Flow) (idleTimeout : Nat) (builder : Builder) (command : Nat) : Prop :=
  ∃ n b, builder.build flow idleTimeout = some (n, b) ∧ b.length = n ∧
    readFlowMod b = ⟨n, ruleOf flow, command, idleTimeout, builder.actions⟩

/-! ### The two halves of a builder -/

theorem build_eq (flow : Flow) (idleTimeout : Nat) (builder : Builder) :
    builder.build flow idleTimeout =
      (makeFlowMod builder.command builder.size flow).bind fun ofm =>
        (assign ofm (builder.fields idleTimeout)).bind fun b => some (builder.size, b) := by
  cases builder <;> rfl

theorem leValue_field {width x : Nat} {field : List UInt8} (small : x < 256 ^ width)
    (written : field = leBytes width x) : leValue field = x := by
  rw [written, leValue_leBytes, Nat.mod_eq_of_lt small]

theorem beValue_field {width x : Nat} {field : List UInt8}
    (written : field = leBytes width (swapBytes width x)) : beValue field = x % 256 ^ width := by
  rw [written, leBytes_swapBytes, beValue_beBytes]

section
variable {flow : Flow} {command len : Nat} {ofm : List UInt8}

theorem makeFlowModFields_places (sized : Sized flow) :
    (makeFlowModFields command len flow).map place =
      [(0, 1), (1, 1), (2, 2), (8, 4), (12, 2), (14, 6), (20, 6), (26, 2), (30, 2),
        (36, 4), (40, 4), (33, 1), (44, 2), (46, 2), (56, 2)] := by
  simp [makeFlowModFields, place, sized.dlSrc, sized.dlDst]

theorem makeFlowModFields_apart (sized : Sized flow) :
    ((makeFlowModFields command len flow).map place).Pairwise Apart := by
  rw [makeFlowModFields_places sized]
  decide

theorem makeFlowMod_inside (command : Nat) (sized : Sized flow) (room : ofpFlowModSize ≤ len) :
    ∃ ofm, makeFlowMod command len flow = some ofm ∧ ofm.length = len := by
  have within : ∀ p ∈ (makeFlowModFields command len flow).map place,
      p.1 + p.2 ≤ ofpFlowModSize := by
    rw [makeFlowModFields_places sized]
    decide
  obtain ⟨ofm, made, length⟩ := assign_inside (List.replicate len (0 : UInt8)) _
    fun p mem => (within p mem).trans (room.trans_eq List.length_replicate.symm)
  exact ⟨ofm, made, length.trans List.length_replicate⟩

theorem makeFlowMod_length (sized : Sized flow) (made : makeFlowMod command len flow = some ofm) :
    beValue (slice ofm 2 2) = len % 256 ^ 2 :=
  beValue_field (slice_assign made (makeFlowModFields_apart sized)
    (by simp [makeFlowModFields, htons]) (leBytes_length 2 _))

theorem makeFlowMod_rule (sized : Sized flow) (made : makeFlowMod command len flow = some ofm) :
    readMatch ofm 8 = ruleOf flow := by
  have read : ∀ {i width : Nat} {field : List UInt8},
      (i, field) ∈ makeFlowModFields command len flow → field.length = width →
      slice ofm i width = field := slice_assign made (makeFlowModFields_apart sized)
  have number : ∀ {i width x : Nat}, (i, leBytes width x) ∈ makeFlowModFields command len flow →
      x < 256 ^ width → leValue (slice ofm i width) = x :=
    fun mem small => leValue_field small (read mem (leBytes_length _ _))
  have wildcards : beValue (slice ofm 8 4) = flow.mask := by
    rw [beValue_field (x := flow.mask)
      (read (by simp [makeFlowModFields, htonl]) (leBytes_length 4 _)),
      Nat.mod_eq_of_lt sized.mask]
  simp only [readMatch, ruleOf, Match.mk.injEq]
  refine ⟨wildcards, number ?_ sized.inPort, read ?_ sized.dlSrc, read ?_ sized.dlDst,
    number ?_ sized.dlVlan, number ?_ sized.dlType, number ?_ sized.nwProto, number ?_ sized.nwSrc,
    number ?_ sized.nwDst, number ?_ sized.tpSrc, number ?_ sized.tpDst⟩ <;>
    simp [makeFlowModFields]

end

section
variable {idleTimeout : Nat} {builder : Builder} {ofm b : List UInt8}

def Builder.places : Builder → List (Nat × Nat)
  | .flowAdd _ =>
    [(58, 2), (60, 2), (64, 4), (56, 2), (62, 2), (70, 2), (72, 2), (74, 2), (76, 2), (78, 2)]
  | .flowModifyOutputPort _ =>
    [(58, 2), (60, 2), (64, 4), (56, 2), (70, 2), (72, 2), (74, 2), (76, 2), (78, 2)]
  | .flowModify actions => [(72, actions.length), (58, 2), (60, 2), (64, 4), (56, 2)]

theorem fields_places : (builder.fields idleTimeout).map place = builder.places := by
  cases builder <;> rfl

theorem fields_behind : ∀ p ∈ (builder.fields idleTimeout).map place, 56 ≤ p.1 := by
  rw [fields_places]
  cases builder <;> simp [Builder.places]

theorem fields_apart : ((builder.fields idleTimeout).map place).Pairwise Apart := by
  have timeouts : [(58, 2), (60, 2), (64, 4), (56, 2)].Pairwise Apart := by decide
  have before : ∀ p ∈ [(58, 2), (60, 2), (64, 4), (56, 2)], p.1 + p.2 ≤ 72 := by decide
  rw [fields_places]
  cases builder with
  | flowAdd outPort =>
    simp only [Builder.places]
    decide
  | flowModifyOutputPort outPort =>
    simp only [Builder.places]
    decide
  | flowModify actions =>
    exact List.pairwise_cons.mpr ⟨fun p member => Or.inr (before p member), timeouts⟩

theorem fields_inside : ∀ p ∈ (builder.fields idleTimeout).map place, p.1 + p.2 ≤ builder.size := by
  have before : ∀ p ∈ [(58, 2), (60, 2), (64, 4), (56, 2)], p.1 + p.2 ≤ ofpFlowModSize := by decide
  rw [fields_places]
  cases builder with
  | flowAdd outPort =>
    rw [show (Builder.flowAdd outPort).size = 80 from rfl]
    simp only [Builder.places]
    decide
  | flowModifyOutputPort outPort =>
    rw [show (Builder.flowModifyOutputPort outPort).size = 80 from rfl]
    simp only [Builder.places]
    decide
  | flowModify actions =>
    refine List.forall_mem_cons.mpr ⟨Nat.le_refl _, fun p member => ?_⟩
    exact (before p member).trans (Nat.le_add_right _ _)

theorem timeoutFields_subset : timeoutFields idleTimeout ⊆ builder.fields idleTimeout := by
  cases builder with
  | flowAdd outPort => exact List.subset_append_of_subset_left _ (List.subset_append_left _ _)
  | flowModifyOutputPort outPort =>
    exact List.subset_append_of_subset_left _ (List.subset_append_left _ _)
  | flowModify actions => exact List.subset_cons_self _ _

theorem slice_front (written : assign ofm (builder.fields idleTimeout) = some b) {i width : Nat}
    (front : i + width ≤ 56) : slice b i width = slice ofm i width :=
  slice_assign_apart written fun p mem => Or.inl (front.trans (fields_behind p mem))

theorem readMatch_front (written : assign ofm (builder.fields idleTimeout) = some b) :
    readMatch b 8 = readMatch ofm 8 := by
  simp only [readMatch, Match.mk.injEq]
  refine ⟨?_, ?_, ?_, ?_, ?_, ?_, ?_, ?_, ?_, ?_, ?_⟩ <;> rw [slice_front written (by decide)]

/-- Whatever was asked for, the command is overwritten with ADD. -/
theorem command_field (written : assign ofm (builder.fields idleTimeout) = some b) :
    beValue (slice b 56 2) = ofpfcAdd :=
  beValue_field (x := ofpfcAdd) (slice_assign written fields_apart
    (timeoutFields_subset (by simp [timeoutFields, htons])) (leBytes_length 2 _))

theorem idle_field (written : assign ofm (builder.fields idleTimeout) = some b)
    (small : idleTimeout < 256 ^ 2) : beValue (slice b 58 2) = idleTimeout := by
  rw [beValue_field (x := idleTimeout) (slice_assign written fields_apart
    (timeoutFields_subset (by simp [timeoutFields, htons])) (leBytes_length 2 _)),
    Nat.mod_eq_of_lt small]

theorem output_field {outPort : Nat} (written : assign ofm (builder.fields idleTimeout) = some b)
    (among : ∀ field ∈ outputFields outPort, field ∈ builder.fields idleTimeout)
    (length : b.length = 80) :
    b.drop 72 = beBytes 2 ofpatOutput ++ beBytes 2 8 ++ beBytes 2 outPort ++ beBytes 2 2000 := by
  have read : ∀ {i x : Nat}, (i, leBytes 2 (htons x)) ∈ outputFields outPort →
      slice b i 2 = beBytes 2 x := by
    intro i x mem
    rw [slice_assign written fields_apart (among _ mem) (leBytes_length 2 _), htons,
      leBytes_swapBytes]
  rw [drop_eq_slice_append b 72 2, drop_eq_slice_append b 74 2, drop_eq_slice_append b 76 2,
    drop_eq_slice_append b 78 2, List.drop_eq_nil_of_le length.le, List.append_nil,
    read (i := 72) (x := ofpatOutput) (by simp [outputFields]),
    read (i := 74) (x := 8) (by simp [outputFields]),
    read (i := 76) (x := outPort) (by simp [outputFields]),
    read (i := 78) (x := 2000) (by simp [outputFields])]
  simp only [List.append_assoc]

theorem actions_field (written : assign ofm (builder.fields idleTimeout) = some b)
    (length : b.length = builder.size) : b.drop ofpFlowModSize = builder.actions := by
  cases builder with
  | flowAdd outPort =>
    exact output_field written (fun field mem => List.mem_append_right _ mem) length
  | flowModifyOutputPort outPort =>
    exact output_field written (fun field mem => List.mem_append_right _ mem) length
  | flowModify actions =>
    have whole : slice b ofpFlowModSize actions.length = actions :=
      slice_assign written fields_apart List.mem_cons_self rfl
    rw [slice, List.take_of_length_le] at whole
    · exact whole
    · rw [List.length_drop, length, Builder.size, Nat.add_sub_cancel_left]
      exact le_rfl

end

theorem build_reads {flow : Flow} {idleTimeout : Nat} (builder : Builder) (sized : Sized flow)
    (timeout : idleTimeout < 256 ^ 2) :
    ∃ b, builder.build flow idleTimeout = some (builder.size, b) ∧ b.length = builder.size ∧
      readFlowMod b =
        ⟨builder.size % 256 ^ 2, ruleOf flow, ofpfcAdd, idleTimeout, builder.actions⟩ := by
  obtain ⟨ofm, made, size⟩ := makeFlowMod_inside builder.command sized
    (Nat.le_add_right ofpFlowModSize builder.actions.length)
  obtain ⟨b, written, length⟩ := assign_inside ofm (builder.fields idleTimeout) (by
      rw [size]
      exact fields_inside)
  refine ⟨b, ?_, length.trans size, ?_⟩
  · rw [build_eq]
    simp only [Builder.size] at written ⊢
    rw [made, Option.bind_some, written, Option.bind_some]
  · rw [readFlowMod, slice_front written (by decide), makeFlowMod_length sized made,
      readMatch_front written, makeFlowMod_rule sized made, command_field written,
      idle_field written timeout, actions_field written (length.trans size)]
    rfl

theorem encodes_iff {flow : Flow} {idleTimeout : Nat} (builder : Builder) (command : Nat)
    (sized : Sized flow) (timeout : idleTimeout < 256 ^ 2) :
    EncodesArguments flow idleTimeout builder command ↔
      command = ofpfcAdd ∧ builder.size < 256 ^ 2 := by
  obtain ⟨b, built, length, reads⟩ := build_reads builder sized timeout
  constructor
  · rintro ⟨n, b', built', -, reads'⟩
    rw [built, Option.some.injEq, Prod.mk.injEq] at built'
    obtain ⟨rfl, rfl⟩ := built'
    rw [reads, Message.mk.injEq] at reads'
    exact ⟨reads'.2.2.1.symm, reads'.1 ▸ Nat.mod_lt _ (by decide)⟩
  · rintro ⟨rfl, small⟩
    exact ⟨_, b, built, length, reads.trans (by rw [Nat.mod_eq_of_lt small])⟩

/-- Only `make_ofp_flow_add` makes the message it asks for: the other two builders send ADD in
place of MODIFY. -/
theorem encodes_arguments_iff (flow : Flow) (idleTimeout : Nat) (builder : Builder)
    (sized : Sized flow) (timeout : idleTimeout < 2 ^ 16) :
    EncodesArguments flow idleTimeout builder builder.command ↔
      ∃ outPort, builder = .flowAdd outPort := by
  rw [encodes_iff builder builder.command sized timeout]
  cases builder with
  | flowAdd outPort =>
    have small : 72 + 8 < 256 ^ 2 := by decide
    exact ⟨fun _ => ⟨outPort, rfl⟩, fun _ => ⟨rfl, small⟩⟩
  | flowModifyOutputPort outPort => simp [Builder.command, ofpfcAdd, ofpfcModify]
  | flowModify actions => simp [Builder.command, ofpfcAdd, ofpfcModify]

/-- Apart from the command the messages are right as long as their size fits the header: all of
those with an OUTPUT action, and those with actions of fewer than 65464 bytes. -/
theorem encodes_all_but_command_iff {flow : Flow} {idleTimeout : Nat} (builder : Builder)
    (sized : Sized flow) (timeout : idleTimeout < 2 ^ 16) :
    (∃ command, EncodesArguments flow idleTimeout builder command) ↔
      builder.actions.length < 65464 := by
  have size : builder.size < 256 ^ 2 ↔ builder.actions.length < 65464 := by
    unfold Builder.size ofpFlowModSize
    omega
  rw [← size]
  constructor
  · rintro ⟨command, encodes⟩
    exact ((encodes_iff builder command sized timeout).mp encodes).2
  · intro small
    exact ⟨ofpfcAdd, (encodes_iff builder ofpfcAdd sized timeout).mpr ⟨rfl, small⟩⟩

def sampleFlow : Flow where
  mask := 0x3820ff
  inPort := 0
  dlSrc := [0, 0, 0, 0, 0, 0]
  dlDst := [0, 0, 0, 0, 0, 0]
  dlVlan := 0xffff
  dlType := 8
  nwSrc := 0
  nwDst := 0x0100000a
  nwProto := 17
  tpSrc := 0
  tpDst := 0
  reserved := 0

theorem sampleFlow_sized : Sized sampleFlow := by
  constructor <;> decide

theorem encodes_arguments_iff_added :
    EncodesArguments sampleFlow 0 (.flowAdd 2) ofpfcAdd :=
  (encodes_arguments_iff sampleFlow 0 (.flowAdd 2) sampleFlow_sized (by decide)).mpr ⟨2, rfl⟩

/-- A switch that is asked to change the port of a rule reads ADD. -/
theorem modify_sends_add :
    ((makeOfpFlowModifyOutputPort sampleFlow 2 0).map fun (_, b) => (readFlowMod b).command) =
        some ofpfcAdd ∧
      ¬ EncodesArguments sampleFlow 0 (.flowModifyOutputPort 2) ofpfcModify := by
  refine ⟨by decide +kernel, ?_⟩
  rw [encodes_iff _ _ sampleFlow_sized (by decide)]
  decide +kernel

end Oflops.Openflow.FlowMod
