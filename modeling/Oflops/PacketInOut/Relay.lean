import Oflops.Lib.Machine
import Oflops.Lib.Pairing
import Oflops.PacketInOut.Module

/-! The test `openflow_packet_in_out` with a switch: probes enter the first data port and are
reported, the module hands them back, and the switch sends them from the second data port, where
they are captured. The control channel keeps the order of the messages; on the way to the capture
frames may be lost. -/

namespace Oflops.PacketInOut.Relay
open List (SublistForall₂)
open Lib Lib.Bytes Time Traffic.Wire Traffic.Decode Traffic.UserLoop
open PacketIn.Module (CofmsgPacketIn noFlow sampleProbe sampleProbe_fits sampleProbe_untagged)
open PacketInOut.Module
open Openflow.FlowMod (noBuffer)

structure World (F : Type) where
  clock : Timeval
  buffers : List (List UInt8)
  reports : List CofmsgPacketIn
  outs : List CofmsgPacketOut
  wire : List (List UInt8)
  mod : State F

def begin {F : Type} (zero : F) (print : Bool) (clock : Timeval) : World F where
  clock := clock
  buffers := []
  reports := []
  outs := []
  wire := []
  mod := start zero print

/-- A probe of the test, stamped with the time at which it is sent. -/
structure Sending where
  probe : Probe
  now : Timeval
  relayable : Relayable probe
  seconds : probe.tvSec = now.tvSec
  usecs : probe.tvUsec = now.tvUsec

/-- A probe is sent and reported, whole or with its frame kept in a buffer and so many bytes of its
end in the message; a report reaches the module; a packet-out reaches the switch; a frame is lost,
or captured. -/
inductive Action where
  | send (sending : Sending) (cookie : Nat)
  | sendBuffered (sending : Sending) (cookie shown : Nat)
  | report (fl : Flow) (now : Timeval) (backlog : Bool)
  | forward
  | lose (k : Nat)
  | capture (fl : Flow) (now : Timeval)

def beginning (probe : Probe) (shown : Nat) : Probe :=
  { probe with padding := min shown probe.padding }

/-- The frame that a message is about: the one in it, or the one in a buffer. -/
def wholeFrame (buffers : List (List UInt8)) (bufferId : Nat) (packet : List UInt8) :
    Option (List UInt8) :=
  if bufferId = noBuffer then some packet else buffers[bufferId]?

/-- The frame that a packet-out releases. -/
def released (buffers : List (List UInt8)) (out : CofmsgPacketOut) : Option (List UInt8) :=
  wholeFrame buffers out.bufferId out.packet

/-- A frame enters the switch at the first data port, or leaves it at the second one. -/
inductive Passage where
  | entered (frame : List UInt8)
  | left (frame : List UInt8)

def Passage.entering : Passage → Option (List UInt8)
  | .entered frame => some frame
  | .left _ => none

def Passage.leaving : Passage → Option (List UInt8)
  | .entered _ => none
  | .left frame => some frame

section
variable {F : Type} (mean : F → Int → UInt32 → F) (nf : Nat → List UInt8 → Int → Option PktgenHdr)
  (channels : List Channel) (config : Config) (ofVersion : Nat)

def act (world : World F) : Action → Option (World F × Option Passage)
  | .send sending cookie =>
    if world.clock ≤ sending.now then
      some ({ world with
        clock := sending.now
        reports := world.reports ++ [⟨sending.probe.encode, cookie, noBuffer⟩] },
        some (.entered sending.probe.encode))
    else none
  | .sendBuffered sending cookie shown =>
    if world.clock ≤ sending.now ∧ world.buffers.length < noBuffer then
      some ({ world with
        clock := sending.now
        buffers := world.buffers ++ [sending.probe.encode]
        reports := world.reports ++
          [⟨(beginning sending.probe shown).encode, cookie, world.buffers.length⟩] },
        some (.entered sending.probe.encode))
    else none
  | .report fl now backlog =>
    match world.reports with
    | [] => none
    | pktin :: reports =>
      if world.clock ≤ now then do
        let (mod, out) ← processPacketIn mean nf channels config ofVersion pktin fl now
          backlog world.mod
        some ({ world with clock := now, reports, outs := world.outs ++ out.toList, mod }, none)
      else none
  | .forward =>
    match world.outs with
    | [] => none
    | out :: outs => do
      let frame ← released world.buffers out
      if out.portNo = config.ofPort then
        some ({ world with outs, wire := world.wire ++ [frame] }, some (.left frame))
      else some ({ world with outs }, none)
  | .lose k =>
    if k < world.wire.length then some ({ world with wire := world.wire.eraseIdx k }, none)
      else none
  | .capture fl now =>
    match world.wire with
    | [] => none
    | frame :: wire =>
      if world.clock ≤ now then do
        let mod ← handlePcapEvent mean nf channels
          ⟨oflopsData2, ⟨now, UInt32.ofNat frame.length, UInt32.ofNat frame.length⟩,
            frame, fl⟩ world.mod
        some ({ world with clock := now, wire, mod }, none)
      else none

end

/-- The action can happen: time does not go back, and there is something to arrive or to be lost. -/
def Possible {F : Type} (world : World F) : Action → Prop
  | .send sending _ => world.clock ≤ sending.now
  | .sendBuffered sending _ _ => world.clock ≤ sending.now ∧ world.buffers.length < noBuffer
  | .report _ now _ => world.clock ≤ now ∧ world.reports ≠ []
  | .forward => world.outs ≠ []
  | .lose k => k < world.wire.length
  | .capture _ now => world.clock ≤ now ∧ world.wire ≠ []

/-! ### The invariant -/

structure Genuine (clock : Timeval) (probe : Probe) : Prop where
  relayable : Relayable probe
  past : (⟨probe.tvSec, probe.tvUsec⟩ : Timeval) ≤ clock

theorem Sending.genuine (sending : Sending) : Genuine sending.now sending.probe :=
  ⟨sending.relayable, le_of_eq (by rw [sending.seconds, sending.usecs])⟩

/-- A recorded packet-out belongs to this recorded packet-in. -/
structure Follows (out incoming : Stamp) : Prop where
  snd : out.snd = incoming.snd
  seqNum : out.seqNum = incoming.seqNum
  rcv : incoming.rcv ≤ out.rcv

inductive Place where
  | captured (stamp : Stamp)
  | wire (frame : List UInt8)
  | out (message : CofmsgPacketOut)

def Belongs (ofPort : Nat) (buffers : List (List UInt8)) : Place → Stamp → Prop
  | .captured stamp, incoming => Follows stamp incoming
  | .wire frame, incoming => ∃ probe, Relayable probe ∧ frame = probe.encode ∧
      incoming = probeStamp probe incoming.rcv
  | .out message, incoming => ∃ probe, Relayable probe ∧ message.portNo = ofPort ∧
      released buffers message = some probe.encode ∧ incoming = probeStamp probe incoming.rcv

def places {F : Type} (world : World F) : List Place :=
  world.mod.outgoing.map .captured ++ (world.wire.map .wire ++ world.outs.map .out)

/-- A report of a probe, whose whole frame is in the message or in a buffer. -/
def Reports (clock : Timeval) (buffers : List (List UInt8)) (pktin : CofmsgPacketIn) : Prop :=
  ∃ probe shown, Genuine clock probe ∧ pktin.packet = (beginning probe shown).encode ∧
    ((pktin.bufferId = noBuffer ∧ probe.padding ≤ shown) ∨
      (pktin.bufferId < noBuffer ∧ buffers[pktin.bufferId]? = some probe.encode))

structure Sound {F : Type} (ofPort : Nat) (world : World F) : Prop where
  buffers : world.buffers.length ≤ noBuffer
  reports : ∀ pktin ∈ world.reports, Reports world.clock world.buffers pktin
  paired : SublistForall₂ (Belongs ofPort world.buffers) (places world) world.mod.incoming
  times : ∀ stamp ∈ world.mod.incoming, stamp.snd ≤ stamp.rcv ∧ stamp.rcv ≤ world.clock
  pktInCount : world.mod.pktin.pktInCount = UInt32.ofNat world.mod.incoming.length
  rcvPktCount : world.mod.rcvPktCount = UInt32.ofNat world.mod.outgoing.length
  sent : (places world).length ≤ world.mod.pktOutSentCount
  sent_le : world.mod.pktOutSentCount ≤ world.mod.incoming.length

section
variable {F : Type} {world : World F} {ofPort : Nat} {clock later : Timeval} {probe : Probe}
  {buffers : List (List UInt8)}

theorem beginning_relayable (relayable : Relayable probe) (shown : Nat) :
    Relayable (beginning probe shown) where
  fits := ⟨relayable.fits.saddr, relayable.fits.daddr, relayable.fits.sport, relayable.fits.dport,
    relayable.fits.seqNum, relayable.fits.tvSec, relayable.fits.tvUsec⟩
  untagged := ⟨relayable.untagged.length, relayable.untagged.type⟩
  source := relayable.source
  short := (Nat.min_le_right shown probe.padding).trans relayable.short

theorem beginning_whole {shown : Nat} (enough : probe.padding ≤ shown) :
    beginning probe shown = probe := by
  unfold beginning
  rw [Nat.min_eq_right enough]

theorem probeStamp_congr {other : Probe} (relayable : Relayable probe)
    (relayable' : Relayable other) (same : probe.encode = other.encode) (rcv : Timeval) :
    probeStamp probe rcv = probeStamp other rcv := by
  have ether : probe.ether.length = other.ether.length :=
    relayable.untagged.length.trans relayable'.untagged.length.symm
  have field {i x y : Nat}
      (first : Record.slice probe.encode (probe.ether.length + i) 4 = beBytes 4 x)
      (second : Record.slice other.encode (other.ether.length + i) 4 = beBytes 4 y)
      (fits : x < 2 ^ 32)
      (fits' : y < 2 ^ 32) : x = y := by
    rw [same, ether, second] at first
    have values := congrArg beValue first
    rw [beValue_beBytes_of_lt fits', beValue_beBytes_of_lt fits] at values
    exact values.symm
  have seqNum := field probe.encode_seqNum other.encode_seqNum relayable.fits.seqNum
    relayable'.fits.seqNum
  have tvSec := field probe.encode_tvSec other.encode_tvSec relayable.fits.tvSec
    relayable'.fits.tvSec
  have tvUsec := field probe.encode_tvUsec other.encode_tvUsec relayable.fits.tvUsec
    relayable'.fits.tvUsec
  rw [probeStamp, probeStamp, seqNum, tvSec, tvUsec]

theorem wholeFrame_append {bufferId : Nat} {packet frame : List UInt8}
    (here : wholeFrame buffers bufferId packet = some frame) (more : List (List UInt8)) :
    wholeFrame (buffers ++ more) bufferId packet = some frame := by
  unfold wholeFrame at here ⊢
  split_ifs at here ⊢
  · exact here
  · rw [List.getElem?_append_left (List.getElem?_eq_some_iff.mp here).1]
    exact here

theorem Belongs.append {place : Place} {stamp : Stamp}
    (belongs : Belongs ofPort buffers place stamp) (more : List (List UInt8)) :
    Belongs ofPort (buffers ++ more) place stamp := by
  cases place with
  | captured _ => exact belongs
  | wire _ => exact belongs
  | out message =>
    obtain ⟨probe, relayable, port, here, record⟩ := belongs
    exact ⟨probe, relayable, port, wholeFrame_append here more, record⟩

theorem Reports.update {pktin : CofmsgPacketIn} (reports : Reports clock buffers pktin)
    (le : clock ≤ later) (more : List (List UInt8)) : Reports later (buffers ++ more) pktin := by
  obtain ⟨probe, shown, genuine, packet, kept⟩ := reports
  refine ⟨probe, shown, ⟨genuine.relayable, genuine.past.trans le⟩, packet, kept.imp_right ?_⟩
  rintro ⟨numbered, here⟩
  refine ⟨numbered, ?_⟩
  rw [List.getElem?_append_left (List.getElem?_eq_some_iff.mp here).1]
  exact here

theorem Sound.send (sound : Sound ofPort world) (le : world.clock ≤ later)
    {more : List (List UInt8)} (room : (world.buffers ++ more).length ≤ noBuffer)
    {pktin : CofmsgPacketIn} (reports : Reports later (world.buffers ++ more) pktin) :
    Sound ofPort { world with
      clock := later, buffers := world.buffers ++ more, reports := world.reports ++ [pktin] } := by
  refine { sound with buffers := room, reports := ?_, paired := ?_, times := ?_ }
  · refine List.forall_mem_append.mpr
      ⟨fun other member => (sound.reports other member).update le more, ?_⟩
    intro other member
    obtain rfl := List.mem_singleton.mp member
    exact reports
  · exact Pairing.mono sound.paired fun _ _ _ _ belongs => belongs.append more
  · exact fun stamp member => ⟨(sound.times stamp member).1, (sound.times stamp member).2.trans le⟩

theorem Sound.tick (sound : Sound ofPort world) (le : world.clock ≤ later)
    {reports : List CofmsgPacketIn} (fewer : reports ⊆ world.reports) :
    Sound ofPort { world with clock := later, reports } := by
  refine { sound with reports := ?_, times := ?_ }
  · intro pktin member
    obtain ⟨probe, shown, genuine, rest⟩ := sound.reports pktin (fewer member)
    exact ⟨probe, shown, ⟨genuine.relayable, genuine.past.trans le⟩, rest⟩
  · exact fun stamp member => ⟨(sound.times stamp member).1, (sound.times stamp member).2.trans le⟩

theorem belongs_answer {config : Config} {backlog : Bool} {pktin : CofmsgPacketIn}
    {message : CofmsgPacketOut} {shown : Nat} (relayable : Relayable probe)
    (kept : (pktin.bufferId = noBuffer ∧ probe.padding ≤ shown) ∨
      (pktin.bufferId < noBuffer ∧ buffers[pktin.bufferId]? = some probe.encode))
    (answered : answer config backlog pktin.bufferId (beginning probe shown).encode = some message)
    (now : Timeval) : Belongs config.ofPort buffers (.out message) (probeStamp probe now) := by
  unfold answer at answered
  split_ifs at answered
  · rename_i unbuffered
    cases answered
    refine ⟨probe, relayable, rfl, ?_, rfl⟩
    rcases kept with ⟨-, enough⟩ | ⟨numbered, -⟩
    · rw [released, wholeFrame, if_pos unbuffered, beginning_whole enough]
    · omega
  · rename_i buffered
    cases answered
    refine ⟨probe, relayable, rfl, ?_, rfl⟩
    rcases kept with ⟨unbuffered, -⟩ | ⟨-, here⟩
    · exact absurd unbuffered buffered
    · rw [released, wholeFrame, if_neg buffered, here]

theorem answer_length {config : Config} {backlog : Bool} {bufferId : Nat} {packet : List UInt8}
    {out : Option CofmsgPacketOut} (answered : answer config backlog bufferId packet = out) :
    (answer config backlog 0 []).toList.length = out.toList.length := by
  subst answered
  unfold answer
  split_ifs <;> rfl

theorem ofNat_succ (n : Nat) : UInt32.ofNat n + 1 = UInt32.ofNat (n + 1) := by
  apply UInt32.toNat_inj.mp
  simp

theorem Sound.report {channels : List Channel} {config : Config} (sound : Sound config.ofPort world)
    (mean : F → Int → UInt32 → F) (nf : Nat → List UInt8 → Int → Option PktgenHdr) (ofVersion : Nat)
    (pcap : IsPcap channels oflopsData1) {pktin : CofmsgPacketIn} {reports : List CofmsgPacketIn}
    (first : world.reports = pktin :: reports) (fl : Flow) (le : world.clock ≤ later)
    (backlog : Bool) :
    ∃ mod out, processPacketIn mean nf channels config ofVersion pktin fl later backlog world.mod =
        some (mod, out) ∧
      (out = none ∨ out = answer config backlog pktin.bufferId pktin.packet) ∧
      Sound config.ofPort { world with
        clock := later, reports, outs := world.outs ++ out.toList, mod } := by
  have fewer : reports ⊆ world.reports := by
    rw [first]
    exact List.subset_cons_self pktin reports
  have after := sound.tick le fewer
  obtain ⟨probe, shown, genuine, packet, kept⟩ :=
    sound.reports pktin (by rw [first]; exact List.mem_cons_self)
  have relayable := beginning_relayable genuine.relayable shown
  by_cases long : 34 ≤ ntohs pktin.packet.length
  · refine ⟨_, _, (processPacketIn_probe pcap relayable packet fl later backlog).trans
      (if_pos long), .inr (by rw [packet]), ?_⟩
    set mod := recorded mean config ofVersion pktin later backlog (beginning probe shown) world.mod
    have incoming : mod.incoming = world.mod.incoming ++ [probeStamp probe later] :=
      recorded_incoming later backlog
    have counted : mod.pktin.pktInCount = UInt32.ofNat mod.incoming.length := by
      rw [incoming, List.length_append, List.length_singleton, ← ofNat_succ, ← sound.pktInCount]
      rfl
    have times : ∀ stamp ∈ mod.incoming, stamp.snd ≤ stamp.rcv ∧ stamp.rcv ≤ later := by
      rw [incoming]
      refine List.forall_mem_append.mpr ⟨after.times, fun stamp member => ?_⟩
      obtain rfl := List.mem_singleton.mp member
      exact ⟨genuine.past.trans le, le_rfl⟩
    cases answered : answer config backlog pktin.bufferId (beginning probe shown).encode with
    | none =>
      have skipped : mod.pktOutSentCount = world.mod.pktOutSentCount :=
        congrArg (world.mod.pktOutSentCount + ·) (answer_length answered)
      rw [Option.toList_none, List.append_nil]
      refine { after with
        paired := ?_, times := times, pktInCount := counted, sent := ?_, sent_le := ?_ }
      · exact incoming ▸ Pairing.grow sound.paired _
      · exact skipped ▸ sound.sent
      · have most := sound.sent_le
        rw [incoming, skipped, List.length_append]
        omega
    | some message =>
      have relayed : mod.pktOutSentCount = world.mod.pktOutSentCount + 1 :=
        congrArg (world.mod.pktOutSentCount + ·) (answer_length answered)
      have grown : places { world with
          clock := later, reports, outs := world.outs ++ (some message).toList, mod } =
          places world ++ [.out message] := by
        simp [places, mod, State.outgoing, recorded]
      refine { after with
        paired := ?_, times := times, pktInCount := counted, sent := ?_, sent_le := ?_ }
      · rw [grown, incoming]
        exact Pairing.snoc sound.paired (belongs_answer genuine.relayable kept answered later)
      · have least := sound.sent
        rw [grown, relayed, List.length_append, List.length_singleton]
        omega
      · have most := sound.sent_le
        rw [incoming, relayed, List.length_append, List.length_singleton]
        omega
  · refine ⟨_, _, (processPacketIn_probe pcap relayable packet fl later backlog).trans
      (if_neg long), .inl rfl, ?_⟩
    rw [Option.toList_none, List.append_nil]
    exact after

theorem Sound.forward (sound : Sound ofPort world) {message : CofmsgPacketOut}
    {outs : List CofmsgPacketOut} (first : world.outs = message :: outs) :
    ∃ frame, released world.buffers message = some frame ∧ message.portNo = ofPort ∧
      Sound ofPort { world with outs, wire := world.wire ++ [frame] } := by
  have order : places world = (world.mod.outgoing.map .captured ++ world.wire.map .wire) ++
      .out message :: outs.map .out := by
    rw [places, first, List.map_cons, List.append_assoc]
  have paired := sound.paired
  rw [order] at paired
  obtain ⟨stamp, -, probe, -, port, here, -⟩ := Pairing.related paired
  refine ⟨probe.encode, here, port, ?_⟩
  have order' : places { world with outs, wire := world.wire ++ [probe.encode] } =
      (world.mod.outgoing.map .captured ++ world.wire.map .wire) ++ .wire probe.encode ::
        outs.map .out := by
    simp [places]
  refine { sound with paired := ?_, sent := ?_ }
  · rw [order']
    refine Pairing.replace paired ?_
    rintro stamp - ⟨other, relayable, -, there, record⟩
    rw [here, Option.some.injEq] at there
    exact ⟨other, relayable, there, record⟩
  · have least := sound.sent
    rw [order] at least
    rw [order']
    simpa using least

theorem Sound.lose (sound : Sound ofPort world) (k : Nat) :
    Sound ofPort { world with wire := world.wire.eraseIdx k } := by
  have fewer : (places { world with wire := world.wire.eraseIdx k }).Sublist (places world) := by
    refine (List.Sublist.refl _).append (List.Sublist.append ?_ (List.Sublist.refl _))
    exact (List.eraseIdx_sublist world.wire k).map _
  exact { sound with
    paired := Pairing.lose sound.paired fewer
    sent := fewer.length_le.trans sound.sent }

theorem Sound.capture {channels : List Channel} (sound : Sound ofPort world)
    (mean : F → Int → UInt32 → F) (nf : Nat → List UInt8 → Int → Option PktgenHdr)
    (pcap : IsPcap channels oflopsData2) {frame : List UInt8} {wire : List (List UInt8)}
    (first : world.wire = frame :: wire) (fl : Flow) (le : world.clock ≤ later) :
    ∃ mod, handlePcapEvent mean nf channels
        ⟨oflopsData2, ⟨later, UInt32.ofNat frame.length, UInt32.ofNat frame.length⟩,
          frame, fl⟩ world.mod =
        some mod ∧ Sound ofPort { world with clock := later, wire, mod } := by
  have order : places world = world.mod.outgoing.map .captured ++
      .wire frame :: (wire.map .wire ++ world.outs.map .out) := by
    rw [places, first, List.map_cons, List.cons_append]
  have paired := sound.paired
  rw [order] at paired
  obtain ⟨stamp, -, probe, relayable, rfl, -⟩ := Pairing.related paired
  refine ⟨_, handlePcapEvent_probe pcap relayable fl later, ?_⟩
  set mod := received mean later probe world.mod
  have outgoing : mod.outgoing = world.mod.outgoing ++ [probeStamp probe later] :=
    received_outgoing later
  have order' : places { world with clock := later, wire, mod } =
      world.mod.outgoing.map .captured ++
      .captured (probeStamp probe later) :: (wire.map .wire ++ world.outs.map .out) := by
    simp [places, outgoing]
  have after := sound.tick le (List.Subset.refl world.reports)
  refine { after with paired := ?_, rcvPktCount := ?_, sent := ?_ }
  · rw [order']
    refine Pairing.replace paired ?_
    rintro stamp member ⟨other, relayable', same, record⟩
    have equal := probeStamp_congr relayable relayable' same later
    rw [equal]
    refine ⟨?_, ?_, (sound.times stamp member).2.trans le⟩
    · rw [record]
      rfl
    · rw [record]
      rfl
  · rw [outgoing, List.length_append, List.length_singleton, ← ofNat_succ, ← sound.rcvPktCount]
    rfl
  · have least := sound.sent
    rw [order] at least
    rw [order', show mod.pktOutSentCount = world.mod.pktOutSentCount from rfl]
    simpa using least

/-! ### The frames -/

def entered (log : List Passage) : List (List UInt8) := log.filterMap Passage.entering

def left (log : List Passage) : List (List UInt8) := log.filterMap Passage.leaving

/-- What has entered the switch and not left it, in order. -/
def held (world : World F) : List (Option (List UInt8)) :=
  world.outs.map (released world.buffers) ++
    world.reports.map fun pktin => wholeFrame world.buffers pktin.bufferId pktin.packet

/-- What leaves the switch entered it, in the same order. -/
def Intact (world : World F) (log : List Passage) : Prop :=
  ((left log).map some ++ held world).Sublist ((entered log).map some)

variable {log : List Passage}

theorem Intact.found (intact : Intact world log) {frame : Option (List UInt8)}
    (member : frame ∈ held world) : ∃ bytes, frame = some bytes := by
  obtain ⟨bytes, -, same⟩ := List.mem_map.mp (intact.subset (List.mem_append_right _ member))
  exact ⟨bytes, same.symm⟩

theorem Intact.held_append (intact : Intact world log) (more : List (List UInt8)) :
    held { world with buffers := world.buffers ++ more } = held world := by
  unfold held
  congr 1
  · refine List.map_congr_left fun message member => ?_
    obtain ⟨bytes, same⟩ := intact.found (List.mem_append_left _ (List.mem_map_of_mem member))
    rw [same]
    exact wholeFrame_append same more
  · refine List.map_congr_left fun pktin member => ?_
    obtain ⟨bytes, same⟩ := intact.found (List.mem_append_right _ (List.mem_map_of_mem member))
    rw [same]
    exact wholeFrame_append same more

theorem Intact.send (intact : Intact world log) {more : List (List UInt8)} {pktin : CofmsgPacketIn}
    {frame : List UInt8}
    (whole : wholeFrame (world.buffers ++ more) pktin.bufferId pktin.packet = some frame) :
    Intact { world with
      clock := later, buffers := world.buffers ++ more, reports := world.reports ++ [pktin] }
      (log ++ [.entered frame]) := by
  have kept := intact.held_append more
  have grown : held { world with
      clock := later, buffers := world.buffers ++ more, reports := world.reports ++ [pktin] } =
      held world ++ [some frame] := by
    rw [← kept]
    simp [held, whole]
  have first : left (log ++ [.entered frame]) = left log := by simp [left, Passage.leaving]
  have second : entered (log ++ [.entered frame]) = entered log ++ [frame] := by
    simp [entered, Passage.entering]
  rw [Intact, grown, first, second, List.map_append, ← List.append_assoc]
  exact List.Sublist.append intact (List.Sublist.refl _)

theorem released_answer {config : Config} {backlog : Bool} {pktin : CofmsgPacketIn}
    {message : CofmsgPacketOut}
    (answered : answer config backlog pktin.bufferId pktin.packet = some message) :
    released buffers message = wholeFrame buffers pktin.bufferId pktin.packet := by
  unfold answer at answered
  split_ifs at answered
  all_goals
    cases answered
    simp [released, wholeFrame, *]

theorem Intact.report (intact : Intact world log) {config : Config} {backlog : Bool}
    {pktin : CofmsgPacketIn} {reports : List CofmsgPacketIn}
    (first : world.reports = pktin :: reports) {out : Option CofmsgPacketOut} (mod : State F)
    (answered : out = none ∨ out = answer config backlog pktin.bufferId pktin.packet) :
    Intact { world with clock := later, reports, outs := world.outs ++ out.toList, mod } log := by
  refine List.Sublist.trans ((List.Sublist.refl _).append ?_) intact
  have line : held world = world.outs.map (released world.buffers) ++
      (wholeFrame world.buffers pktin.bufferId pktin.packet ::
        reports.map fun pktin => wholeFrame world.buffers pktin.bufferId pktin.packet) := by
    rw [held, first, List.map_cons]
  rw [line]
  cases out with
  | none =>
    rw [Option.toList_none, List.append_nil]
    exact (List.Sublist.refl _).append (List.sublist_cons_self _ _)
  | some message =>
    have same : released world.buffers message = wholeFrame world.buffers _ _ :=
      released_answer (answered.resolve_left nofun).symm
    rw [← same]
    simp [held]

theorem Intact.forward (intact : Intact world log) {message : CofmsgPacketOut}
    {outs : List CofmsgPacketOut} (first : world.outs = message :: outs) {frame : List UInt8}
    (here : released world.buffers message = some frame) :
    Intact { world with outs, wire := world.wire ++ [frame] } (log ++ [.left frame]) := by
  have line : held world = some frame :: held { world with
      outs, wire := world.wire ++ [frame] } := by
    rw [held, first, List.map_cons, here]
    rfl
  have moved : (left (log ++ [.left frame])).map some = (left log).map some ++ [some frame] := by
    simp [left, Passage.leaving]
  have kept : entered (log ++ [.left frame]) = entered log := by simp [entered, Passage.entering]
  unfold Intact at intact ⊢
  rw [line] at intact
  rwa [moved, kept, List.append_assoc, List.singleton_append]

theorem Intact.sublist (intact : Intact world log) : (left log).Sublist (entered log) := by
  have fewer := (List.sublist_append_left _ _).trans intact
  have bytes := fewer.filterMap id
  simpa [List.filterMap_map] using bytes

/-- One action: whatever can happen is handled, the records stay paired and the frames intact. -/
theorem Sound.act {channels : List Channel} {config : Config} (sound : Sound config.ofPort world)
    (intact : Intact world log) (mean : F → Int → UInt32 → F)
    (nf : Nat → List UInt8 → Int → Option PktgenHdr) (ofVersion : Nat)
    (first : IsPcap channels oflopsData1) (second : IsPcap channels oflopsData2) {action : Action}
    (possible : Possible world action) :
    ∃ next output, Relay.act mean nf channels config ofVersion world action = some (next, output) ∧
      Sound config.ofPort next ∧ Intact next (log ++ output.toList) := by
  cases action with
  | send sending cookie =>
    have whole := beginning_whole (Nat.le_refl sending.probe.padding)
    have reports : Reports sending.now (world.buffers ++ [])
        ⟨sending.probe.encode, cookie, noBuffer⟩ :=
      ⟨sending.probe, sending.probe.padding, sending.genuine, by rw [whole],
        Or.inl ⟨rfl, Nat.le_refl _⟩⟩
    have after := sound.send possible (by rw [List.append_nil]; exact sound.buffers) reports
    have kept : Intact { world with
        clock := sending.now
        buffers := world.buffers ++ []
        reports := world.reports ++ [⟨sending.probe.encode, cookie, noBuffer⟩] }
        (log ++ [.entered sending.probe.encode]) := intact.send (if_pos rfl)
    rw [List.append_nil] at after kept
    exact ⟨_, _, if_pos possible, after, kept⟩
  | sendBuffered sending cookie shown =>
    obtain ⟨le, room⟩ := possible
    have reports : Reports sending.now (world.buffers ++ [sending.probe.encode])
        ⟨(beginning sending.probe shown).encode, cookie, world.buffers.length⟩ :=
      ⟨sending.probe, shown, sending.genuine, rfl, Or.inr ⟨room, by simp⟩⟩
    have more : (world.buffers ++ [sending.probe.encode]).length ≤ noBuffer := by
      rw [List.length_append, List.length_singleton]
      exact room
    have whole : wholeFrame (world.buffers ++ [sending.probe.encode]) world.buffers.length
        (beginning sending.probe shown).encode = some sending.probe.encode := by
      rw [wholeFrame, if_neg room.ne, List.getElem?_concat_length]
    exact ⟨_, _, if_pos ⟨le, room⟩, sound.send le more reports, intact.send whole⟩
  | report fl now backlog =>
    obtain ⟨le, waiting⟩ := possible
    obtain ⟨pktin, reports, line⟩ := List.exists_cons_of_ne_nil waiting
    obtain ⟨mod, message, handled, answered, after⟩ :=
      sound.report mean nf ofVersion first line fl le backlog
    refine ⟨_, none, ?_, after, ?_⟩
    · simp only [Relay.act, line, if_pos le, handled, Option.bind_eq_bind, Option.bind_some]
    · rw [Option.toList_none, List.append_nil]
      exact intact.report line mod answered
  | forward =>
    obtain ⟨message, outs, line⟩ := List.exists_cons_of_ne_nil possible
    obtain ⟨frame, here, port, after⟩ := sound.forward line
    refine ⟨_, some (.left frame), ?_, after, intact.forward line here⟩
    simp only [Relay.act, line, here, port, if_true, Option.bind_eq_bind, Option.bind_some]
  | lose k =>
    refine ⟨_, none, if_pos possible, sound.lose k, ?_⟩
    rw [Option.toList_none, List.append_nil]
    exact intact
  | capture fl now =>
    obtain ⟨le, waiting⟩ := possible
    obtain ⟨frame, wire, line⟩ := List.exists_cons_of_ne_nil waiting
    obtain ⟨mod, handled, after⟩ := sound.capture mean nf second line fl le
    refine ⟨_, none, ?_, after, ?_⟩
    · simp only [Relay.act, line, if_pos le, handled, Option.bind_eq_bind, Option.bind_some]
    · rw [Option.toList_none, List.append_nil]
      exact intact

theorem possible_of_act {mean : F → Int → UInt32 → F}
    {nf : Nat → List UInt8 → Int → Option PktgenHdr} {channels : List Channel} {config : Config}
    {ofVersion : Nat} {action : Action} {next : World F × Option Passage}
    (acted : act mean nf channels config ofVersion world action = some next) :
    Possible world action := by
  cases action with
  | send sending cookie =>
    simp only [act] at acted
    split_ifs at acted with le
    exact le
  | sendBuffered sending cookie shown =>
    simp only [act] at acted
    split_ifs at acted with enabled
    exact enabled
  | report fl now backlog =>
    cases first : world.reports with
    | nil => simp [act, first] at acted
    | cons pktin reports =>
      simp only [act, first] at acted
      split_ifs at acted with le
      exact ⟨le, by simp [first]⟩
  | forward =>
    cases first : world.outs with
    | nil => simp [act, first] at acted
    | cons message outs => simp [Possible, first]
  | lose k =>
    simp only [act] at acted
    split_ifs at acted with inside
    exact inside
  | capture fl now =>
    cases first : world.wire with
    | nil => simp [act, first] at acted
    | cons frame wire =>
      simp only [act, first] at acted
      split_ifs at acted with le
      exact ⟨le, by simp [first]⟩

theorem sound_begin (zero : F) (print : Bool) (clock : Timeval) (ofPort : Nat) :
    Sound ofPort (begin zero print clock) := by
  cases print <;>
    exact ⟨Nat.zero_le _, nofun, .nil, nofun, rfl, rfl, Nat.le_refl _, Nat.le_refl _⟩

end

/-- The records of the two sides: those of the packet-outs are, in their order and each at most
once, those of probes that were recorded as packet-ins, with the same number and time of sending and
not before their report; and the counters count them. -/
structure Paired {F : Type} (mod : State F) : Prop where
  order : SublistForall₂ Follows mod.outgoing mod.incoming
  delays : ∀ stamp ∈ mod.incoming, stamp.snd ≤ stamp.rcv
  pktInCount : mod.pktin.pktInCount = UInt32.ofNat mod.incoming.length
  rcvPktCount : mod.rcvPktCount = UInt32.ofNat mod.outgoing.length
  received_le : mod.outgoing.length ≤ mod.pktOutSentCount
  sent_le : mod.pktOutSentCount ≤ mod.incoming.length

theorem Sound.records {F : Type} {world : World F} {ofPort : Nat} (sound : Sound ofPort world) :
    Paired world.mod := by
  refine ⟨?_, fun stamp member => (sound.times stamp member).1, sound.pktInCount,
    sound.rcvPktCount, ?_, sound.sent_le⟩
  · have captured : SublistForall₂ (Belongs ofPort world.buffers) (world.mod.outgoing.map .captured)
        world.mod.incoming := Pairing.lose sound.paired (List.sublist_append_left _ _)
    have records : SublistForall₂ (fun stamp => Belongs ofPort world.buffers (.captured stamp))
        world.mod.outgoing world.mod.incoming := List.sublistForall₂_map_left_iff.mp captured
    exact records
  · have least := sound.sent
    rw [places, List.length_append, List.length_map] at least
    omega

/-- With a switch that does what the messages say, however the steps of generator, switch and module
interleave and whatever is lost on the way to the capture: every message and every frame is handled,
the frames that the switch sends are, byte for byte and in their order, frames that it got, and
every packet-out that is measured is that of a measured packet-in. -/
theorem relay_records_paired {F : Type} (mean : F → Int → UInt32 → F)
    (nf : Nat → List UInt8 → Int → Option PktgenHdr) {channels : List Channel} (config : Config)
    (ofVersion : Nat) (first : IsPcap channels oflopsData1) (second : IsPcap channels oflopsData2)
    {zero : F} {print : Bool} {clock : Timeval} {actions : List Action} {world : World F}
    {log : List Passage}
    (ran : Machine.run (act mean nf channels config ofVersion) (begin zero print clock) actions =
      some (world, log)) :
    Paired world.mod ∧ (left log).Sublist (entered log) ∧
      ∀ action, Possible world action →
      (act mean nf channels config ofVersion world action).isSome := by
  have both : Sound config.ofPort world ∧ Intact world ([] ++ log) := by
    refine Machine.run_log_invariant (fun world log => Sound config.ofPort world ∧
      Intact world log) ?_
      ⟨sound_begin zero print clock config.ofPort, List.Sublist.refl []⟩ ran
    rintro state past action next output ⟨sound, intact⟩ acted
    obtain ⟨next', output', acted', after⟩ :=
      sound.act intact mean nf ofVersion first second (possible_of_act acted)
    cases acted'.symm.trans acted
    exact after
  obtain ⟨sound, intact⟩ := both
  refine ⟨sound.records, intact.sublist, ?_⟩
  intro action possible
  obtain ⟨next, output, acted, -⟩ := sound.act intact mean nf ofVersion first second possible
  rw [acted]
  rfl

theorem sampleProbe_relayable (seqNum : Fin 8) : Relayable (sampleProbe seqNum 2) where
  fits := sampleProbe_fits 2 (by omega)
  untagged := sampleProbe_untagged seqNum 2
  source := rfl
  short := by
    change 2 ≤ 1442
    decide

def sampleSending (seqNum : Fin 8) : Sending where
  probe := sampleProbe seqNum 2
  now := ⟨1400000000, 0⟩
  relayable := sampleProbe_relayable seqNum
  seconds := rfl
  usecs := rfl

def threePorts : List Channel := [⟨none, .pcap⟩, ⟨none, .pcap⟩, ⟨none, .pcap⟩]

/-- One probe is relayed with its frame, one out of its buffer, and the first of the frames
is lost. -/
def sampleRun : List Action :=
  [.send (sampleSending 1) 0, .sendBuffered (sampleSending 2) 0 1,
    .report noFlow ⟨1400000001, 0⟩ false, .report noFlow ⟨1400000002, 0⟩ false, .forward, .forward,
    .lose 0, .capture noFlow ⟨1400000003, 0⟩]

theorem sampleRun_measures :
    ((Machine.run (act (fun _ _ _ => ()) (fun _ _ _ => none) threePorts ⟨false, 3⟩ 1)
      (begin () false ⟨1400000000, 0⟩) sampleRun).any fun ran =>
        ran.1.mod.outgoing = [⟨⟨1400000000, 0⟩, ⟨1400000003, 0⟩, 2⟩]) = true := by
  decide +kernel

theorem relay_records_paired_lossy :
    ∃ world log, Machine.run (act (fun _ _ _ => ()) (fun _ _ _ => none) threePorts ⟨false, 3⟩ 1)
        (begin () false ⟨1400000000, 0⟩) sampleRun = some (world, log) ∧
      world.mod.outgoing = [⟨⟨1400000000, 0⟩, ⟨1400000003, 0⟩, 2⟩] ∧ Paired world.mod ∧
      (left log).Sublist (entered log) := by
  have measures := sampleRun_measures
  cases ran : Machine.run (act (fun _ _ _ => ()) (fun _ _ _ => none) threePorts ⟨false, 3⟩ 1)
      (begin () false ⟨1400000000, 0⟩) sampleRun with
  | none =>
    rw [ran] at measures
    cases measures
  | some final =>
    obtain ⟨world, log⟩ := final
    rw [ran] at measures
    have first : IsPcap threePorts oflopsData1 := ⟨_, rfl, rfl⟩
    have second : IsPcap threePorts oflopsData2 := ⟨_, rfl, rfl⟩
    obtain ⟨paired, intact, -⟩ :=
      relay_records_paired (fun _ _ _ => ()) (fun _ _ _ => none) ⟨false, 3⟩ 1 first second ran
    exact ⟨world, log, rfl, by simpa using measures, paired, intact⟩

end Oflops.PacketInOut.Relay
