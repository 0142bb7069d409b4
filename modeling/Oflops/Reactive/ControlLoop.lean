import Oflops.Reactive.Answer

/-! The test `openflow_reactive` with a switch: the generator sends probes into a port, the switch
returns those that a rule takes and reports the others, the module answers the reports, and the
switch installs the answers and returns the frame it kept. Messages and frames may be late and
arrive in any order, also more than once. The generator and the capture share a port and no
direction is set, so that what the module receives may also be a probe on its way out. -/

namespace Oflops.Reactive.ControlLoop
open Lib Lib.Bytes Lib.Record Lib.Slots Time Traffic.Wire Traffic.UserLoop
open Traffic.Decode hiding Header
open Openflow.FlowMod (noBuffer)
open Openflow.Matching Openflow.Rules Reactive.Module Reactive.Answer
open Insertion.Arrivals hiding Event Effect

/-- What the switch keeps, what was ever sent in each direction, and the module. -/
structure World where
  clock : Timeval
  table : List (Rule × Nat)
  buffers : List (List UInt8)
  packetIns : List (List UInt8)
  flowMods : List (List UInt8)
  outgoing : List (List UInt8)
  returned : List (List UInt8)
  mod : State

def begin (config : Config) (clock : Timeval) : World where
  clock := clock
  table := []
  buffers := []
  packetIns := []
  flowMods := []
  outgoing := []
  returned := []
  mod := init config

structure Sending (config : Config) where
  probe : Probe
  now : Timeval
  fits : Fits probe
  untagged : Untagged probe
  short : probe.padding ≤ 1500
  seconds : probe.tvSec = now.tvSec
  usecs : probe.tvUsec = now.tvUsec
  among : probe.daddr ∈ config.targets

/-- A probe is sent, a report reaches the module, an answer reaches the switch, or a frame is
captured, one that the generator sent or one that came back. -/
inductive Action (config : Config) where
  | send (sending : Sending config)
  | report (k : Nat) (fl : Flow) (now : Timeval)
  | install (k : Nat)
  | capture (own : Bool) (k : Nat) (fl : Flow) (now : Timeval) (msg : List Char)

/-- What the module was given: a probe that the switch reported, or a frame from the wire. -/
inductive Entry where
  | reported (flow : Nat) (now : Timeval)
  | captured (own : Bool) (flow : Nat) (ts : Timeval)
  deriving DecidableEq

def Entry.flow : Entry → Nat
  | .reported flow _ => flow
  | .captured _ flow _ => flow

def Entry.time : Entry → Timeval
  | .reported _ now => now
  | .captured _ _ ts => ts

def Entry.isCaptured : Entry → Bool
  | .reported _ _ => false
  | .captured _ _ _ => true

/-- The first thing that the module was given of a flow. -/
def firstOf (i : Nat) (log : List Entry) : Option Entry := log.find? fun entry => entry.flow = i

def firstFrame (i : Nat) (log : List Entry) : Option Entry :=
  log.find? fun entry => entry.isCaptured ∧ entry.flow = i

def lookup (inPort : Nat) (table : List (Rule × Nat)) (frame : List UInt8) : Option Nat :=
  (table.find? fun entry => decide (Takes entry.1 (headerOf (beBytes 2 inPort) frame))).map Prod.snd

def output (port : Nat) (frame : List UInt8) : List (List UInt8) :=
  if port = ofppInPort then [frame] else []

/-- The switch keeps the frame that it reports as long as it has buffers. -/
def keep (buffers : List (List UInt8)) (frame : List UInt8) : Nat × List (List UInt8) :=
  if buffers.length < noBuffer then (buffers.length, buffers ++ [frame]) else (noBuffer, buffers)

def captureOf (frame : List UInt8) (fl : Flow) (now : Timeval) : Capture where
  ch := oflopsData1
  pcaphdr := ⟨now, UInt32.ofNat frame.length, UInt32.ofNat frame.length⟩
  data := frame
  fl := fl
  now := now

def World.frames (world : World) (own : Bool) : List (List UInt8) :=
  if own then world.outgoing else world.returned

def Effect.message : Effect → Option (List UInt8)
  | .sent message => some message
  | _ => none

section
variable (nf : Nat → List UInt8 → Int → Option PktgenHdr) (channels : List Channel)
  (config : Config) (inPort : Nat)

def receiveFrame (frame : List UInt8) (world : World) : World :=
  match lookup inPort world.table frame with
  | some port => { world with returned := world.returned ++ output port frame }
  | none =>
    let (id, buffers) := keep world.buffers frame
    { world with
      buffers, packetIns := world.packetIns ++ [encodePacketIn 0 id frame.length inPort frame] }

theorem receiveFrame_clock (frame : List UInt8) (world : World) :
    (receiveFrame inPort frame world).clock = world.clock := by
  unfold receiveFrame
  split <;> rfl

theorem receiveFrame_mod (frame : List UInt8) (world : World) :
    (receiveFrame inPort frame world).mod = world.mod := by
  unfold receiveFrame
  split <;> rfl

/-- The switch obeys a flow modification: the rule, and its action for the frame in the buffer. -/
def receiveFlowMod (b : List UInt8) (world : World) : World :=
  let port := beValue (slice b 76 2)
  { world with
    table := (readRule b, port) :: world.table
    returned := world.returned ++ (world.buffers[beValue (slice b 64 4)]?).toList.flatMap
      (output port) }

def act (world : World) : Action config → Option (World × Option Entry)
  | .send sending =>
    if world.clock ≤ sending.now then
      let frame := sending.probe.encode
      some (receiveFrame inPort frame
        { world with clock := sending.now, outgoing := world.outgoing ++ [frame] }, none)
    else none
  | .report k fl now =>
    if world.clock ≤ now then do
      let message ← world.packetIns[k]?
      let (mod, effects) ← ofEventPacketIn nf channels config ⟨message, fl, now⟩ world.mod
      some ({ world with
          clock := now, mod, flowMods := world.flowMods ++ effects.filterMap Effect.message },
        (reportOf nf channels config (.packetIn ⟨message, fl, now⟩)).map fun (flow, time) =>
          .reported flow time)
    else none
  | .install k => do
    let b ← world.flowMods[k]?
    some (receiveFlowMod b world, none)
  | .capture own k fl now msg =>
    if world.clock ≤ now then do
      let frame ← (world.frames own)[k]?
      let (mod, _) ← handlePcapEvent nf channels config (captureOf frame fl now) msg world.mod
      some ({ world with clock := now, mod },
        (arrivalOf nf channels config (.captured (captureOf frame fl now) msg)).map
          fun (flow, time) => .captured own flow time)
    else none

end

/-- The action can happen: time does not go back, and what arrives was sent. -/
def Possible {config : Config} (world : World) : Action config → Prop
  | .send sending => world.clock ≤ sending.now
  | .report k _ now => world.clock ≤ now ∧ k < world.packetIns.length
  | .install k => k < world.flowMods.length
  | .capture own k _ now _ => world.clock ≤ now ∧ k < (world.frames own).length

/-! ### The invariant -/

def time (slots : List Timeval) (i : Nat) : Timeval := slots[i]?.getD ⟨0, 0⟩

structure Genuine (config : Config) (clock : Timeval) (probe : Probe) : Prop where
  fits : Fits probe
  untagged : Untagged probe
  short : probe.padding ≤ 1500
  among : probe.daddr ∈ config.targets
  sent : 0 < probe.tvSec
  past : (⟨probe.tvSec, probe.tvUsec⟩ : Timeval) ≤ clock

def Known (config : Config) (mod : State) (probe : Probe) : Prop :=
  unset (time mod.flowController (index config probe)) = false

def Kept (buffers : List (List UInt8)) (id : Nat) (probe : Probe) : Prop :=
  buffers[id]? = some probe.encode ∨ id = noBuffer

/-- The arrays of the module and the order of the times in them. -/
structure Ordered (config : Config) (clock : Timeval) (mod : State) : Prop where
  sendLength : mod.flowSend.length = config.flows
  controllerLength : mod.flowController.length = config.flows
  receivedLength : mod.flowReceived.length = config.flows
  reported : ∀ i, unset (time mod.flowSend i) = unset (time mod.flowController i)
  send_le : ∀ i, time mod.flowSend i ≤ time mod.flowController i
  controller_le : ∀ i, time mod.flowController i ≤ clock

/-- What the module keeps of the frames, and how it stands to the reports. -/
structure Noted (config : Config) (clock : Timeval) (mod : State) (log : List Entry) : Prop where
  past : ∀ entry ∈ log, entry.time ≤ clock
  flags : ∀ i < config.flows,
    mod.received.ipReceived[i]? = some (if (firstFrame i log).isSome then 1 else 0)
  received : ∀ i < config.flows,
    time mod.flowReceived i = (firstFrame i log).elim ⟨0, 0⟩ Entry.time
  reported : ∀ i, unset (time mod.flowController i) = false → (firstOf i log).isSome
  returned : ∀ i ts, firstFrame i log = some (.captured false i ts) →
    unset (time mod.flowController i) = false ∧ time mod.flowController i ≤ ts
  own : ∀ i ts, firstOf i log = some (.captured true i ts) →
    unset (time mod.flowController i) = false → ts ≤ time mod.flowController i

structure Sound (config : Config) (inPort : Nat) (world : World) : Prop where
  started : 0 < world.clock.tvSec
  buffers : world.buffers.length ≤ noBuffer
  packetIns : ∀ message ∈ world.packetIns, ∃ id probe, Genuine config world.clock probe ∧
    Kept world.buffers id probe ∧
    message = encodePacketIn 0 id probe.encode.length inPort probe.encode
  flowMods : ∀ b ∈ world.flowMods, ∃ id probe, Genuine config world.clock probe ∧
    Known config world.mod probe ∧
    Kept world.buffers id probe ∧ Reads b id inPort probe
  table : ∀ entry ∈ world.table, ∃ probe, Genuine config world.clock probe ∧
    Known config world.mod probe ∧
    entry.1 = ⟨0, probeHeader inPort probe⟩
  returned : ∀ frame ∈ world.returned, ∃ probe, Genuine config world.clock probe ∧
    Known config world.mod probe ∧
    frame = probe.encode
  outgoing : ∀ frame ∈ world.outgoing, ∃ probe, Genuine config world.clock probe ∧
    frame = probe.encode
  ordered : Ordered config world.clock world.mod

section
variable {config : Config} {clock later : Timeval} {probe : Probe} {mod next : State}
  {i inPort : Nat}

theorem Genuine.mono (genuine : Genuine config clock probe) (le : clock ≤ later) :
    Genuine config later probe :=
  { genuine with past := genuine.past.trans le }

theorem Ordered.mono (ordered : Ordered config clock mod) (le : clock ≤ later) :
    Ordered config later mod :=
  { ordered with controller_le := fun i => (ordered.controller_le i).trans le }

theorem Kept.append {buffers : List (List UInt8)} {id : Nat} (kept : Kept buffers id probe)
    (more : List (List UInt8)) : Kept (buffers ++ more) id probe := by
  refine kept.imp_left fun here => ?_
  rw [List.getElem?_append_left (List.getElem?_eq_some_iff.mp here).1]
  exact here

theorem Kept.id_lt {buffers : List (List UInt8)} {id : Nat} (kept : Kept buffers id probe)
    (few : buffers.length ≤ noBuffer) : id < 2 ^ 32 := by
  have most : noBuffer < 2 ^ 32 := by decide
  rcases kept with here | rfl
  · have inside := (List.getElem?_eq_some_iff.mp here).1
    omega
  · exact most

def Keeps (before after : List Timeval) : Prop :=
  ∀ i, unset (time before i) = false → time after i = time before i

theorem Known.keep (known : Known config mod probe)
    (keeps : Keeps mod.flowController next.flowController) : Known config next probe := by
  unfold Known
  rw [keeps _ known]
  exact known

variable {world : World}

theorem Sound.update (sound : Sound config inPort world) (le : world.clock ≤ later)
    (keeps : Keeps world.mod.flowController next.flowController)
    (ordered : Ordered config later next) :
    Sound config inPort { world with clock := later, mod := next } where
  started := lt_of_lt_of_le sound.started (Timeval.tvSec_mono le)
  buffers := sound.buffers
  packetIns message member := by
    obtain ⟨id, probe, genuine, kept, same⟩ := sound.packetIns message member
    exact ⟨id, probe, genuine.mono le, kept, same⟩
  flowMods b member := by
    obtain ⟨id, probe, genuine, known, kept, reads⟩ := sound.flowMods b member
    exact ⟨id, probe, genuine.mono le, known.keep keeps, kept, reads⟩
  table entry member := by
    obtain ⟨probe, genuine, known, same⟩ := sound.table entry member
    exact ⟨probe, genuine.mono le, known.keep keeps, same⟩
  returned frame member := by
    obtain ⟨probe, genuine, known, same⟩ := sound.returned frame member
    exact ⟨probe, genuine.mono le, known.keep keeps, same⟩
  outgoing frame member := by
    obtain ⟨probe, genuine, same⟩ := sound.outgoing frame member
    exact ⟨probe, genuine.mono le, same⟩
  ordered := ordered

theorem Sound.tick (sound : Sound config inPort world) (le : world.clock ≤ later) :
    Sound config inPort { world with clock := later } :=
  sound.update le (fun _ _ => rfl) (sound.ordered.mono le)

/-! ### The switch -/

theorem Sound.lookup_known (sound : Sound config inPort world) (small : inPort < 2 ^ 16)
    (genuine : Genuine config world.clock probe) {port : Nat}
    (found : lookup inPort world.table probe.encode = some port) :
    Known config world.mod probe := by
  obtain ⟨entry, first, -⟩ := Option.map_eq_some_iff.mp found
  obtain ⟨other, genuine', known, same⟩ := sound.table entry (List.mem_of_find?_eq_some first)
  have holds := List.find?_some first
  have takes : Takes entry.1 (headerOf (beBytes 2 inPort) probe.encode) := of_decide_eq_true holds
  rw [same, takes_probe_iff genuine'.fits genuine.fits genuine'.untagged genuine.untagged small
    small] at takes
  unfold Known index at known ⊢
  rwa [takes.daddr] at known

theorem mem_output {port : Nat} {frame other : List UInt8} (member : other ∈ output port frame) :
    other = frame := by
  unfold output at member
  split_ifs at member
  · exact List.mem_singleton.mp member
  · cases member

theorem Sound.return (sound : Sound config inPort world) {frames : List (List UInt8)}
    (known : ∀ frame ∈ frames, ∃ probe,
      Genuine config world.clock probe ∧ Known config world.mod probe ∧ frame = probe.encode) :
    Sound config inPort { world with returned := world.returned ++ frames } where
  __ := sound
  returned := List.forall_mem_append.mpr ⟨sound.returned, known⟩

theorem Sound.send (sound : Sound config inPort world)
    (genuine : Genuine config world.clock probe) :
    Sound config inPort { world with outgoing := world.outgoing ++ [probe.encode] } where
  __ := sound
  outgoing := by
    refine List.forall_mem_append.mpr ⟨sound.outgoing, ?_⟩
    rw [List.forall_mem_singleton]
    exact ⟨probe, genuine, rfl⟩

theorem Sound.receiveFrame (sound : Sound config inPort world) (small : inPort < 2 ^ 16)
    (genuine : Genuine config world.clock probe) :
    Sound config inPort (ControlLoop.receiveFrame inPort probe.encode world) := by
  unfold ControlLoop.receiveFrame
  cases found : lookup inPort world.table probe.encode with
  | some port =>
    apply sound.return
    intro frame member
    exact ⟨probe, genuine, sound.lookup_known small genuine found, mem_output member⟩
  | none =>
    unfold keep
    split_ifs with room
    · have here : Kept (world.buffers ++ [probe.encode]) world.buffers.length probe :=
        .inl List.getElem?_concat_length
      refine { sound with
        buffers := ?_, packetIns := List.forall_mem_append.mpr ⟨?_, ?_⟩, flowMods := ?_ }
      · rw [List.length_append, List.length_singleton]
        omega
      · intro message member
        obtain ⟨id, other, genuine', kept, same⟩ := sound.packetIns message member
        exact ⟨id, other, genuine', kept.append _, same⟩
      · rw [List.forall_mem_singleton]
        exact ⟨_, probe, genuine, here, rfl⟩
      · intro b member
        obtain ⟨id, other, genuine', known, kept, reads⟩ := sound.flowMods b member
        exact ⟨id, other, genuine', known, kept.append _, reads⟩
    · refine { sound with packetIns := List.forall_mem_append.mpr ⟨sound.packetIns, ?_⟩ }
      rw [List.forall_mem_singleton]
      exact ⟨noBuffer, probe, genuine, .inr rfl, rfl⟩

theorem Sound.receiveFlowMod (sound : Sound config inPort world) {b : List UInt8}
    (sent : b ∈ world.flowMods) : Sound config inPort (ControlLoop.receiveFlowMod b world) := by
  obtain ⟨id, probe, genuine, known, kept, reads⟩ := sound.flowMods b sent
  have installed : Sound config inPort { world with
      table := (readRule b, beValue (slice b 76 2)) :: world.table } :=
    { sound with
      table := List.forall_mem_cons.mpr ⟨⟨probe, genuine, known, reads.rule⟩, sound.table⟩ }
  apply installed.return
  intro frame member
  obtain ⟨other, buffered, out⟩ := List.mem_flatMap.mp member
  refine ⟨probe, genuine, known, ?_⟩
  rw [mem_output out]
  rw [Option.mem_toList, reads.bufferId,
    beValue_beBytes_of_lt (kept.id_lt sound.buffers)] at buffered
  rcases kept with here | rfl
  · exact Option.some.inj (buffered.symm.trans here)
  · have outside := (List.getElem?_eq_some_iff.mp buffered).1
    have few := sound.buffers
    omega

/-! ### The module -/

theorem unset_eq_false {t : Timeval} (positive : 0 < t.tvSec) : unset t = false :=
  decide_eq_false positive.ne'

theorem Ordered.report (ordered : Ordered config clock mod) {sent now : Timeval}
    (positive : 0 < sent.tvSec) (past : sent ≤ now) (le : clock ≤ now)
    {flowSend flowController : List Timeval} (sendLength : flowSend.length = config.flows)
    (controllerLength : flowController.length = config.flows)
    (sends : ∀ j, time flowSend j = if j = i ∧ unset (time mod.flowSend i) = true then sent
      else time mod.flowSend j)
    (controls : ∀ j, time flowController j = if j = i ∧ unset (time mod.flowController i) =
      true then now else time mod.flowController j) :
    Ordered config now { mod with flowSend, flowController } ∧
      Keeps mod.flowController flowController ∧
      unset (time flowController i) = false := by
  have nowSet : unset now = false :=
    unset_eq_false (lt_of_lt_of_le positive (Timeval.tvSec_mono past))
  have keeps : Keeps mod.flowController flowController := by
    intro j set
    rw [controls j, if_neg]
    rintro ⟨rfl, free⟩
    rw [set] at free
    cases free
  refine ⟨?_, keeps, ?_⟩
  · refine { ordered with
      sendLength := sendLength, controllerLength := controllerLength
      reported := ?_, send_le := ?_, controller_le := ?_ }
    · intro j
      change unset (time flowSend j) = unset (time flowController j)
      rw [sends j, controls j, ordered.reported i]
      split_ifs
      · rw [unset_eq_false positive, nowSet]
      · exact ordered.reported j
    · intro j
      change time flowSend j ≤ time flowController j
      rw [sends j, controls j, ordered.reported i]
      split_ifs
      · exact past
      · exact ordered.send_le j
    · intro j
      change time flowController j ≤ now
      rw [controls j]
      split_ifs
      · exact le_rfl
      · exact (ordered.controller_le j).trans le
  · rw [controls i]
    split_ifs with free
    · exact nowSet
    · simpa using free

theorem Ordered.receive (ordered : Ordered config clock mod) {now : Timeval} (le : clock ≤ now)
    {flowReceived : List Timeval} (received : Received)
    (receivedLength : flowReceived.length = config.flows) :
    Ordered config now { mod with flowReceived, received } where
  __ := ordered.mono le
  receivedLength := receivedLength

/-! ### What is kept of the frames -/

variable {log : List Entry}

theorem firstFrame_concat (i : Nat) (log : List Entry) (entry : Entry) :
    firstFrame i (log ++ [entry]) =
      (firstFrame i log).or (if entry.isCaptured ∧ entry.flow = i then some entry else none) := by
  rw [firstFrame, List.find?_append, List.find?_singleton]
  simp only [decide_eq_true_eq]
  rfl

theorem firstOf_concat (i : Nat) (log : List Entry) (entry : Entry) :
    firstOf i (log ++ [entry]) =
      (firstOf i log).or (if entry.flow = i then some entry else none) := by
  rw [firstOf, List.find?_append, List.find?_singleton]
  simp only [decide_eq_true_eq]
  rfl

theorem firstOf_isSome (frame : (firstFrame i log).isSome) : (firstOf i log).isSome := by
  obtain ⟨entry, member, here⟩ := List.find?_isSome.mp frame
  refine List.find?_isSome.mpr ⟨entry, member, ?_⟩
  exact decide_eq_true (of_decide_eq_true here).2

theorem firstFrame_of_firstOf {own : Bool} {ts : Timeval}
    (first : firstOf i log = some (.captured own i ts)) :
    firstFrame i log = some (.captured own i ts) := by
  obtain ⟨here, before, after, rfl, others⟩ := List.find?_eq_some_iff_append.mp first
  refine List.find?_eq_some_iff_append.mpr ⟨by simp [Entry.isCaptured, Entry.flow],
    before, after, rfl, fun entry member => ?_⟩
  have other := others entry member
  simp only [Bool.not_eq_true', decide_eq_false_iff_not] at other ⊢
  exact fun both => other both.2

theorem Noted.mono (noted : Noted config clock mod log) (le : clock ≤ later) :
    Noted config later mod log :=
  { noted with past := fun entry member => (noted.past entry member).trans le }

theorem Noted.report (noted : Noted config clock mod log) {now : Timeval} (le : clock ≤ now)
    {flowSend flowController : List Timeval}
    (keeps : Keeps mod.flowController flowController)
    (controls : ∀ j, time flowController j =
      if j = i ∧ unset (time mod.flowController i) = true then now else time mod.flowController j) :
    Noted config now { mod with flowSend, flowController } (log ++ [.reported i now]) := by
  have frames : ∀ j, firstFrame j (log ++ [.reported i now]) = firstFrame j log := by
    intro j
    rw [firstFrame_concat, if_neg (fun both => Bool.noConfusion both.1), Option.or_none]
  refine ⟨?_, ?_, ?_, ?_, ?_, ?_⟩
  · refine List.forall_mem_append.mpr ⟨(noted.mono le).past, ?_⟩
    rw [List.forall_mem_singleton]
    exact le_rfl
  · intro j inside
    rw [frames]
    exact noted.flags j inside
  · intro j inside
    rw [frames]
    exact noted.received j inside
  · intro j set
    rw [firstOf_concat]
    by_cases same : (Entry.reported i now).flow = j
    · rw [if_pos same, Option.isSome_or]
      exact Bool.or_true _
    · change unset (time flowController j) = false at set
      rw [controls j, if_neg (fun both => same both.1.symm)] at set
      rw [Option.isSome_or, noted.reported j set]
      rfl
  · intro j ts first
    rw [frames] at first
    obtain ⟨set, before⟩ := noted.returned j ts first
    change unset (time flowController j) = false ∧ time flowController j ≤ ts
    rw [keeps j set]
    exact ⟨set, before⟩
  · intro j ts first set
    change ts ≤ time flowController j
    rw [firstOf_concat] at first
    rcases Option.or_eq_some_iff.mp first with before | ⟨-, last⟩
    · rw [controls j]
      split_ifs with fresh
      · exact (noted.past _ (List.mem_of_find?_eq_some before)).trans le
      · rw [controls j, if_neg fresh] at set
        exact noted.own j ts before set
    · split_ifs at last
      cases last

theorem Noted.capture_known (noted : Noted config clock mod log) {now : Timeval} (le : clock ≤ now)
    (own : Bool) (known : (firstFrame i log).isSome) :
    Noted config now mod (log ++ [.captured own i now]) := by
  have frames : ∀ j, firstFrame j (log ++ [.captured own i now]) = firstFrame j log := by
    intro j
    rw [firstFrame_concat]
    by_cases same : i = j
    · rw [← same, Option.or_of_isSome known]
    · rw [if_neg (fun both => same both.2), Option.or_none]
  have entries : ∀ j, firstOf j (log ++ [.captured own i now]) = firstOf j log := by
    intro j
    rw [firstOf_concat]
    by_cases same : (Entry.captured own i now).flow = j
    · subst same
      exact Option.or_of_isSome (firstOf_isSome known)
    · rw [if_neg same, Option.or_none]
  refine ⟨?_, ?_, ?_, ?_, ?_, ?_⟩
  · refine List.forall_mem_append.mpr ⟨(noted.mono le).past, ?_⟩
    rw [List.forall_mem_singleton]
    exact le_rfl
  · simpa only [frames] using noted.flags
  · simpa only [frames] using noted.received
  · simpa only [entries] using noted.reported
  · simpa only [frames] using noted.returned
  · simpa only [entries] using noted.own

theorem Noted.capture_new (noted : Noted config clock mod log) {now : Timeval} (le : clock ≤ now)
    {own : Bool} (new : firstFrame i log = none)
    (controller : own = false →
      unset (time mod.flowController i) = false ∧ time mod.flowController i ≤ now)
    {flowReceived : List Timeval} {received : Received}
    (flags : ∀ j < config.flows,
      received.ipReceived[j]? = if j = i then some 1 else mod.received.ipReceived[j]?)
    (receives : ∀ j, time flowReceived j = if j = i then now else time mod.flowReceived j) :
    Noted config now { mod with flowReceived, received } (log ++ [.captured own i now]) := by
  have here : firstFrame i (log ++ [.captured own i now]) = some (.captured own i now) := by
    rw [firstFrame_concat, new, if_pos ⟨rfl, rfl⟩]
    rfl
  have others : ∀ j, j ≠ i → firstFrame j (log ++ [.captured own i now]) = firstFrame j log := by
    intro j other
    rw [firstFrame_concat, if_neg (fun both => other both.2.symm), Option.or_none]
  refine ⟨?_, ?_, ?_, ?_, ?_, ?_⟩
  · refine List.forall_mem_append.mpr ⟨(noted.mono le).past, ?_⟩
    rw [List.forall_mem_singleton]
    exact le_rfl
  · intro j inside
    refine (flags j inside).trans ?_
    by_cases same : j = i
    · rw [if_pos same, same, here]
      rfl
    · rw [if_neg same, others j same]
      exact noted.flags j inside
  · intro j inside
    refine (receives j).trans ?_
    by_cases same : j = i
    · rw [if_pos same, same, here]
      rfl
    · rw [if_neg same, others j same]
      exact noted.received j inside
  · intro j set
    rw [firstOf_concat, Option.isSome_or, noted.reported j set]
    rfl
  · intro j ts first
    by_cases same : j = i
    · rw [same, here, Option.some.injEq, Entry.captured.injEq] at first
      obtain ⟨back, -, rfl⟩ := first
      rw [same]
      exact controller back
    · rw [others j same] at first
      exact noted.returned j ts first
  · intro j ts first set
    rw [firstOf_concat] at first
    rcases Option.or_eq_some_iff.mp first with before | ⟨none, -⟩
    · exact noted.own j ts before set
    · -- a report before it would be in the log
      have reported := noted.reported j set
      rw [none] at reported
      cases reported

theorem receive_flag {received : Received} {flag : Int} (inside : i < config.flows)
    (here : received.ipReceived[i]? = some flag) :
    ∃ after arrival, receive config.flows i received = some (after, arrival) ∧
      (flag ≠ 0 → arrival = .known) ∧
      (flag = 0 → arrival ≠ .known ∧ after.ipReceived = received.ipReceived.set i 1) := by
  have range : (i : Int) ≥ 0 ∧ (i : Int) < config.flows := by omega
  rw [receive, if_pos range, Int.toNat_natCast, here, Option.bind_eq_bind, Option.bind_some]
  split_ifs with free
  · refine ⟨_, _, rfl, fun set => absurd free set, fun _ => ⟨?_, rfl⟩⟩
    split_ifs <;> decide
  · exact ⟨_, _, rfl, fun _ => rfl, fun none => absurd none free⟩

end

section
variable {nf : Nat → List UInt8 → Int → Option PktgenHdr} {channels : List Channel}
  {config : Config} {inPort : Nat} {world : World}

theorem Genuine.frame {clock : Timeval} {probe : Probe} (genuine : Genuine config clock probe) :
    58 ≤ probe.encode.length ∧ probe.encode.length ≤ 1558 := by
  have ether := genuine.untagged.length
  have short := genuine.short
  rw [probe.encode_length]
  omega

variable {log : List Entry}

theorem Sound.report (sound : Sound config inPort world)
    (noted : Noted config world.clock world.mod log)
    (nf : Nat → List UInt8 → Int → Option PktgenHdr) (small : inPort < 2 ^ 16)
    (pcap : IsPcap channels inPort) {message : List UInt8} (sent : message ∈ world.packetIns)
    (fl : Flow) {now : Timeval} (le : world.clock ≤ now) :
    ∃ mod effects i, ofEventPacketIn nf channels config ⟨message, fl, now⟩ world.mod =
        some (mod, effects) ∧
      reportOf nf channels config (.packetIn ⟨message, fl, now⟩) = some (i, now) ∧
      Sound config inPort { world with
        clock := now, mod, flowMods := world.flowMods ++ effects.filterMap Effect.message } ∧
      Noted config now mod (log ++ [.reported i now]) := by
  obtain ⟨id, probe, genuine, kept, rfl⟩ := sound.packetIns message sent
  obtain ⟨long, short⟩ := genuine.frame
  have header : 34 ≤ probe.encode.length := by omega
  have atPort : AtPort channels inPort probe := ⟨genuine.fits, genuine.untagged, small, pcap⟩
  obtain ⟨b, reads, handled⟩ :=
    ofEventPacketIn_probe config atPort 0 id header (by omega) fl now
  obtain ⟨number, inside⟩ := index_flowId genuine.fits genuine.among
  obtain ⟨flowSend, stored, sendLength, sends⟩ := storeFirst_slots ⟨0, 0⟩
    sound.ordered.sendLength inside (⟨probe.tvSec, probe.tvUsec⟩ : Timeval)
  obtain ⟨flowController, stored', controllerLength, controls⟩ :=
    storeFirst_slots ⟨0, 0⟩ sound.ordered.controllerLength inside now
  obtain ⟨ordered, keeps, set⟩ := sound.ordered.report (Int.natCast_pos.mpr genuine.sent)
    (genuine.past.trans le) le sendLength controllerLength sends controls
  refine ⟨{ world.mod with flowSend, flowController }, [.sent b], index config probe, ?_, ?_, ?_,
    noted.report le keeps controls⟩
  · rw [handled, number, stored, Option.bind_some, stored', Option.bind_some]
  · rw [reportOf, reported_probe atPort 0 id header (by omega) fl now]
    rfl
  · have after := sound.update le keeps ordered
    refine { after with flowMods := List.forall_mem_append.mpr ⟨after.flowMods, ?_⟩ }
    intro other member
    obtain rfl := List.mem_singleton.mp member
    exact ⟨id, probe, genuine.mono le, set, kept, reads⟩

theorem destination_probe (nf : Nat → List UInt8 → Int → Option PktgenHdr) {probe : Probe}
    {clock : Timeval} (genuine : Genuine config clock probe) (pcap : IsPcap channels oflopsData1)
    (fl : Flow) (now : Timeval) :
    destination nf channels oflopsData1 (captureOf probe.encode fl now) =
      some (htonl probe.daddr) := by
  obtain ⟨channel, known, type⟩ := pcap
  obtain ⟨long, short⟩ := genuine.frame
  have ether := genuine.untagged.length
  have caplen :
      MachineInt.int32 (UInt32.ofNat probe.encode.length).toNat = probe.encode.length := by
    rw [UInt32.toNat_ofNat', Nat.mod_eq_of_lt (by omega)]
    exact MachineInt.int32_of_range (by omega) (by omega)
  have extracted := extract_probe_long nf known type genuine.fits (by omega)
    genuine.untagged.located genuine.untagged.fields fl probe.encode.length (by omega)
  refine (if_pos rfl).trans ?_
  simp only [extract, captureOf, caplen, extracted, Option.bind_some, pktgenOf, Option.map_some,
    flowOf]

theorem Sound.frames (sound : Sound config inPort world) {own : Bool} {frame : List UInt8}
    (sent : frame ∈ world.frames own) :
    ∃ probe, Genuine config world.clock probe ∧ frame = probe.encode ∧
      (own = false → Known config world.mod probe) := by
  cases own with
  | false =>
    obtain ⟨probe, genuine, known, same⟩ := sound.returned frame sent
    exact ⟨probe, genuine, same, fun _ => known⟩
  | true =>
    obtain ⟨probe, genuine, same⟩ := sound.outgoing frame sent
    exact ⟨probe, genuine, same, nofun⟩

theorem Sound.capture (sound : Sound config inPort world)
    (noted : Noted config world.clock world.mod log)
    (nf : Nat → List UInt8 → Int → Option PktgenHdr) (pcap : IsPcap channels oflopsData1)
    {own : Bool} {frame : List UInt8} (sent : frame ∈ world.frames own) (fl : Flow)
    {now : Timeval} (le : world.clock ≤ now) (msg : List Char) :
    ∃ mod effects i, handlePcapEvent nf channels config (captureOf frame fl now) msg world.mod =
        some (mod, effects) ∧
      arrivalOf nf channels config (.captured (captureOf frame fl now) msg) = some (i, now) ∧
      Sound config inPort { world with clock := now, mod } ∧
      Noted config now mod (log ++ [.captured own i now]) := by
  obtain ⟨probe, genuine, rfl, known⟩ := sound.frames sent
  have there := destination_probe nf genuine pcap fl now
  obtain ⟨-, handled⟩ := handlePcapEvent_heard config msg there
  obtain ⟨number, inside⟩ := index_flowId genuine.fits genuine.among
  have arrives : arrivalOf nf channels config (.captured (captureOf probe.encode fl now) msg) =
      some (index config probe, now) := by
    rw [arrivalOf, there, Option.bind_some, if_pos]
    · rfl
    · rw [mem_targets_iff, number]
      omega
  have flag := noted.flags _ inside
  obtain ⟨after, arrival, counted, old, new⟩ := receive_flag inside flag
  cases before : firstFrame (index config probe) log with
  | some entry =>
    have repeated : arrival = .known := old (by rw [before]; exact one_ne_zero)
    have seen : (firstFrame (index config probe) log).isSome := by
      rw [before]
      rfl
    refine ⟨world.mod, [], _, ?_, arrives, sound.tick le, noted.capture_known le own seen⟩
    rw [handled, number, counted, Option.bind_some]
    exact if_pos repeated
  | none =>
    obtain ⟨first, flags⟩ := new (by rw [before]; rfl)
    have room : index config probe < world.mod.received.ipReceived.length :=
      (List.getElem?_eq_some_iff.mp flag).1
    obtain ⟨flowReceived, stored, receivedLength, receives⟩ := storeLast_slots ⟨0, 0⟩
      sound.ordered.receivedLength inside (captureOf probe.encode fl now).pcaphdr.ts
    refine ⟨{ world.mod with flowReceived, received := after },
      if arrival = .last then finish (captureOf probe.encode fl now) msg else [], _, ?_, arrives,
      sound.update le (fun _ _ => rfl) (sound.ordered.receive le after receivedLength),
      noted.capture_new le before ?_ ?_ receives⟩
    · rw [handled, number, counted, Option.bind_some]
      dsimp only
      rw [if_neg first, stored, Option.bind_some]
    · intro back
      exact ⟨known back, (sound.ordered.controller_le _).trans le⟩
    · intro j _
      rw [flags, List.getElem?_set]
      by_cases same : index config probe = j
      · rw [if_pos same, if_pos same.symm, if_pos (same ▸ room)]
      · rw [if_neg same, if_neg (Ne.symm same)]

/-- One action: whatever can happen is handled, and the order of the times is kept. -/
theorem Sound.act (sound : Sound config inPort world)
    (noted : Noted config world.clock world.mod log)
    (nf : Nat → List UInt8 → Int → Option PktgenHdr) (small : inPort < 2 ^ 16)
    (port : IsPcap channels inPort) (data : IsPcap channels oflopsData1) {action : Action config}
    (possible : Possible world action) :
    ∃ next output, ControlLoop.act nf channels config inPort world action = some (next, output) ∧
      Sound config inPort next ∧ Noted config next.clock next.mod (log ++ output.toList) := by
  cases action with
  | send sending =>
    have le : world.clock ≤ sending.now := possible
    have positive := lt_of_lt_of_le sound.started (Timeval.tvSec_mono le)
    have genuine : Genuine config sending.now sending.probe :=
      ⟨sending.fits, sending.untagged, sending.short, sending.among,
        by have := sending.seconds; omega, le_of_eq (by rw [sending.seconds, sending.usecs])⟩
    have sent := ((sound.tick le).send genuine).receiveFrame small genuine
    refine ⟨_, _, if_pos le, sent, ?_⟩
    rw [Option.toList_none, List.append_nil, receiveFrame_clock, receiveFrame_mod]
    exact noted.mono le
  | report k fl now =>
    obtain ⟨le, inside⟩ := possible
    have here := List.getElem?_eq_getElem inside
    obtain ⟨mod, effects, i, handled, entry, after, noted⟩ :=
      sound.report noted nf small port (List.mem_of_getElem? here) fl le
    refine ⟨_, some (.reported i now), ?_, after, noted⟩
    rw [ControlLoop.act, if_pos le, here]
    simp only [Option.bind_eq_bind, Option.bind_some, handled, entry, Option.map_some]
  | install k =>
    have here := List.getElem?_eq_getElem possible
    refine ⟨_, none, ?_, sound.receiveFlowMod (List.mem_of_getElem? here), ?_⟩
    · rw [ControlLoop.act, here]
      rfl
    · rw [Option.toList_none, List.append_nil]
      exact noted
  | capture own k fl now msg =>
    obtain ⟨le, inside⟩ := possible
    have here := List.getElem?_eq_getElem inside
    obtain ⟨mod, effects, i, handled, entry, after, noted⟩ :=
      sound.capture noted nf data (List.mem_of_getElem? here) fl le msg
    refine ⟨_, some (.captured own i now), ?_, after, noted⟩
    rw [ControlLoop.act, if_pos le, here]
    simp only [Option.bind_eq_bind, Option.bind_some, handled, entry, Option.map_some]

theorem possible_of_act {action : Action config} {next : World × Option Entry}
    (acted : act nf channels config inPort world action = some next) : Possible world action := by
  cases action with
  | send sending =>
    simp only [act] at acted
    split_ifs at acted with le
    exact le
  | report k fl now =>
    simp only [act] at acted
    split_ifs at acted with le
    obtain ⟨message, here, -⟩ := Option.bind_eq_some_iff.mp acted
    exact ⟨le, (List.getElem?_eq_some_iff.mp here).1⟩
  | install k =>
    obtain ⟨b, here, -⟩ := Option.bind_eq_some_iff.mp acted
    exact (List.getElem?_eq_some_iff.mp here).1
  | capture own k fl now msg =>
    simp only [act] at acted
    split_ifs at acted with le
    obtain ⟨frame, here, -⟩ := Option.bind_eq_some_iff.mp acted
    exact ⟨le, (List.getElem?_eq_some_iff.mp here).1⟩

theorem time_blank (n i : Nat) : time (List.replicate n ⟨0, 0⟩) i = ⟨0, 0⟩ := by
  unfold time
  by_cases inside : i < n
  · rw [List.getElem?_replicate_of_lt inside]
    rfl
  · rw [List.getElem?_eq_none (by rw [List.length_replicate]; omega)]
    rfl

theorem sound_begin (config : Config) (inPort : Nat) {clock : Timeval}
    (started : 0 < clock.tvSec) : Sound config inPort (begin config clock) := by
  refine ⟨started, Nat.zero_le _, nofun, nofun, nofun, nofun, nofun, ?_⟩
  refine ⟨List.length_replicate, List.length_replicate, List.length_replicate, ?_, ?_, ?_⟩
  · intro i
    rfl
  · intro i
    exact le_rfl
  · intro i
    change time (List.replicate config.flows ⟨0, 0⟩) i ≤ clock
    rw [time_blank]
    exact le_of_lt ((Timeval.lt_def _ _).mpr (.inl started))

theorem noted_begin (config : Config) (clock : Timeval) : Noted config clock (init config) [] := by
  refine ⟨nofun, ?_, ?_, ?_, nofun, nofun⟩
  · intro i inside
    exact List.getElem?_replicate_of_lt inside
  · intro i _
    exact time_blank config.flows i
  · intro i set
    change unset (time (List.replicate config.flows ⟨0, 0⟩) i) = false at set
    rw [time_blank] at set
    cases set

end

/-- With a switch that does what the messages say, and whatever is delayed, lost, repeated or
overtaken on the way: every message and every frame is handled, and the receive time of a flow is
that of the first frame of the flow that was captured. If that one came back from the switch, the
times of the flow are in order, from sending over the report to the return; if it was a probe on
its way out, captured before a report of the flow, the receive time is not after the report. -/
theorem reactive_times_ordered (nf : Nat → List UInt8 → Int → Option PktgenHdr)
    {channels : List Channel} (config : Config) {inPort : Nat} (small : inPort < 2 ^ 16)
    (port : IsPcap channels inPort) (data : IsPcap channels oflopsData1) {clock : Timeval}
    (started : 0 < clock.tvSec) {actions : List (Action config)} {world : World}
    {log : List Entry}
    (ran : Machine.run (act nf channels config inPort) (begin config clock) actions =
      some (world, log)) :
    (∀ i < config.flows,
      time world.mod.flowReceived i = (firstFrame i log).elim ⟨0, 0⟩ Entry.time ∧
      (∀ ts, firstFrame i log = some (.captured false i ts) →
        unset (time world.mod.flowSend i) = false ∧
        time world.mod.flowSend i ≤ time world.mod.flowController i ∧
        time world.mod.flowController i ≤ time world.mod.flowReceived i) ∧
      (∀ ts, firstOf i log = some (.captured true i ts) →
        unset (time world.mod.flowController i) = false →
        time world.mod.flowReceived i ≤ time world.mod.flowController i)) ∧
    ∀ action, Possible world action → (act nf channels config inPort world action).isSome := by
  obtain ⟨sound, noted⟩ : Sound config inPort world ∧ Noted config world.clock world.mod log := by
    refine Machine.run_log_invariant
      (fun world log => Sound config inPort world ∧ Noted config world.clock world.mod log) ?_
      ⟨sound_begin config inPort started, noted_begin config clock⟩ ran
    rintro state past action next output ⟨sound, noted⟩ acted
    obtain ⟨next', output', acted', after⟩ :=
      sound.act noted nf small port data (possible_of_act acted)
    cases acted'.symm.trans acted
    exact after
  constructor
  · intro i inside
    have received := noted.received i inside
    refine ⟨received, ?_, ?_⟩
    · intro ts first
      obtain ⟨set, before⟩ := noted.returned i ts first
      rw [received, first]
      exact ⟨(sound.ordered.reported i).trans set, sound.ordered.send_le i, before⟩
    · intro ts first set
      have frame : firstFrame i log = some (.captured true i ts) := firstFrame_of_firstOf first
      rw [received, frame]
      exact noted.own i ts first set
  · intro action possible
    obtain ⟨next, output, acted, -⟩ := sound.act noted nf small port data possible
    rw [acted]
    rfl

def sampleSending : Sending oneFlow where
  probe := sampleProbe
  now := ⟨1400000001, 0⟩
  fits := sampleProbe_fits
  untagged := ⟨rfl, rfl⟩
  short := Nat.zero_le 1500
  seconds := rfl
  usecs := rfl
  among := sampleProbe_among

def sampleFlow : Flow := ⟨0, 0, [], [], 0, 0, 0, 0, 0, 0, 0, 0⟩

/-- The flow is reported, its rule installed, and the frame comes back. -/
def sampleRun : List (Action oneFlow) :=
  [.send sampleSending, .report 0 sampleFlow ⟨1400000002, 0⟩, .install 0,
    .capture false 0 sampleFlow ⟨1400000003, 0⟩ []]

/-- The probe is captured as it leaves the generator, before it is reported. -/
def echoRun : List (Action oneFlow) :=
  [.send sampleSending, .capture true 0 sampleFlow ⟨1400000001, 10⟩ [],
    .report 0 sampleFlow ⟨1400000002, 0⟩]

def sampleEnd (actions : List (Action oneFlow)) : Option (World × List Entry) :=
  Machine.run (act (fun _ _ _ => none) pcapPorts oneFlow oflopsData1)
    (begin oneFlow ⟨1400000000, 0⟩) actions

theorem sampleRun_ends : ∃ world, sampleEnd sampleRun =
    some (world, [.reported 0 ⟨1400000002, 0⟩, .captured false 0 ⟨1400000003, 0⟩]) := by
  have logged : (sampleEnd sampleRun).map Prod.snd =
      some [.reported 0 ⟨1400000002, 0⟩, .captured false 0 ⟨1400000003, 0⟩] := by decide +kernel
  obtain ⟨⟨world, log⟩, ran, rfl⟩ := Option.map_eq_some_iff.mp logged
  exact ⟨world, ran⟩

theorem echoRun_ends : ∃ world, sampleEnd echoRun =
      some (world, [.captured true 0 ⟨1400000001, 10⟩, .reported 0 ⟨1400000002, 0⟩]) ∧
    unset (time world.mod.flowController 0) = false := by
  have logged : (sampleEnd echoRun).map
      (fun ended => (ended.2, unset (time ended.1.mod.flowController 0))) =
        some ([.captured true 0 ⟨1400000001, 10⟩, .reported 0 ⟨1400000002, 0⟩], false) := by
    decide +kernel
  obtain ⟨⟨world, log⟩, ran, same⟩ := Option.map_eq_some_iff.mp logged
  obtain ⟨rfl, set⟩ := Prod.mk.inj same
  exact ⟨world, ran, set⟩

theorem reactive_times_ordered_returned :
    (∃ world log, sampleEnd sampleRun = some (world, log) ∧
      time world.mod.flowSend 0 ≤ time world.mod.flowController 0 ∧
      time world.mod.flowController 0 ≤ time world.mod.flowReceived 0) ∧
    ∃ world log, sampleEnd echoRun = some (world, log) ∧
      time world.mod.flowReceived 0 ≤ time world.mod.flowController 0 := by
  have port : IsPcap pcapPorts oflopsData1 := ⟨_, rfl, rfl⟩
  constructor
  · obtain ⟨world, ran⟩ := sampleRun_ends
    have ordered := (reactive_times_ordered (fun _ _ _ => none) oneFlow (by decide) port port
      (by decide) ran).1 0 (by decide)
    exact ⟨world, _, ran, (ordered.2.1 _ rfl).2⟩
  · obtain ⟨world, ran, set⟩ := echoRun_ends
    have ordered := (reactive_times_ordered (fun _ _ _ => none) oneFlow (by decide) port port
      (by decide) ran).1 0 (by decide)
    exact ⟨world, _, ran, ordered.2.2 _ rfl set⟩

end Oflops.Reactive.ControlLoop
