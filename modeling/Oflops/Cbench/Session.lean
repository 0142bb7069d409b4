import Oflops.Cbench.HandleRead
import Oflops.Lib.Machine

/-! A fake switch between its handlers: `fakeswitch_handle_read`, `fakeswitch_handle_write` and
`fakeswitch_get_count` in any order, each with whatever the socket and the clock give it. A run
logs the acts that the handlers perform. -/

namespace Oflops.Cbench.Session
open Lib.Memory Lib.Bytes Lib.Loop Lib.Machine Stream.Buffer Time Protocol Switch HandleRead

/-- What `fakeswitch_handle_read` looks at in the message it handles, as the host loads it, and
the next reading of the clock. -/
structure Request where
  type : OfpType
  xid : Nat
  fits : xid < 2 ^ 32
  command : Nat
  now : Timeval

theorem xid_fits (buf : Nat → UInt8) (offset : Nat) : leValue (load buf offset 4) < 2 ^ 32 := by
  have bound := leValue_lt (load buf offset 4)
  rw [load_length] at bound
  exact bound

def requestOf (state : Timed) : Request :=
  let buf := state.fs.inbuf.buf
  let ofph := state.fs.inbuf.start
  { type := OfpType.ofByte (buf (ofph + 1))
    xid := leValue (load buf (ofph + 4) 4)
    fits := xid_fits buf (ofph + 4)
    command := leValue (load buf (ofph + 56) 2)
    now := state.clock 0 }

namespace Request

def response (request : Request) : Bool :=
  request.type = .packetOut ∨ request.type = .flowMod ∧
    (request.command = htons ofpfcAdd ∨ request.command = htons ofpfcModifyStrict)

def reply (request : Request) (id : Int) : Option (List UInt8) :=
  match request.type with
  | .featuresRequest => some (makeFeaturesReply id request.xid)
  | .vendor => some (makeVendorReply request.xid)
  | .echoRequest => some (makeEchoReply request.xid)
  | _ => none

end Request

inductive Act where
  | handled (request : Request)
  | probe (message : List UInt8)
  | started (now : Timeval)
  | sent (bytes : List UInt8)
  | counted

def probeOf : Act → Option (List UInt8)
  | .probe message => some message
  | _ => none

def packets : Nat → Fakeswitch → List (List UInt8)
  | 0, _ => []
  | n + 1, fs => makePacketIn fs.id 0 fs.currentMacAddress :: (queueProbe fs).elim [] (packets n)

def Written.acts (fs : Fakeswitch) (written : Written) : List Act :=
  (packets written.probes fs).map .probe ++ written.started.toList.map .started ++
    [.sent written.sent]

/-- A call of a handler, with what the system calls in it return. -/
inductive Event where
  | read (fuel : Nat) (result : ReadResult)
  | write (room : Int)
  | getCount (fuel : Nat) (results : List ReadResult)

/-- One handler called and returned. A handler that exits or does not return ends the run. -/
def step (state : Timed) : Event → Option (Timed × Option (List Act))
  | .read fuel result =>
    match fakeswitchHandleRead fuel state result with
    | some (.ok next) =>
      some (next, some ((turns handleMessage fuel (received state result)).map
        (.handled ∘ requestOf)))
    | _ => none
  | .write room =>
    (fakeswitchHandleWrite state room).map fun (written, next) =>
      (next, some (Written.acts state.fs written))
  | .getCount fuel results =>
    (fakeswitchGetCount fuel state.fs results).map (fun (_, fs) => ({ state with
      fs }, some [.counted]))

section Step
variable {state next : Timed} {fuel : Nat} {output : Option (List Act)}

theorem step_read {result : ReadResult}
    (stepped : step state (.read fuel result) = some (next, output)) :
    fakeswitchHandleRead fuel state result = some (.ok next) ∧
      output = some ((turns handleMessage fuel (received state result)).map
        (.handled ∘ requestOf)) := by
  cases returned : fakeswitchHandleRead fuel state result with
  | none =>
    simp only [step, returned] at stepped
    cases stepped
  | some outcome =>
    cases outcome with
    | error status =>
      simp only [step, returned] at stepped
      cases stepped
    | ok after =>
      simp only [step, returned] at stepped
      cases stepped
      exact ⟨rfl, rfl⟩

theorem step_getCount {results : List ReadResult}
    (stepped : step state (.getCount fuel results) = some (next, output)) :
    ∃ inbuf, next.fs = { state.fs with count := 0, probeState := 0, inbuf } ∧
      output = some [.counted] := by
  obtain ⟨⟨count, fs⟩, drained, same⟩ := Option.map_eq_some_iff.mp stepped
  cases same
  unfold fakeswitchGetCount at drained
  split at drained
  · cases drained
  · cases drained
    exact ⟨_, rfl, rfl⟩

end Step

/-- The end of the start delay, as `fakeswitch_handle_read` computes it. -/
def delayEnd (now : Timeval) (delay : Int) : Timeval :=
  ⟨now.tvSec + delay.tdiv 1000, now.tvUsec + delay.tmod 1000 * 1000⟩

structure Served (fs : Fakeswitch) (request : Request) (next : Fakeswitch) : Prop where
  outbuf : next.outbuf = (request.reply fs.id).elim fs.outbuf (msgbufPush fs.outbuf)
  readyToSend : next.readyToSend =
    if request.type = .featuresRequest then (if fs.delay = 0 then 1 else 2) else fs.readyToSend
  delayStart : next.delayStart =
    if request.type = .featuresRequest ∧ fs.delay ≠ 0 then delayEnd request.now fs.delay
    else fs.delayStart
  probeState : next.probeState =
    max (if request.response then fs.probeState - 1
      else if request.type = .vendor then 0 else fs.probeState) 0
  count : next.count = if request.response then fs.count + 1 else fs.count
  id : next.id = fs.id
  mode : next.mode = fs.mode
  delay : next.delay = fs.delay

theorem clampProbes_eq (state : Timed) :
    clampProbes state =
      { state with fs := { state.fs with probeState := max state.fs.probeState 0 } } := by
  unfold clampProbes
  split_ifs with negative
  · rw [max_eq_right negative.le]
  · rw [max_eq_left (not_lt.mp negative)]

theorem dispatch_served (state : Timed) (inbuf : Msgbuf) (kept : inbuf.buf = state.fs.inbuf.buf) :
    Served state.fs (requestOf state)
      (clampProbes (dispatch (withInbuf state inbuf) state.fs.inbuf.start)).fs := by
  have buf : (withInbuf state inbuf).fs.inbuf.buf = state.fs.inbuf.buf := kept
  rw [clampProbes_eq]
  unfold dispatch requestOf
  dsimp only
  rw [buf]
  cases known : OfpType.ofByte (state.fs.inbuf.buf (state.fs.inbuf.start + 1)) with
  | flowMod =>
    dsimp only
    split_ifs with answer
    · constructor <;> simp [Request.reply, Request.response, gotResponse, withInbuf, answer]
    · constructor <;> simp [Request.reply, Request.response, withInbuf, answer]
  | featuresRequest =>
    by_cases immediate : state.fs.delay = 0
    · constructor <;> simp [Request.reply, Request.response, withInbuf, immediate]
    · constructor <;> simp [Request.reply, Request.response, withInbuf, immediate, delayEnd]
  | _ => constructor <;> simp [Request.reply, Request.response, gotResponse, withInbuf]

theorem handleMessage_again {state next : Timed}
    (taken : handleMessage state = some (.again next)) :
    Served state.fs (requestOf state) next.fs := by
  rw [handleMessage_pulled taken]
  exact dispatch_served state _ (msgbufPull_buf _ _)

def responds (message : Message) : Bool :=
  message.type = .packetOut ∨ message.type = .flowMod ∧
    (message.command = ofpfcAdd ∨ message.command = ofpfcModifyStrict)

/-- What the loop looks at in a well-formed message is what the message says. -/
theorem requestOf_front {state : Timed} {message : Message} {rest : List UInt8}
    (front : buffered state.fs.inbuf = message.bytes ++ rest) :
    (requestOf state).type = message.type ∧ (requestOf state).xid = message.xid ∧
      (requestOf state).response = responds message := by
  have stored := (advance_front front).1
  obtain ⟨type, xid⟩ := dispatch_fields stored
  refine ⟨type, xid, ?_⟩
  unfold Request.response responds
  rw [show (requestOf state).type = message.type from type, decide_eq_decide]
  apply or_congr_right
  apply and_congr_right
  intro isFlowMod
  exact or_congr (command_eq_htons_iff stored isFlowMod ofpfcAdd (by decide))
    (command_eq_htons_iff stored isFlowMod ofpfcModifyStrict (by decide))

theorem queueProbe_eq {fs next : Fakeswitch} (queued : queueProbe fs = some next) :
    next =
      { fs with
        probeState := fs.probeState + 1
        currentMacAddress := (fs.currentMacAddress + 1).tmod fs.totalMacAddresses
        outbuf := msgbufPush fs.outbuf (makePacketIn fs.id 0 fs.currentMacAddress) } := by
  unfold queueProbe at queued
  split_ifs at queued
  exact (Option.some.inj queued).symm

theorem queueProbes_acts (Inv : Fakeswitch → List Act → Prop)
    (probe : ∀ {fs acts next}, Inv fs acts → queueProbe fs = some next →
      Inv next (acts ++ [.probe (makePacketIn fs.id 0 fs.currentMacAddress)]))
    {n : Nat} {fs next : Fakeswitch} {acts : List Act} (holds : Inv fs acts)
    (queued : queueProbes n fs = some next) :
    Inv next (acts ++ (packets n fs).map .probe) := by
  induction n generalizing fs acts with
  | zero =>
    cases queued
    rwa [packets, List.map_nil, List.append_nil]
  | succ n ih =>
    obtain ⟨mid, one, rest⟩ := Option.bind_eq_some_iff.mp queued
    have all := ih (probe holds one) rest
    rw [packets, one, Option.elim_some, List.map_cons]
    rwa [List.append_assoc] at all

/-- What is kept by every act of a handler, whatever the input buffer holds. -/
structure Keeps (Inv : Fakeswitch → List Act → Prop) : Prop where
  inbuf : ∀ {fs acts} (inbuf : Msgbuf), Inv fs acts → Inv { fs with inbuf } acts
  served : ∀ {fs acts request next}, Inv fs acts → Served fs request next →
    Inv next (acts ++ [.handled request])
  queued : ∀ {fs acts n next}, Inv fs acts → fs.readyToSend = 1 → sendCount fs = some n →
    queueProbes n fs = some next → Inv next (acts ++ (packets n fs).map .probe)
  started : ∀ {fs acts now}, Inv fs acts → fs.readyToSend = 2 → fs.delayStart < now →
    Inv { fs with readyToSend := 1 } (acts ++ [.started now])
  flushed : ∀ {fs acts sent outbuf}, Inv fs acts →
    (InBounds fs.outbuf → buffered fs.outbuf = sent ++ buffered outbuf ∧ InBounds outbuf) →
    Inv { fs with outbuf } (acts ++ [.sent sent])
  counted : ∀ {fs acts}, Inv fs acts →
    Inv { fs with count := 0, probeState := 0 } (acts ++ [.counted])

section
variable {Inv : Fakeswitch → List Act → Prop} (keeps : Keeps Inv)
include keeps

theorem Keeps.prepareWrite {state next : Timed} {acts : List Act} {probes : Nat}
    {started : Option Timeval} (holds : Inv state.fs acts)
    (prepared : Switch.prepareWrite state = some (probes, started, next)) :
    Inv next.fs (acts ++ (packets probes state.fs).map .probe ++
      started.toList.map .started) := by
  unfold Switch.prepareWrite at prepared
  split_ifs at prepared with ready waiting
  · obtain ⟨n, due, rest⟩ := Option.bind_eq_some_iff.mp prepared
    obtain ⟨fs, queued, rest⟩ := Option.bind_eq_some_iff.mp rest
    cases rest
    rw [Option.toList_none, List.map_nil, List.append_nil]
    exact keeps.queued holds ready due queued
  · dsimp only at prepared
    split_ifs at prepared with past
    · cases prepared
      rw [packets, List.map_nil, List.append_nil]
      exact keeps.started holds waiting ((timercmp_gt _ _).mp past)
    · cases prepared
      rw [packets, List.map_nil, List.append_nil, Option.toList_none, List.map_nil, List.append_nil]
      exact holds
  · cases prepared
    rw [packets, List.map_nil, List.append_nil, Option.toList_none, List.map_nil, List.append_nil]
    exact holds

theorem Keeps.handleWrite {state next : Timed} {acts : List Act} {room : Int} {written : Written}
    (holds : Inv state.fs acts) (wrote : fakeswitchHandleWrite state room = some (written, next)) :
    Inv next.fs (acts ++ Written.acts state.fs written) := by
  obtain ⟨⟨probes, started, mid⟩, prepared, rest⟩ := Option.bind_eq_some_iff.mp wrote
  have ready := keeps.prepareWrite holds prepared
  dsimp only at rest
  split_ifs at rest with some'
  · cases rest
    unfold Written.acts
    rw [← List.append_assoc, ← List.append_assoc]
    apply keeps.flushed ready
    intro bounds
    have allowed : WriteAllowed mid.fs.outbuf 0 (min room (msgbufCountBuffered mid.fs.outbuf)) := by
      intro sendLen offered
      cases offered
      exact min_le_right _ _
    rcases msgbufWrite_cases 0 _ bounds allowed with ⟨ret, -, nothing⟩ | ⟨n, -, enough, taken⟩
    · rw [nothing]
      exact ⟨rfl, bounds⟩
    · rw [taken]
      exact ⟨advance_buffered enough, advance_inBounds n bounds⟩
  · cases rest
    unfold Written.acts
    rw [← List.append_assoc, ← List.append_assoc]
    exact keeps.flushed ready (fun bounds => ⟨rfl, bounds⟩)

theorem Keeps.handleRead {fuel : Nat} {state next : Timed} {acts : List Act} {result : ReadResult}
    (holds : Inv state.fs acts)
    (returned : fakeswitchHandleRead fuel state result = some (.ok next)) :
    Inv next.fs (acts ++ (turns handleMessage fuel (received state result)).map
      (.handled ∘ requestOf)) := by
  have arrived : Inv (received state result).fs acts := keeps.inbuf _ holds
  refine loop_notes (.handled ∘ requestOf) (fun (state : Timed) acts => Inv state.fs acts)
    (fun (state : Timed) acts => Inv state.fs acts) ?_ ?_ arrived (handleRead_ended returned).2
  · intro state next acts holds taken
    exact keeps.served holds (handleMessage_again taken)
  · intro state result acts holds taken
    exact handleMessage_leave taken ▸ holds

theorem Keeps.step {state next : Timed} {acts : List Act} {event : Event}
    {output : Option (List Act)} (holds : Inv state.fs acts)
    (stepped : Session.step state event = some (next, output)) :
    Inv next.fs (acts ++ output.toList.flatten) := by
  cases event with
  | read fuel result =>
    obtain ⟨returned, rfl⟩ := step_read stepped
    rw [Option.toList_some, List.flatten_singleton]
    exact keeps.handleRead holds returned
  | write room =>
    obtain ⟨⟨written', after⟩, wrote, same⟩ := Option.map_eq_some_iff.mp stepped
    cases same
    rw [Option.toList_some, List.flatten_singleton]
    exact keeps.handleWrite holds wrote
  | getCount fuel results =>
    obtain ⟨inbuf, after, rfl⟩ := step_getCount stepped
    rw [after, Option.toList_some, List.flatten_singleton]
    exact keeps.inbuf _ (keeps.counted holds)

theorem Keeps.run {state final : Timed} {events : List Event} {log : List (List Act)}
    (start : Inv state.fs [])
    (ran : Lib.Machine.run Session.step state events = some (final, log)) :
    Inv final.fs log.flatten := by
  change Inv final.fs ([] ++ log).flatten
  apply run_log_invariant (fun (state : Timed) log => Inv state.fs log.flatten) ?_ start ran
  intro state past event next output holds stepped
  rw [List.flatten_append]
  exact keeps.step holds stepped

end

end Oflops.Cbench.Session
