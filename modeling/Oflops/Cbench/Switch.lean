import Oflops.Cbench.Protocol
import Oflops.Lib.Loop
import Oflops.Stream.Buffer
import Oflops.Time

/-! The fake switch of cbench (`fakeswitch.c`): what it does with the bytes the controller
sends, and the probes it sends itself. The fields `sock` and `debug` are left out: nothing but
the socket calls and the messages on stderr depends on them; so is the static `BUFFER_ID`, which
no message carries. -/

namespace Oflops.Cbench.Switch
open Lib.Memory Lib.Bytes Lib.Loop Stream.Buffer Time Protocol

inductive TestMode where
  | latency
  | throughput
  deriving DecidableEq, Repr

structure Fakeswitch where
  id : Int
  inbuf : Msgbuf
  outbuf : Msgbuf
  mode : TestMode
  probeState : Int
  count : Int
  readyToSend : Int
  probeSize : Int
  delay : Int
  delayStart : Timeval
  totalMacAddresses : Int
  currentMacAddress : Int

/-- A switch and the clock readings that are still to come, one for each `gettimeofday`. -/
structure Timed where
  fs : Fakeswitch
  clock : Nat → Timeval

/-- `delay_start` keeps what the allocated memory held; `buffer` is what a new buffer's
memory holds. -/
def fakeswitchInit (id : Int) (bufsize : Nat) (positive : 0 < bufsize) (delay : Int)
    (mode : TestMode) (totalMacAddresses : Int) (delayStart : Timeval) (buffer : Nat → UInt8) :
    Fakeswitch :=
  { id, mode, delay, totalMacAddresses, delayStart
    inbuf := msgbufNew bufsize positive buffer
    outbuf := msgbufPush (msgbufNew bufsize positive buffer) makeHello
    probeState := 0
    probeSize := (makePacketIn id 0 0).length
    count := 0
    readyToSend := 0
    currentMacAddress := 0 }

/-- `ntohs(ofph->length)` for the header at an offset of the memory. -/
def ofphLength (buf : Nat → UInt8) (ofph : Nat) : Nat := ntohs (leValue (load buf (ofph + 2) 2))

def gotResponse (fs : Fakeswitch) : Fakeswitch :=
  { fs with count := fs.count + 1, probeState := fs.probeState - 1 }

/-- The switch statement of `fakeswitch_handle_read`. The message at `ofph` is already
pulled: its bytes are read from the memory the pull left in place. -/
def dispatch (state : Timed) (ofph : Nat) : Timed :=
  let fs := state.fs
  let buf := fs.inbuf.buf
  let xid := leValue (load buf (ofph + 4) 4)
  match OfpType.ofByte (buf (ofph + 1)) with
  | .packetOut => { state with fs := gotResponse fs }
  | .flowMod =>
    let command := leValue (load buf (ofph + 56) 2)
    if command = htons ofpfcAdd ∨ command = htons ofpfcModifyStrict then
      { state with fs := gotResponse fs }
    else state
  | .featuresRequest =>
    let fs := { fs with outbuf := msgbufPush fs.outbuf (makeFeaturesReply fs.id xid) }
    if state.fs.delay = 0 then { state with fs := { fs with readyToSend := 1 } }
    else
      let now := state.clock 0
      let delayStart : Timeval :=
        ⟨now.tvSec + fs.delay.tdiv 1000, now.tvUsec + fs.delay.tmod 1000 * 1000⟩
      ⟨{ fs with readyToSend := 2, delayStart }, fun n => state.clock (n + 1)⟩
  | .vendor =>
    { state with
      fs := { fs with outbuf := msgbufPush fs.outbuf (makeVendorReply xid), probeState := 0 } }
  | .echoRequest =>
    { state with fs := { fs with outbuf := msgbufPush fs.outbuf (makeEchoReply xid) } }
  | .setConfig | .hello | .statsRequest | .other => state

def clampProbes (state : Timed) : Timed :=
  if state.fs.probeState < 0 then { state with fs := { state.fs with probeState := 0 } } else state

def handleMessage (state : Timed) : Option (Iter Timed Timed) :=
  let count := msgbufCountBuffered state.fs.inbuf
  if count ≥ ofpHeaderSize then
    match msgbufPeek state.fs.inbuf with
    | none => none
    | some ofph =>
      let length := ofphLength state.fs.inbuf.buf ofph
      if count < length then some (.leave state)
      else
        let inbuf := (msgbufPull state.fs.inbuf length).2.2
        some (.again (clampProbes (dispatch { state with fs := { state.fs with inbuf } } ofph)))
  else some (.leave state)

/-- An error is the status the process exits with; no result at all means that the message
loop has not ended within the fuel. -/
def fakeswitchHandleRead (fuel : Nat) (state : Timed) (result : ReadResult) :
    Option (Except Nat Timed) :=
  let (count, inbuf) := msgbufRead state.fs.inbuf result
  if count ≤ 0 then some (.error 1)
  else (loop handleMessage fuel { state with fs := { state.fs with inbuf } }).map .ok

def discardMessage (state : Msgbuf × Int) : Option (Iter (Msgbuf × Int) Msgbuf) :=
  let (inbuf, count) := state
  if count > 0 then
    match msgbufPeek inbuf with
    | none => none
    | some ofph =>
      let msglen := ofphLength inbuf.buf ofph
      if count < msglen then some (.leave inbuf)
      else some (.again ((msgbufPull inbuf msglen).2.2, count - msglen))
  else some (.leave inbuf)

/-- The outer loop of `fakeswitch_get_count` on the results its reads get. -/
def drain (fuel : Nat) (inbuf : Msgbuf) : List ReadResult → Option Msgbuf
  | [] => none
  | result :: results =>
    let (count, inbuf) := msgbufRead inbuf result
    if count > 0 then
      match loop discardMessage fuel (inbuf, count) with
      | none => none
      | some inbuf => drain fuel inbuf results
    else some inbuf

def fakeswitchGetCount (fuel : Nat) (fs : Fakeswitch) (results : List ReadResult) :
    Option (Int × Fakeswitch) :=
  match drain fuel fs.inbuf results with
  | none => none
  | some inbuf => some (fs.count, { fs with count := 0, probeState := 0, inbuf })

/-- `send_count`; a division by zero has no result. -/
def sendCount (fs : Fakeswitch) : Option Nat :=
  let throughputBuffer := 65536
  if fs.mode = .latency ∧ fs.probeState = 0 then some 1
  else if fs.mode = .throughput ∧ msgbufCountBuffered fs.outbuf < throughputBuffer then
    if fs.probeSize = 0 then none
    else some ((throughputBuffer - msgbufCountBuffered fs.outbuf : Int).tdiv fs.probeSize).toNat
  else some 0

def queueProbe (fs : Fakeswitch) : Option Fakeswitch :=
  if fs.totalMacAddresses = 0 then none
  else some
    { fs with
      probeState := fs.probeState + 1
      currentMacAddress := (fs.currentMacAddress + 1).tmod fs.totalMacAddresses
      outbuf := msgbufPush fs.outbuf (makePacketIn fs.id 0 fs.currentMacAddress) }

def queueProbes : Nat → Fakeswitch → Option Fakeswitch
  | 0, fs => some fs
  | n + 1, fs => (queueProbe fs).bind (queueProbes n)

/-- What `fakeswitch_handle_write` does before it writes the buffer out: the number of probes
queued, the reading of the clock that ended the start delay, and the switch afterwards. -/
def prepareWrite (state : Timed) : Option (Nat × Option Timeval × Timed) :=
  if state.fs.readyToSend = 1 then do
    let probes ← sendCount state.fs
    let fs ← queueProbes probes state.fs
    some (probes, none, { state with fs })
  else if state.fs.readyToSend = 2 then
    let now := state.clock 0
    let state := { state with clock := fun n => state.clock (n + 1) }
    if timercmp now state.fs.delayStart gt then
      some (0, some now, { state with fs := { state.fs with readyToSend := 1 } })
    else some (0, none, state)
  else some (0, none, state)

/-- What one call of `fakeswitch_handle_write` did; `sent` is what the socket took. -/
structure Written where
  probes : Nat
  started : Option Timeval
  sent : List UInt8

/-- The socket takes at most what it is offered and what it has `room` for; a negative `room`
is the error that `write` returns. -/
def fakeswitchHandleWrite (state : Timed) (room : Int) : Option (Written × Timed) := do
  let (probes, started, state) ← prepareWrite state
  let offered := msgbufCountBuffered state.fs.outbuf
  if offered > 0 then
    let (_, sent, outbuf) := msgbufWrite state.fs.outbuf 0 (min room offered)
    some (⟨probes, started, sent⟩, { state with fs := { state.fs with outbuf } })
  else some (⟨probes, started, []⟩, state)

end Oflops.Cbench.Switch
