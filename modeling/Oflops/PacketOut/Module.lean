import Mathlib.Data.Fintype.Defs
import Oflops.Lib.Machine
import Oflops.Lib.Threads
import Oflops.Timer.EventLoop

/-! The packet-out module (`openflow_packet_out`): its timer handler, run by the event thread, and
its message handler, run by the thread of the control channel, with the timer queue and the static
variables that they share. A handler is the list of the operations it still has to do; the threads
take turns after every operation. -/

namespace Oflops.PacketOut.Module
open Lib.Threads Time Timer.Queue Timer.Refinement Timer.EventLoop

inductive TimerArg where
  | byestr
  | snmpget
  | sndPkt
  | forceStart
  | unknown
  deriving DecidableEq, Repr

structure Config where
  probeSndRate : Nat
  positive : 0 < probeSndRate
  testDuration : Int
  checkBacklog : Bool

/-- What the threads share: the timer queue, the module's static variables (those of the
`SND_PKT` branch included) and the flag that `oflops_end_test` sets. -/
structure Shared where
  timers : WcState Unit TimerArg
  started : Bool
  intervalNs : Nat
  nextTs : Timespec
  pktCounter : Nat
  sentPktCounter : Nat
  endTrafficGeneration : Bool

inductive Op where
  /-- The assignments at the beginning of `start`. -/
  | reset
  /-- Read the clock and schedule events some seconds later. -/
  | after (secs : Int) (args : List TimerArg)
  | schedule (time : Timeval) (arg : TimerArg)
  /-- The event loop waits for the first event. -/
  | poll
  /-- `timer_run_next_event`. -/
  | runNext
  /-- `if (started == false)` of the `FORCE_START` branch. -/
  | check
  | setStarted
  /-- One turn of the loop of the `SND_PKT` branch. -/
  | send
  | endTest
  deriving DecidableEq, Repr

def handleTimerEvent : TimerArg → List Op
  | .snmpget => [.after 10 [.snmpget]]
  | .byestr => [.endTest]
  | .sndPkt => [.send]
  | .forceStart => [.check]
  | .unknown => []

/-- The counters of `generate_pkt_out`; `backlog` is what `has_control_backlog` returns. -/
def generatePktOut (config : Config) (shared : Shared) (backlog : Bool) : Shared :=
  if config.checkBacklog ∧ backlog then { shared with pktCounter := shared.pktCounter + 1 }
  else
    { shared with
      pktCounter := shared.pktCounter + 1
      sentPktCounter := shared.sentPktCounter + 1 }

/-- The first turn sets the pace. -/
def initPace (config : Config) (shared : Shared) (now : Timeval) : Shared :=
  if shared.nextTs.tvSec = 0 then
    { shared with
      intervalNs := 1000000000 / config.probeSndRate
      nextTs := ⟨now.tvSec, now.tvUsec * 1000⟩ }
  else shared

/-- The body of the loop: what is shared afterwards, and `next_tv`. -/
def sendTurn (config : Config) (shared : Shared) (now : Timeval) (backlog : Bool) :
    Shared × Timeval :=
  let shared := generatePktOut config (initPace config shared now) backlog
  let nextTs := addTimespec shared.nextTs 0 shared.intervalNs
  ({ shared with nextTs }, tsToTv nextTs)

def behind (nextTv now : Timeval) : Bool :=
  nextTv.tvSec < now.tvSec ∨ nextTv.tvSec = now.tvSec ∧ nextTv.tvUsec ≤ now.tvUsec

def scheduleTimerEvent (shared : Shared) (time : Timeval) (arg : TimerArg) : Shared :=
  { shared with timers := (wcEventAdd shared.timers () arg time).2 }

/-- An operation, with the clock at `now`: what is shared afterwards, the operations it leads to
before the thread goes on, and the event it schedules. -/
def exec (config : Config) (shared : Shared) (now : Timeval) (backlog : Bool) :
    Op → Shared × List Op × Option TimerArg
  | .reset => ({ shared with started := false, pktCounter := 0, sentPktCounter := 0 }, [], none)
  | .after secs args => (shared, args.map (.schedule (addTime now secs 0)), none)
  | .schedule time arg => (scheduleTimerEvent shared time arg, [], some arg)
  | .poll =>
    if timerGetNextEvent shared.timers.queue now ≤ 0 then (shared, [.runNext, .poll], none)
    else (shared, [.poll], none)
  | .runNext =>
    let (event, queue) := timerRunNextEvent shared.timers.queue
    ({ shared with timers := { shared.timers with queue } },
      (event.map (fun te => handleTimerEvent te.arg)).getD [], none)
  | .check =>
    -- the clock is read once, for the warning; the end is counted from there
    if shared.started = false then
      (shared, [.setStarted] ++ handleTimerEvent .sndPkt ++
        [.schedule (addTime now config.testDuration 0) .byestr], none)
    else (shared, [], none)
  | .setStarted => ({ shared with started := true }, [], none)
  | .send =>
    let (shared, nextTv) := sendTurn config shared now backlog
    (shared, if behind nextTv now then [.send] else [.schedule nextTv .sndPkt], none)
  | .endTest => ({ shared with endTrafficGeneration := true }, [], none)

/-- `OF_MESSAGE(version, BARRIER_REPLY)`; other versions fail an assertion. -/
def barrierReply (version : UInt8) : Option UInt8 :=
  if version = 1 then some 19 else if version = 3 then some 21 else if version = 4 then some 21
  else none

/-- What `of_message` does with a message of this type; other messages are only logged. -/
def ofMessage (config : Config) (version type : UInt8) : Option (List Op) := do
  let reply ← barrierReply version
  some (if type = reply then
    [.setStarted] ++ handleTimerEvent .sndPkt ++ [.after config.testDuration [.byestr]] else [])

/-- Main runs `start` and then creates the event thread. -/
inductive Thread where
  | main
  | timer
  | control
  deriving DecidableEq, Repr

instance : Fintype Thread where
  elems := {.main, .timer, .control}
  complete := by
    intro thread
    cases thread <;> decide

structure State where
  shared : Shared
  code : Thread → List Op

/-- A thread goes on, with what the clock and the socket show it, or the control channel delivers
a message. -/
inductive Event where
  | run (thread : Thread) (now : Timeval) (backlog : Bool)
  | message (version type : UInt8)

/-- A step, and the event it schedules. -/
def step (config : Config) (state : State) : Event → Option (State × Option TimerArg)
  | .run thread now backlog =>
    if thread = .timer ∧ state.code .main ≠ [] then none
    else match state.code thread with
      | [] => none
      | op :: rest =>
        let (shared, more, scheduled) := exec config state.shared now backlog op
        some (⟨shared, Function.update state.code thread (more ++ rest)⟩, scheduled)
  | .message version type =>
    -- one thread delivers the messages, one after the other
    if state.code .control ≠ [] then none
    else do
      let code ← ofMessage config version type
      some ({ state with code := Function.update state.code .control code }, none)

/-- `start` itself, and the event loop. -/
def startCode : Thread → List Op
  | .main => [.reset, .after 1 [.snmpget, .forceStart]]
  | .timer => [.poll]
  | .control => []

def loaded (uninitialised : Nat → Qelm Unit TimerArg) (firstId : Int) : State where
  shared :=
    { timers := initial 10 uninitialised firstId
      started := false
      intervalNs := 0
      nextTs := ⟨0, 0⟩
      pktCounter := 0
      sentPktCounter := 0
      endTrafficGeneration := false }
  code := startCode

end Oflops.PacketOut.Module
