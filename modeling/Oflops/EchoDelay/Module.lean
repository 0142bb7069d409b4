import Mathlib.Data.List.Induction
import Oflops.Lib.Bytes
import Oflops.Lib.Record
import Oflops.Time
import Oflops.Traffic.Packet

/-! `openflow_echo_delay`: the echo requests and replies that are captured on the control channel,
and what `echo_data` holds after any sequence of them. -/

namespace Oflops.EchoDelay.Module
open Lib.Bytes Lib.Record Time
open Traffic.Packet (etherHeaderSize)

inductive EchoType where
  | request
  | reply
  deriving DecidableEq, Repr

/-- The types that `handle_pcap_event` tells apart. -/
def EchoType.ofByte : Nat → Option EchoType
  | 2 => some .request
  | 3 => some .reply
  | _ => none

structure EchoEntry where
  snd : Timeval
  rcv : Timeval
  deriving DecidableEq, Repr

def echoDataSize : Nat := 1000000

/-- The measurements. Of `echoData` only the entries below the size exist. -/
structure Echoes where
  echoData : Nat → EchoEntry
  echoDataCount : Nat

structure State where
  transId : Nat
  echoes : Echoes

def initial : State := ⟨1, fun _ => ⟨⟨0, 0⟩, ⟨0, 0⟩⟩, 0⟩

structure Capture where
  type : EchoType
  xid : Nat
  ts : Timeval
  deriving DecidableEq, Repr

/-- The timestamp goes to the entry of the xid; a request is counted. -/
def Echoes.note (echoes : Echoes) (capture : Capture) : Echoes :=
  let entry := echoes.echoData capture.xid
  match capture.type with
  | .request =>
    { echoDataCount := echoes.echoDataCount + 1
      echoData := Function.update echoes.echoData capture.xid { entry with snd := capture.ts } }
  | .reply =>
    { echoes with
      echoData := Function.update echoes.echoData capture.xid { entry with rcv := capture.ts } }

/-- The xid is one that was sent, or will be next. -/
def Counts (transId xid : Nat) : Prop := xid > 0 ∧ xid ≤ transId

instance (transId xid : Nat) : Decidable (Counts transId xid) := inferInstanceAs (Decidable (_ ∧ _))

/-- Both cases of the switch; an access outside the array has no result. -/
def State.record (state : State) (capture : Capture) : Option State :=
  if Counts state.transId capture.xid then
    if capture.xid < echoDataSize then some { state with echoes := state.echoes.note capture }
    else none
  else some state

def oflopsControl : Nat := 0

/-- A byte outside the captured ones has no value. -/
def handlePcapEvent (state : State) (ch : Nat) (data : List UInt8) (ts : Timeval) : Option State :=
  if ch = oflopsControl then do
    let len : Int := data.length - etherHeaderSize
    let ihl := leValue (← readAt data etherHeaderSize 1) % 16
    if len < 4 * ihl then some state
    else
      let tcp := etherHeaderSize + 4 * ihl
      let doff := leValue (← readAt data (tcp + 12) 1) / 16
      let len := len - 4 * ihl
      if len < 4 * doff then some state
      else
        let ofph := tcp + 4 * doff
        match EchoType.ofByte (leValue (← readAt data (ofph + 1) 1)) with
        | none => some state
        | some type => do
          let xid := ntohl (leValue (← readAt data (ofph + 4) 4))
          state.record ⟨type, xid, ts⟩
  else some state

structure EchoPacket where
  ether : List UInt8
  ip : List UInt8
  tcp : List UInt8
  message : List UInt8
  type : EchoType
  etherSize : ether.length = etherHeaderSize
  ipSize : 20 ≤ ip.length ∧ ip.length = 4 * (leValue (slice ip 0 1) % 16)
  tcpSize : 20 ≤ tcp.length ∧ tcp.length = 4 * (leValue (slice tcp 12 1) / 16)
  messageSize : 8 ≤ message.length
  known : EchoType.ofByte (leValue (slice message 1 1)) = some type

namespace EchoPacket

def data (packet : EchoPacket) : List UInt8 :=
  packet.ether ++ (packet.ip ++ (packet.tcp ++ packet.message))

def xid (packet : EchoPacket) : Nat := beValue (slice packet.message 4 4)

section Read
variable (packet : EchoPacket)

theorem data_length : packet.data.length =
    etherHeaderSize + packet.ip.length + packet.tcp.length + packet.message.length := by
  rw [data, List.length_append, List.length_append, List.length_append, packet.etherSize]
  omega

theorem read_ip : readAt packet.data etherHeaderSize 1 = some (slice packet.ip 0 1) := by
  have long := packet.ipSize.1
  exact readAt_part (i := 0) packet.etherSize (by omega)

theorem read_tcp :
    readAt packet.data (etherHeaderSize + packet.ip.length + 12) 1 =
      some (slice packet.tcp 12 1) := by
  have long := packet.tcpSize.1
  rw [data, ← List.append_assoc]
  exact readAt_part (by rw [List.length_append, packet.etherSize]) (by omega)

theorem read_message (i width : Nat) (inside : i + width ≤ packet.message.length) :
    readAt packet.data (etherHeaderSize + packet.ip.length + packet.tcp.length + i) width =
      some (slice packet.message i width) := by
  have headers : (packet.ether ++ packet.ip ++ packet.tcp).length =
      etherHeaderSize + packet.ip.length + packet.tcp.length := by
    rw [List.length_append, List.length_append, packet.etherSize]
  have read : readAt (packet.ether ++ packet.ip ++ packet.tcp ++ (packet.message ++ []))
      (etherHeaderSize + packet.ip.length + packet.tcp.length + i) width =
        some (slice packet.message i width) := readAt_part headers inside
  rwa [List.append_nil, List.append_assoc, List.append_assoc] at read

theorem ntohl_xid : ntohl (leValue (slice packet.message 4 4)) = packet.xid := by
  have swapped := swapBytes_leValue (slice packet.message 4 4)
  rw [slice_length packet.messageSize] at swapped
  exact swapped

theorem handled (state : State) (ts : Timeval) :
    handlePcapEvent state oflopsControl packet.data ts =
      state.record ⟨packet.type, packet.xid, ts⟩ := by
  have long := packet.messageSize
  have ip := packet.ipSize.2
  have tcp := packet.tcpSize.2
  have type := packet.read_message 1 1 (by omega)
  have xid := packet.read_message 4 4 long
  unfold handlePcapEvent
  rw [if_pos rfl, packet.data_length, packet.read_ip]
  simp only [Option.bind_eq_bind, Option.bind_some, ← ip]
  rw [packet.read_tcp, if_neg (by push_cast; omega)]
  simp only [Option.bind_some, ← tcp]
  rw [if_neg (by push_cast; omega), type, Option.bind_some, packet.known, xid]
  dsimp only [Option.bind_some]
  rw [packet.ntohl_xid]

end Read

end EchoPacket

/-- The timer sends the next request, or a packet is captured. -/
inductive Event where
  | echoRequest
  | captured (packet : EchoPacket) (ts : Timeval)

def step (state : State) : Event → Option State
  | .echoRequest => some { state with transId := state.transId + 1 }
  | .captured packet ts => handlePcapEvent state oflopsControl packet.data ts

/-! ### The captures that count -/

/-- The messages captured with an xid between 1 and what `trans_id` is then. -/
def captures (transId : Nat) : List Event → List Capture
  | [] => []
  | .echoRequest :: events => captures (transId + 1) events
  | .captured packet ts :: events =>
    if Counts transId packet.xid then ⟨packet.type, packet.xid, ts⟩ :: captures transId events
    else captures transId events

def requests (history : List Capture) : Nat :=
  history.countP fun capture => capture.type = .request

def last (history : List Capture) (type : EchoType) (xid : Nat) : Option Timeval :=
  (history.filter fun capture => capture.type = type ∧ capture.xid = xid).getLast?.map Capture.ts

theorem run_inside (state : State) (events : List Event)
    (inside : ∀ capture ∈ captures state.transId events, capture.xid < echoDataSize) :
    ∃ final, events.foldlM step state = some final ∧
      final.echoes = (captures state.transId events).foldl Echoes.note state.echoes := by
  induction events generalizing state with
  | nil => exact ⟨state, rfl, rfl⟩
  | cons event events ih =>
    cases event with
    | echoRequest => exact ih { state with transId := state.transId + 1 } inside
    | captured packet ts =>
      rw [captures] at inside ⊢
      rw [List.foldlM_cons, step, packet.handled, State.record]
      split_ifs at inside ⊢ with counts small
      · exact ih { state with echoes := state.echoes.note ⟨packet.type, packet.xid, ts⟩ }
          fun capture member => inside capture (List.mem_cons_of_mem _ member)
      · exact absurd (inside _ List.mem_cons_self) small
      · exact ih state inside

theorem run_some {state final : State} {events : List Event}
    (ran : events.foldlM step state = some final) :
    ∀ capture ∈ captures state.transId events, capture.xid < echoDataSize := by
  induction events generalizing state with
  | nil => exact fun capture member => absurd member List.not_mem_nil
  | cons event events ih =>
    obtain ⟨next, stepped, rest⟩ := Option.bind_eq_some_iff.mp ran
    cases event with
    | echoRequest =>
      cases stepped
      exact ih rest
    | captured packet ts =>
      rw [step, packet.handled, State.record] at stepped
      rw [captures]
      split_ifs at stepped ⊢ with counts small
      · cases stepped
        intro capture member
        rcases List.mem_cons.mp member with rfl | later
        · exact small
        · exact ih rest capture later
      · cases stepped
        exact ih rest

theorem last_concat (history : List Capture) (capture : Capture) (type : EchoType) (xid : Nat) :
    last (history ++ [capture]) type xid =
      if capture.type = type ∧ capture.xid = xid then some capture.ts
      else last history type xid := by
  have single : [capture].filter (fun capture => capture.type = type ∧ capture.xid = xid) =
      if capture.type = type ∧ capture.xid = xid then [capture] else [] := by
    rw [List.filter_cons]
    simp only [decide_eq_true_eq, List.filter_nil]
  rw [last, List.filter_append, single]
  split_ifs
  · rw [List.getLast?_concat]
    rfl
  · rw [List.append_nil]
    rfl

theorem requests_concat (history : List Capture) (capture : Capture) :
    requests (history ++ [capture]) =
      requests history + if capture.type = .request then 1 else 0 := by
  rw [requests, List.countP_append, List.countP_singleton, requests]
  simp only [decide_eq_true_eq]

theorem note_echoDataCount (echoes : Echoes) (capture : Capture) :
    (echoes.note capture).echoDataCount =
      echoes.echoDataCount + if capture.type = .request then 1 else 0 := by
  unfold Echoes.note
  cases capture.type <;> rfl

theorem note_echoData (echoes : Echoes) (capture : Capture) (xid : Nat) :
    (echoes.note capture).echoData xid =
      ⟨if capture.type = .request ∧ capture.xid = xid then capture.ts
        else (echoes.echoData xid).snd, if capture.type = .reply ∧ capture.xid = xid then capture.ts
        else (echoes.echoData xid).rcv⟩ := by
  unfold Echoes.note
  by_cases own : capture.xid = xid
  · subst own
    cases capture.type <;> simp
  · cases capture.type <;> simp [own, Function.update_of_ne (Ne.symm own)]

theorem note_history (history : List Capture) :
    (history.foldl Echoes.note initial.echoes).echoDataCount = requests history ∧
      ∀ xid, (history.foldl Echoes.note initial.echoes).echoData xid =
        ⟨(last history .request xid).getD ⟨0, 0⟩, (last history .reply xid).getD ⟨0, 0⟩⟩ := by
  induction history using List.reverseRecOn with
  | nil => exact ⟨rfl, fun xid => rfl⟩
  | append_singleton history capture ih =>
    obtain ⟨counted, entries⟩ := ih
    rw [List.foldl_append, List.foldl_cons, List.foldl_nil]
    constructor
    · rw [note_echoDataCount, requests_concat, counted]
    · intro xid
      rw [note_echoData, entries, last_concat, last_concat, apply_ite (Option.getD · _),
        apply_ite (Option.getD · _)]
      rfl

end Oflops.EchoDelay.Module
