import Oflops.Cbench.HandleRead

/-! Both answers to an echo request: the one that a test module gives by default and the one that
cbench queues. -/

namespace Oflops.Harness.EchoReply
open Lib.Bytes Lib.Memory Lib.Record Lib.Loop Lib.Framing Stream.Buffer
open Cbench.Protocol Cbench.Switch Cbench.HandleRead

/-- What `write_oflops_control` gives to the connection. -/
def writeOflopsControl (memory : Nat → UInt8) (data len : Nat) : List UInt8 :=
  let len := if len = 0 then ofphLength memory data else len
  load memory data len

def oflopsSendOfMesgs (memory : Nat → UInt8) (buf buflen : Nat) : List UInt8 :=
  writeOflopsControl memory buf buflen

def oflopsSendOfMesg (memory : Nat → UInt8) (ofph : Nat) : List UInt8 :=
  let len := ofphLength memory ofph
  oflopsSendOfMesgs memory ofph len

/-- The default answer to the request at `ofph`. The local variable `resp` is at the beginning of
`stack`; the message is sent from there. -/
def defaultModuleOfEventEchoRequest (stack : Nat → UInt8) (ofph : List UInt8) : List UInt8 :=
  let stack := store stack 0 (ofph.take ofpHeaderSize)
  let stack := store stack 1 [ofptEchoReply]
  oflopsSendOfMesg stack 0

/-- The default answer is the request, with another type. -/
def Returns (request : Message) : Prop :=
  ∀ stack, defaultModuleOfEventEchoRequest stack request.bytes =
    patch request.bytes 1 [ofptEchoReply]

/-- The read that completes the request queues one answer, with its xid and payload. -/
def Queues (state : Timed) (chunk : List UInt8) (request : Message) : Prop :=
  ∃ fuel next reply, fakeswitchHandleRead fuel state (.data chunk) = some (.ok next) ∧
    buffered next.fs.outbuf = buffered state.fs.outbuf ++ reply ∧
    messageType reply = ofptEchoReply ∧ messageXid reply = request.xid ∧
    reply.drop ofpHeaderSize = request.bytes.drop ofpHeaderSize

section Default
variable (stack : Nat → UInt8) (request : Message)

theorem header_length : (request.bytes.take ofpHeaderSize).length = ofpHeaderSize :=
  List.length_take_of_le request.framed.1

theorem patch_request :
    patch request.bytes 1 [ofptEchoReply] =
      patch (request.bytes.take ofpHeaderSize) 1 [ofptEchoReply] ++
        request.bytes.drop ofpHeaderSize := by
  have inside : 1 + [ofptEchoReply].length ≤ (request.bytes.take ofpHeaderSize).length := by
    rw [header_length]
    decide
  conv_lhs => rw [← List.take_append_drop ofpHeaderSize request.bytes]
  rw [patch_append_left inside]

theorem load_reply (n : Nat) :
    load (store (store stack 0 (request.bytes.take ofpHeaderSize)) 1 [ofptEchoReply]) 0
        (ofpHeaderSize + n) =
      patch (request.bytes.take ofpHeaderSize) 1 [ofptEchoReply] ++ load stack ofpHeaderSize n := by
  have header := header_length request
  have copied : load (store stack 0 (request.bytes.take ofpHeaderSize)) 0 (ofpHeaderSize + n) =
      request.bytes.take ofpHeaderSize ++ load stack ofpHeaderSize n := by
    have first := load_store stack 0 (request.bytes.take ofpHeaderSize)
    rw [header] at first
    rw [load_add, first, Nat.zero_add, load_store_behind stack _ (by rw [header, Nat.zero_add])]
  have inside : 1 + [ofptEchoReply].length ≤ ofpHeaderSize + n :=
    Nat.le_trans (by decide) (Nat.le_add_right _ _)
  have typed := load_store_part (store stack 0 (request.bytes.take ofpHeaderSize)) 0 inside
  rw [Nat.zero_add, copied] at typed
  exact typed.trans (patch_append_left (by rw [header]; decide))

/-- The length field is copied with the header, so it is the length of the request. -/
theorem reply_length :
    ofphLength (store (store stack 0 (request.bytes.take ofpHeaderSize)) 1 [ofptEchoReply]) 0 =
      request.bytes.length := by
  have header := header_length request
  have kept : (patch (request.bytes.take ofpHeaderSize) 1 [ofptEchoReply]).length =
      ofpHeaderSize := by
    rw [patch_length (by rw [header]; decide), header]
  have stored := load_reply stack request 0
  rw [Nat.add_zero, load_zero, List.append_nil] at stored
  rw [ofphLength_eq_size ((congrArg _ kept).trans stored) (by rw [kept]; decide)]
  calc announcedSize (patch (request.bytes.take ofpHeaderSize) 1 [ofptEchoReply])
      = announcedSize (request.bytes.take ofpHeaderSize) :=
        congrArg beValue (slice_patch_apart (by rw [header]; decide) (Or.inr (by decide)))
    _ = announcedSize (request.bytes.take ofpHeaderSize ++ request.bytes.drop ofpHeaderSize) :=
        (announcedSize_append _ (by rw [header]; decide)).symm
    _ = announcedSize request.bytes := by rw [List.take_append_drop]
    _ = request.bytes.length := request.framed.2

theorem default_answer :
    defaultModuleOfEventEchoRequest stack request.bytes =
      patch (request.bytes.take ofpHeaderSize) 1 [ofptEchoReply] ++
        load stack ofpHeaderSize (request.bytes.length - ofpHeaderSize) := by
  have long : ofpHeaderSize ≤ request.bytes.length := request.framed.1
  have some' : request.bytes.length ≠ 0 := Nat.ne_of_gt (Nat.lt_of_lt_of_le (by decide) long)
  have sent := load_reply stack request (request.bytes.length - ofpHeaderSize)
  rw [Nat.add_sub_cancel' long] at sent
  unfold defaultModuleOfEventEchoRequest oflopsSendOfMesg oflopsSendOfMesgs writeOflopsControl
  dsimp only
  rw [reply_length, if_neg some', sent]

end Default

/-- With a payload, a stack that differs from it in the first byte shows. -/
theorem returns_iff (request : Message) :
    Returns request ↔ request.bytes.length = ofpHeaderSize := by
  have long : ofpHeaderSize ≤ request.bytes.length := request.framed.1
  have same : ∀ stack, defaultModuleOfEventEchoRequest stack request.bytes =
      patch request.bytes 1 [ofptEchoReply] ↔
        load stack ofpHeaderSize (request.bytes.length - ofpHeaderSize) =
          request.bytes.drop ofpHeaderSize := by
    intro stack
    rw [default_answer, patch_request, List.append_cancel_left_eq]
  constructor
  · intro returns
    by_contra other
    have zeros := (same fun _ => 0).mp (returns _)
    have ones := (same fun _ => 1).mp (returns _)
    have first := congrArg (·[0]?) (zeros.trans ones.symm)
    simp only [getElem?_load,
      if_pos (show 0 < request.bytes.length - ofpHeaderSize by omega)] at first
    cases first
  · intro short stack
    rw [same, short, Nat.sub_self, load_zero, ← short, List.drop_length]

theorem dispatch_echo {state : Timed} {ofph : Nat} {request : Message}
    (stored : load state.fs.inbuf.buf ofph request.bytes.length = request.bytes)
    (isEcho : request.type = .echoRequest) :
    (clampProbes (dispatch state ofph)).fs.outbuf =
      msgbufPush state.fs.outbuf (makeEchoReply request.xid) := by
  obtain ⟨type, xid⟩ := dispatch_fields stored
  have answered : (dispatch state ofph).fs.outbuf =
      msgbufPush state.fs.outbuf (makeEchoReply request.xid) := by
    unfold dispatch
    simp only [type, isEcho, xid]
  unfold clampProbes
  split_ifs <;> exact answered

theorem handleMessage_echo {state : Timed} {request : Message} {rest : List UInt8}
    (front : buffered state.fs.inbuf = request.bytes ++ rest) (isEcho : request.type = .echoRequest)
    (outbuf : InBounds state.fs.outbuf) :
    ∃ next, handleMessage state = some (.again next) ∧ buffered next.fs.inbuf = rest ∧
      buffered next.fs.outbuf = buffered state.fs.outbuf ++ makeEchoReply request.xid := by
  obtain ⟨stored, after⟩ := advance_front front
  refine ⟨_, handleMessage_front front, ?_, ?_⟩
  · rw [(dispatch_frame _ _).1]
    exact after
  · rw [dispatch_echo ((advance_buf _ _).symm ▸ stored) isEcho]
    exact msgbufPush_buffered _ outbuf.ordered

section Queue
variable {state : Timed} {chunk : List UInt8} {request : Message}
  (isEcho : request.type = .echoRequest) (inbuf : InBounds state.fs.inbuf)
  (outbuf : InBounds state.fs.outbuf) (some' : chunk ≠ [])
  (content : buffered state.fs.inbuf ++ chunk = request.bytes)
include isEcho inbuf outbuf some' content

theorem echo_handled :
    ∃ next, (∀ fuel, fakeswitchHandleRead (fuel + 2) state (.data chunk) = some (.ok next)) ∧
      buffered next.fs.outbuf = buffered state.fs.outbuf ++ makeEchoReply request.xid := by
  have read := msgbufRead_buffered (.data chunk) inbuf.ordered
  have front : buffered (received state (.data chunk)).fs.inbuf = request.bytes ++ [] :=
    (read.trans content).trans (List.append_nil _).symm
  obtain ⟨next, turn, empty, queued⟩ := handleMessage_echo front isEcho outbuf
  have incomplete : openflow.Incomplete (buffered next.fs.inbuf) := empty.symm ▸ Or.inl (by decide)
  refine ⟨next, fun fuel => ?_, queued⟩
  rw [handleRead_received _ state some', loop_again turn,
    loop_leave (handleMessage_incomplete incomplete)]
  rfl

theorem queues_iff : Queues state chunk request ↔ request.bytes.length = ofpHeaderSize := by
  have long : ofpHeaderSize ≤ request.bytes.length := request.framed.1
  obtain ⟨next, handled, queued⟩ := echo_handled isEcho inbuf outbuf some' content
  constructor
  · rintro ⟨fuel, other, reply, returned, pushed, -, -, payload⟩
    have same : other = next := by
      have enough := handled fuel
      rw [handleRead_received _ state some'] at returned enough
      obtain ⟨left, ended, same⟩ := Option.map_eq_some_iff.mp returned
      obtain ⟨left', ended', same'⟩ := Option.map_eq_some_iff.mp enough
      rw [← Except.ok.inj same, ← Except.ok.inj same', loop_unique ended ended']
    rw [same, queued, List.append_cancel_left_eq] at pushed
    have none' := congrArg List.length payload
    rw [← pushed, List.length_drop] at none'
    have : (makeEchoReply request.xid).length = ofpHeaderSize := rfl
    rw [List.length_drop] at none'
    omega
  · intro short
    refine ⟨2, next, makeEchoReply request.xid, handled 0, queued, rfl, ?_, ?_⟩
    · rw [makeEchoReply_eq]
      apply wellFormed_xid
      have short : ((request.bytes.drop 4).take 4).length ≤ 4 := List.length_take_le _ _
      exact Nat.lt_of_lt_of_le (leValue_lt _) (Nat.pow_le_pow_right (by decide) short)
    · conv_rhs => rw [← short, List.drop_length]
      rfl

end Queue

/-- Both answers return a request exactly if it has no payload. -/
theorem echo_returned_iff (request : Message) (isEcho : request.type = .echoRequest) (state : Timed)
    (inbuf : InBounds state.fs.inbuf) (outbuf : InBounds state.fs.outbuf) (chunk : List UInt8)
    (some' : chunk ≠ []) (content : buffered state.fs.inbuf ++ chunk = request.bytes) :
    Returns request ∧ Queues state chunk request ↔ request.bytes.length = ofpHeaderSize := by
  rw [returns_iff, queues_iff isEcho inbuf outbuf some' content, and_self]

def connected : Timed :=
  ⟨fakeswitchInit 1 16 (Nat.succ_pos 15) 0 .latency 1 ⟨0, 0⟩ (fun _ => 0), fun _ => ⟨0, 0⟩⟩

theorem echo_returned_empty :
    let request : Message := ⟨[1, 2, 0, 8, 0, 0, 0, 7], ⟨by decide, by decide⟩, by decide⟩
    Returns request ∧ Queues connected [1, 2, 0, 8, 0, 0, 0, 7] request := by
  intro request
  apply (echo_returned_iff request rfl connected (msgbufNew_inBounds _ _ _)
    (msgbufPush_inBounds _ (msgbufNew_inBounds 16 (by decide) (fun _ => 0)))
    [1, 2, 0, 8, 0, 0, 0, 7] (by decide) rfl).mpr
  rfl

/-- With one byte of payload the default answer ends with a byte of the stack, and cbench answers
without the payload. -/
theorem echo_payload_lost :
    let request : Message := ⟨[1, 2, 0, 9, 0, 0, 0, 7, 42], ⟨by decide, by decide⟩, by decide⟩
    defaultModuleOfEventEchoRequest (fun _ => 0) request.bytes = [1, 3, 0, 9, 0, 0, 0, 7, 0] ∧
      (∃ next, fakeswitchHandleRead 2 connected (.data request.bytes) = some (.ok next) ∧
        buffered next.fs.outbuf = makeHello ++ [1, 3, 0, 8, 0, 0, 0, 7]) ∧
      ¬ Returns request ∧ ¬ Queues connected request.bytes request := by
  intro request
  have isEcho : request.type = .echoRequest := rfl
  have inbuf : InBounds connected.fs.inbuf := msgbufNew_inBounds _ _ _
  have outbuf : InBounds connected.fs.outbuf :=
    msgbufPush_inBounds _ (msgbufNew_inBounds 16 (by decide) (fun _ => 0))
  have content : buffered connected.fs.inbuf ++ request.bytes = request.bytes := rfl
  obtain ⟨next, handled, queued⟩ := echo_handled isEcho inbuf outbuf (by decide) content
  have hello : buffered connected.fs.outbuf = makeHello := msgbufPush_buffered _ (Nat.le_refl _)
  rw [hello] at queued
  refine ⟨by decide, ⟨next, handled 0, queued.trans (by decide)⟩, ?_, ?_⟩
  · rw [returns_iff]
    decide
  · rw [queues_iff isEcho inbuf outbuf (by decide) content]
    decide

end Oflops.Harness.EchoReply
