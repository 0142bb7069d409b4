import Oflops.Cbench.Switch

/-! How the controller's messages are handled does not depend on how TCP cuts the stream
into reads. -/

namespace Oflops.Cbench.HandleRead
open Lib.Memory Lib.Bytes Lib.Framing Lib.Loop Stream.Buffer Protocol Switch

/-- What a switch makes of the messages: the responses counted, the probes outstanding,
whether it may send, and what it has queued for the controller. -/
structure Progress where
  count : Int
  probeState : Int
  readyToSend : Int
  out : List UInt8

namespace Progress

def answered (progress : Progress) : Progress :=
  { progress with count := progress.count + 1, probeState := progress.probeState - 1 }

def reply (progress : Progress) (bytes : List UInt8) : Progress :=
  { progress with out := progress.out ++ bytes }

/-- One whole message handled by switch `id`, which starts sending without delay. -/
def handle (id : Int) (progress : Progress) (message : Message) : Progress :=
  let next := match message.type with
    | .packetOut => progress.answered
    | .flowMod =>
      if message.command = ofpfcAdd ∨ message.command = ofpfcModifyStrict then progress.answered
      else progress
    | .featuresRequest =>
      { progress.reply (makeFeaturesReply id message.xid) with readyToSend := 1 }
    | .vendor => { progress.reply (makeVendorReply message.xid) with probeState := 0 }
    | .echoRequest => progress.reply (makeEchoReply message.xid)
    | .setConfig | .hello | .statsRequest | .other => progress
  { next with probeState := max next.probeState 0 }

end Progress

def progress (fs : Fakeswitch) : Progress :=
  ⟨fs.count, fs.probeState, fs.readyToSend, buffered fs.outbuf⟩

theorem ofphLength_eq (buf : Nat → UInt8) (ofph : Nat) :
    ofphLength buf ofph = beValue (load buf (ofph + 2) 2) := by
  have bytes := swapBytes_leValue (load buf (ofph + 2) 2)
  rw [load_length] at bytes
  exact bytes

theorem ofphLength_eq_size {buf : Nat → UInt8} {ofph : Nat} {bytes : List UInt8}
    (stored : load buf ofph bytes.length = bytes) (arrived : 4 ≤ bytes.length) :
    ofphLength buf ofph = openflow.size bytes := by
  rw [ofphLength_eq, load_field stored arrived]
  rfl

theorem dispatch_fields {buf : Nat → UInt8} {ofph : Nat} {message : Message}
    (stored : load buf ofph message.bytes.length = message.bytes) :
    OfpType.ofByte (buf (ofph + 1)) = message.type ∧
      leValue (load buf (ofph + 4) 4) = message.xid := by
  have header : 8 ≤ message.bytes.length := message.framed.1
  constructor
  · rw [Message.type, getD_of_load 0 stored (by omega)]
  · rw [load_field stored (by omega), Message.xid]

theorem command_eq_htons_iff {buf : Nat → UInt8} {ofph : Nat} {message : Message}
    (stored : load buf ofph message.bytes.length = message.bytes)
    (isFlowMod : message.type = .flowMod) (command : Nat) (small : command < 2 ^ 16) :
    leValue (load buf (ofph + 56) 2) = htons command ↔ message.command = command := by
  have long := message.flowMod isFlowMod
  have compared := leValue_eq_swapBytes_iff (load buf (ofph + 56) 2) (x := command)
    (by rw [load_length]; exact small)
  rw [load_length] at compared
  rw [htons, compared, load_field stored (by omega), Message.command]

theorem dispatch_progress {state : Timed} {ofph : Nat} {message : Message}
    (stored : load state.fs.inbuf.buf ofph message.bytes.length = message.bytes)
    (immediate : state.fs.delay = 0) (outbuf : state.fs.outbuf.start ≤ state.fs.outbuf.stop) :
    progress (clampProbes (dispatch state ofph)).fs =
      (progress state.fs).handle state.fs.id message := by
  obtain ⟨type, xid⟩ := dispatch_fields stored
  have add := fun isFlowMod => command_eq_htons_iff stored isFlowMod ofpfcAdd (by decide)
  have strict := fun isFlowMod =>
    command_eq_htons_iff stored isFlowMod ofpfcModifyStrict (by decide)
  have clamped : ∀ next : Timed, progress (clampProbes next).fs =
      { progress next.fs with probeState := max (progress next.fs).probeState 0 } := by
    intro next
    unfold clampProbes
    split_ifs with negative
    · simp only [progress, max_eq_right negative.le]
    · simp only [progress, max_eq_left (not_lt.mp negative)]
  rw [clamped]
  unfold dispatch Progress.handle
  simp only [type, xid]
  cases known : message.type with
  | flowMod =>
    simp only [add known, strict known]
    split_ifs <;> rfl
  | featuresRequest =>
    simp only [immediate, if_true, progress, Progress.reply, msgbufPush_buffered _ outbuf]
  | vendor => simp only [progress, Progress.reply, msgbufPush_buffered _ outbuf]
  | echoRequest => simp only [progress, Progress.reply, msgbufPush_buffered _ outbuf]
  | packetOut => rfl
  | hello => rfl
  | setConfig => rfl
  | statsRequest => rfl
  | other => rfl

/-- A switch between two reads. Its input buffer has room for at least one byte, so a read
never asks for none. -/
structure Serving (fs : Fakeswitch) : Prop where
  inbuf : InBounds fs.inbuf
  room : fs.inbuf.stop < fs.inbuf.len
  outbuf : InBounds fs.outbuf
  immediate : fs.delay = 0

theorem dispatch_frame (state : Timed) (ofph : Nat) :
    (clampProbes (dispatch state ofph)).fs.inbuf = state.fs.inbuf ∧
      (clampProbes (dispatch state ofph)).fs.id = state.fs.id ∧
      (clampProbes (dispatch state ofph)).fs.delay = state.fs.delay := by
  have clamped : ∀ next : Timed, (clampProbes next).fs.inbuf = next.fs.inbuf ∧
      (clampProbes next).fs.id = next.fs.id ∧ (clampProbes next).fs.delay = next.fs.delay := by
    intro next
    unfold clampProbes
    split_ifs <;> exact ⟨rfl, rfl, rfl⟩
  obtain ⟨inbuf, id, delay⟩ := clamped (dispatch state ofph)
  rw [inbuf, id, delay]
  unfold dispatch
  dsimp only
  split <;> try split_ifs
  all_goals exact ⟨rfl, rfl, rfl⟩

theorem dispatch_outbuf {state : Timed} (ofph : Nat) (bounds : InBounds state.fs.outbuf) :
    InBounds (clampProbes (dispatch state ofph)).fs.outbuf := by
  have clamped : ∀ next : Timed, (clampProbes next).fs.outbuf = next.fs.outbuf := by
    intro next
    unfold clampProbes
    split_ifs <;> rfl
  rw [clamped]
  unfold dispatch
  dsimp only
  split <;> try split_ifs
  all_goals first | exact bounds | exact msgbufPush_inBounds _ bounds

def withInbuf (state : Timed) (inbuf : Msgbuf) : Timed :=
  { state with fs := { state.fs with inbuf } }

def received (state : Timed) (result : ReadResult) : Timed :=
  withInbuf state (msgbufRead state.fs.inbuf result).2

theorem handleRead_received (fuel : Nat) (state : Timed) {chunk : List UInt8} (some' : chunk ≠ []) :
    fakeswitchHandleRead fuel state (.data chunk) =
      (loop handleMessage fuel (received state (.data chunk))).map .ok := by
  have positive : 0 < (ReadResult.data chunk).count := (ReadResult.count_pos _).mpr some'
  unfold fakeswitchHandleRead
  dsimp only
  rw [msgbufRead_count, if_neg (not_le.mpr positive)]
  rfl

theorem handleRead_ended {fuel : Nat} {state next : Timed} {result : ReadResult}
    (returned : fakeswitchHandleRead fuel state result = some (.ok next)) :
    result.bytes ≠ [] ∧ loop handleMessage fuel (received state result) = some next := by
  unfold fakeswitchHandleRead at returned
  dsimp only at returned
  split_ifs at returned with closed
  · cases returned
  · obtain ⟨ended, looped, same⟩ := Option.map_eq_some_iff.mp returned
    cases same
    rw [msgbufRead_count, not_le] at closed
    exact ⟨(ReadResult.count_pos result).mp closed, looped⟩

theorem ofphLength_buffered {mbuf : Msgbuf} (header : ofpHeaderSize ≤ (buffered mbuf).length) :
    ofphLength mbuf.buf mbuf.start = openflow.size (buffered mbuf) := by
  apply ofphLength_eq_size
  · rw [buffered_length, buffered]
  · exact Nat.le_trans (by decide) header

/-- As soon as the announced number of bytes is there, they are pulled and handled. -/
theorem handleMessage_complete {state : Timed}
    (complete : ¬ openflow.Incomplete (buffered state.fs.inbuf)) :
    handleMessage state = some (.again (clampProbes (dispatch
      (withInbuf state (msgbufPull state.fs.inbuf (openflow.size (buffered state.fs.inbuf))).2.2)
      state.fs.inbuf.start))) := by
  obtain ⟨header, whole⟩ := not_or.mp complete
  replace header : ofpHeaderSize ≤ (buffered state.fs.inbuf).length := not_lt.mp header
  have counted : msgbufCountBuffered state.fs.inbuf = (buffered state.fs.inbuf).length := by
    rw [buffered_length, msgbufCountBuffered]
  have found := msgbufPeek_some state.fs.inbuf (Nat.lt_of_lt_of_le (by decide) header)
  unfold handleMessage
  dsimp only
  rw [counted, if_pos header, found]
  dsimp only
  rw [ofphLength_buffered header, if_neg whole]
  rfl

theorem handleMessage_incomplete {state : Timed}
    (incomplete : openflow.Incomplete (buffered state.fs.inbuf)) :
    handleMessage state = some (.leave state) := by
  have counted : msgbufCountBuffered state.fs.inbuf = (buffered state.fs.inbuf).length := by
    rw [buffered_length, msgbufCountBuffered]
  unfold handleMessage
  dsimp only
  rw [counted]
  split_ifs with header
  · have found := msgbufPeek_some state.fs.inbuf (Nat.lt_of_lt_of_le (by decide) header)
    have short := incomplete.resolve_left (Nat.not_lt.mpr header)
    rw [found]
    dsimp only
    rw [ofphLength_buffered header, if_pos short]
  · rfl

/-- A turn that goes on has pulled and handled the message at the front. -/
theorem handleMessage_pulled {state next : Timed}
    (taken : handleMessage state = some (.again next)) :
    next = clampProbes (dispatch
      (withInbuf state (msgbufPull state.fs.inbuf (openflow.size (buffered state.fs.inbuf))).2.2)
      state.fs.inbuf.start) := by
  by_cases incomplete : openflow.Incomplete (buffered state.fs.inbuf)
  · cases (handleMessage_incomplete incomplete).symm.trans taken
  · cases (handleMessage_complete incomplete).symm.trans taken
    rfl

theorem handleMessage_leave {state result : Timed}
    (taken : handleMessage state = some (.leave result)) : result = state := by
  by_cases incomplete : openflow.Incomplete (buffered state.fs.inbuf)
  · cases (handleMessage_incomplete incomplete).symm.trans taken
    rfl
  · cases (handleMessage_complete incomplete).symm.trans taken

theorem handleMessage_front {state : Timed} {message : Message} {rest : List UInt8}
    (front : buffered state.fs.inbuf = message.bytes ++ rest) :
    handleMessage state = some (.again (clampProbes (dispatch
      (withInbuf state (advance state.fs.inbuf message.bytes.length)) state.fs.inbuf.start))) := by
  have header : 8 ≤ message.bytes.length := message.framed.1
  have complete : ¬ openflow.Incomplete (buffered state.fs.inbuf) := by
    rw [front]
    exact message.framed.not_incomplete rest
  rw [handleMessage_complete complete, front, message.framed.size_append,
    msgbufPull_front front (by omega)]

theorem handleMessage_message {state : Timed} {message : Message} {rest : List UInt8}
    (serving : Serving state.fs) (front : buffered state.fs.inbuf = message.bytes ++ rest) :
    ∃ next, handleMessage state = some (.again next) ∧ Serving next.fs ∧
      buffered next.fs.inbuf = rest ∧ next.fs.id = state.fs.id ∧
      progress next.fs = (progress state.fs).handle state.fs.id message := by
  obtain ⟨stored, after⟩ := advance_front front
  obtain ⟨inbuf, id, delay⟩ := dispatch_frame
    (withInbuf state (advance state.fs.inbuf message.bytes.length)) state.fs.inbuf.start
  refine ⟨_, handleMessage_front front, ?_, ?_, id, ?_⟩
  · constructor
    · exact inbuf ▸ advance_inBounds _ serving.inbuf
    · rw [inbuf]
      exact (advance_len _ _).symm ▸ lt_of_le_of_lt (advance_stop_le _ _) serving.room
    · exact dispatch_outbuf _ serving.outbuf
    · exact delay.trans serving.immediate
  · rw [inbuf]
    exact after
  · exact dispatch_progress ((advance_buf _ _).symm ▸ stored) serving.immediate
      serving.outbuf.ordered

/-- The message loop ends, having handled the complete messages in order. -/
theorem loop_messages (state : Timed) (messages : List Message) {tail : List UInt8}
    (serving : Serving state.fs) (incomplete : openflow.Incomplete tail)
    (content : buffered state.fs.inbuf = (messages.map Message.bytes).flatten ++ tail) :
    ∃ fuel next, loop handleMessage fuel state = some next ∧ Serving next.fs ∧
      buffered next.fs.inbuf = tail ∧ next.fs.id = state.fs.id ∧
      progress next.fs = messages.foldl (Progress.handle state.fs.id) (progress state.fs) := by
  induction messages generalizing state with
  | nil =>
    rw [List.map_nil, List.flatten_nil, List.nil_append] at content
    exact ⟨1, state, loop_leave (handleMessage_incomplete (content ▸ incomplete)) 0, serving,
      content, rfl, rfl⟩
  | cons message messages ih =>
    rw [List.map_cons, List.flatten_cons, List.append_assoc] at content
    obtain ⟨next, turn, serving', content', id, handled⟩ := handleMessage_message serving content
    obtain ⟨fuel, final, ended, serving'', left, id', all⟩ := ih next serving' content'
    refine ⟨fuel + 1, final, ?_, serving'', left, id'.trans id, ?_⟩
    · rw [loop_again turn, ended]
    · rw [all, handled, id, List.foldl_cons]

/-- One read: the chunk completes some messages, which are handled, and the rest waits. -/
theorem handleRead_chunk {state : Timed} (messages : List Message) {chunk tail : List UInt8}
    (serving : Serving state.fs) (some' : chunk ≠ [])
    (allowed : ReadAllowed state.fs.inbuf (.data chunk)) (incomplete : openflow.Incomplete tail)
    (content : buffered state.fs.inbuf ++ chunk = (messages.map Message.bytes).flatten ++ tail) :
    ∃ fuel next, fakeswitchHandleRead fuel state (.data chunk) = some (.ok next) ∧
      Serving next.fs ∧ buffered next.fs.inbuf = tail ∧ next.fs.id = state.fs.id ∧
      progress next.fs = messages.foldl (Progress.handle state.fs.id) (progress state.fs) := by
  have read := msgbufRead_buffered (.data chunk) serving.inbuf.ordered
  have serving' : Serving (received state (.data chunk)).fs :=
    ⟨msgbufRead_inBounds _ serving.inbuf allowed, msgbufRead_room _ serving.inbuf allowed,
      serving.outbuf, serving.immediate⟩
  obtain ⟨fuel, next, ended, serving'', left, id, all⟩ :=
    loop_messages (received state (.data chunk)) messages serving' incomplete (read.trans content)
  refine ⟨fuel, next, ?_, serving'', left, id, all⟩
  rw [handleRead_received fuel state some', ended, Option.map_some]

/-- The switch is given `chunks` by successive reads, each of which asks for at least one
byte, gets no more than it asks for and returns; at the end `post` holds. -/
def HandlesTo (post : Timed → Prop) : Timed → List (List UInt8) → Prop
  | state, [] => post state
  | state, chunk :: chunks =>
    0 < msgbufRequest state.fs.inbuf ∧
      (ReadAllowed state.fs.inbuf (.data chunk) →
        ∃ fuel next, fakeswitchHandleRead fuel state (.data chunk) = some (.ok next) ∧
          HandlesTo post next chunks)

/-- However the stream is cut into reads, the switch ends up where handling the messages one
at a time leads, and keeps exactly the incomplete tail. -/
theorem handle_read_independent_of_chunks (state : Timed) (serving : Serving state.fs)
    (waiting : openflow.Incomplete (buffered state.fs.inbuf)) (chunks : List (List UInt8))
    (arriving : ∀ chunk ∈ chunks, chunk ≠ []) (messages : List Message) (tail : List UInt8)
    (incomplete : openflow.Incomplete tail)
    (stream : buffered state.fs.inbuf ++ chunks.flatten =
      (messages.map Message.bytes).flatten ++ tail) :
    HandlesTo (fun final =>
        progress final.fs = messages.foldl (Progress.handle state.fs.id) (progress state.fs) ∧
          buffered final.fs.inbuf = tail ∧ 0 < msgbufRequest final.fs.inbuf)
      state chunks := by
  have room : ∀ {fs : Fakeswitch}, Serving fs → 0 < msgbufRequest fs.inbuf :=
    fun serving => Nat.sub_pos_of_lt serving.room
  induction chunks generalizing state messages with
  | nil =>
    rw [List.flatten_nil, List.append_nil] at stream
    cases messages with
    | nil => exact ⟨rfl, stream, room serving⟩
    | cons message messages =>
      -- a complete message cannot be waiting between two reads
      rw [stream, List.map_cons, List.flatten_cons, List.append_assoc] at waiting
      exact absurd waiting (message.framed.not_incomplete _)
  | cons chunk chunks ih =>
    refine ⟨room serving, fun allowed => ?_⟩
    rw [List.flatten_cons, ← List.append_assoc] at stream
    obtain ⟨arrived, ahead, rest, parts, content, open', join⟩ := Layout.exists_cut
      (Message.framed_map _) incomplete stream
    obtain ⟨now, later, rfl, rfl, rfl⟩ := List.map_eq_append_iff.mp parts
    obtain ⟨fuel, next, returned, serving', left, id, handled⟩ :=
      handleRead_chunk now serving (arriving chunk List.mem_cons_self) allowed open' content
    have final := ih next serving' (left ▸ open')
      (fun other member => arriving other (List.mem_cons_of_mem _ member)) later (left ▸ join)
    rw [id, handled, ← List.foldl_append] at final
    exact ⟨fuel, next, returned, final⟩

theorem handle_read_independent_of_chunks_echo :
    let state : Timed :=
      ⟨fakeswitchInit 1 16 (by decide) 0 .latency 1 ⟨0, 0⟩ (fun _ => 0), fun _ => ⟨0, 0⟩⟩
    let echoRequest : Message := ⟨[1, 2, 0, 8, 0, 0, 0, 7], ⟨by decide, by decide⟩, by decide⟩
    HandlesTo (fun final =>
        progress final.fs = [echoRequest].foldl (Progress.handle 1) (progress state.fs) ∧
          buffered final.fs.inbuf = [1] ∧ 0 < msgbufRequest final.fs.inbuf)
      state [[1, 2, 0, 8, 0], [0, 0, 7, 1]] := by
  intro state echoRequest
  have serving : Serving state.fs :=
    ⟨msgbufNew_inBounds _ _ _, by decide,
      msgbufPush_inBounds _ (msgbufNew_inBounds 16 (by decide) (fun _ => 0)), rfl⟩
  exact handle_read_independent_of_chunks state serving (Or.inl (by decide))
    [[1, 2, 0, 8, 0], [0, 0, 7, 1]] (by decide) [echoRequest] [1] (Or.inl (by decide)) rfl

end Oflops.Cbench.HandleRead
