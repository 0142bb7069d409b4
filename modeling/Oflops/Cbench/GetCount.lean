import Oflops.Cbench.HandleRead

/-! `fakeswitch_get_count` throws away what the controller sent during the last interval. Its
inner loop compares a message's length with the number of bytes of the latest read, not with
what is buffered, and reads the length even when the header has not arrived; this module says
exactly when the framing survives that. -/

namespace Oflops.Cbench.GetCount
open Lib.Memory Lib.Framing Lib.Loop Stream.Buffer Protocol Switch HandleRead

/-- Wherever the reads of a drain stop, the loop ends and leaves exactly the incomplete tail
of what has been received. -/
def KeepsFraming (fs : Fakeswitch) (chunks : List (List UInt8)) : Prop :=
  ∀ arrived, arrived <+: chunks → ∀ last : ReadResult, last.count ≤ 0 →
    ∃ fuel ret after,
      fakeswitchGetCount fuel fs (arrived.map .data ++ [last]) = some (ret, after) ∧
        openflow.TailOf (buffered fs.inbuf ++ arrived.flatten) (buffered after.inbuf)

/-- One read keeps the framing: at least as much is left over afterwards as before, and
where the left over part has grown without reaching its length field, the stale bytes read
in its place announce more than the growth. -/
def StepSafe (inbuf : Msgbuf) (chunk : List UInt8) : Prop :=
  let read := (msgbufRead inbuf (.data chunk)).2
  let held := (buffered inbuf).length
  let left := (openflow.remainder (buffered read)).length
  held ≤ left ∧ (held < left → left < 4 → left - held < ofphLength read.buf (read.stop - left))

def settle (inbuf : Msgbuf) (chunk : List UInt8) : Msgbuf :=
  let read := (msgbufRead inbuf (.data chunk)).2
  advance read ((buffered read).length - (openflow.remainder (buffered read)).length)

def Steady : Msgbuf → List (List UInt8) → Prop
  | _, [] => True
  | inbuf, chunk :: chunks => StepSafe inbuf chunk ∧ Steady (settle inbuf chunk) chunks

instance (inbuf : Msgbuf) (chunk : List UInt8) : Decidable (StepSafe inbuf chunk) := by
  unfold StepSafe
  infer_instance

theorem discardMessage_frame {inbuf : Msgbuf} {frame rest : List UInt8} {count : Nat}
    (framed : openflow.Frame frame) (front : buffered inbuf = frame ++ rest)
    (fits : frame.length ≤ count) :
    discardMessage (inbuf, count) =
      some (.again (advance inbuf frame.length, ((count - frame.length : Nat) : Int))) := by
  have header : 8 ≤ frame.length := framed.1
  have stored := (advance_front front).1
  have pulled := msgbufPull_front front (by omega)
  have found := msgbufPeek_some inbuf (by rw [front, List.length_append]; omega)
  have length : ofphLength inbuf.buf inbuf.start = frame.length := by
    rw [ofphLength_eq_size stored (by omega), framed.2]
  unfold discardMessage
  dsimp only
  rw [if_pos (by omega), found]
  dsimp only
  rw [length, if_neg (by omega), pulled, Nat.cast_sub fits]

theorem loop_frames {frames : List (List UInt8)} (framed : ∀ frame ∈ frames, openflow.Frame frame)
    {inbuf : Msgbuf} (compact : Compact inbuf) {rest : List UInt8} (count : Nat)
    (content : buffered inbuf = frames.flatten ++ rest) (fits : frames.flatten.length ≤ count)
    (fuel : Nat) :
    loop discardMessage (frames.length + fuel) (inbuf, count) =
      loop discardMessage fuel
        (advance inbuf frames.flatten.length, ((count - frames.flatten.length : Nat) : Int)) := by
  induction frames generalizing inbuf count with
  | nil =>
    rw [List.flatten_nil, List.length_nil, List.length_nil, Nat.zero_add, Nat.sub_zero,
      advance_zero compact]
  | cons frame frames ih =>
    rw [List.flatten_cons, List.append_assoc] at content
    rw [List.flatten_cons, List.length_append] at fits
    have after := (advance_front content).2
    have turn := discardMessage_frame (framed frame List.mem_cons_self) content
      (Nat.le_of_add_right_le fits)
    rw [List.length_cons, Nat.add_right_comm, loop_again turn,
      ih (fun other member => framed other (List.mem_cons_of_mem _ member)) (advance_compact _ _)
        _ after (by omega),
      advance_advance, List.flatten_cons, List.length_append, Nat.sub_sub]

/-- Where the next message has not arrived in full, the length is taken from whatever the
memory holds at that place. -/
theorem discardMessage_tail (inbuf : Msgbuf) (count : Nat) (more : 0 < count)
    (some' : 0 < (buffered inbuf).length) :
    discardMessage (inbuf, count) =
      let msglen := ofphLength inbuf.buf inbuf.start
      if count < msglen then some (.leave inbuf)
      else some (.again ((msgbufPull inbuf msglen).2.2, ((count - msglen : Nat) : Int))) := by
  unfold discardMessage
  dsimp only
  rw [if_pos (by omega), msgbufPeek_some inbuf some']
  dsimp only
  by_cases waits : count < ofphLength inbuf.buf inbuf.start
  · rw [if_pos waits, if_pos (by omega)]
  · rw [if_neg waits, if_neg (by omega), Nat.cast_sub (by omega)]

theorem discardMessage_cases {inbuf : Msgbuf} {count : Nat} {iteration : Iter (Msgbuf × Int) Msgbuf}
    (turn : discardMessage (inbuf, count) = some iteration) :
    iteration = .leave inbuf ∨ ∃ msglen : Nat, msglen ≤ count ∧
      iteration = .again ((msgbufPull inbuf msglen).2.2, ((count - msglen : Nat) : Int)) := by
  unfold discardMessage at turn
  dsimp only at turn
  split_ifs at turn with more
  · cases found : msgbufPeek inbuf with
    | none =>
      rw [found] at turn
      cases turn
    | some ofph =>
      rw [found] at turn
      dsimp only at turn
      split_ifs at turn with waits
      · exact Or.inl (Option.some.inj turn).symm
      · refine Or.inr ⟨ofphLength inbuf.buf ofph, by omega, ?_⟩
        rw [Nat.cast_sub (by omega)]
        exact (Option.some.inj turn).symm
  · exact Or.inl (Option.some.inj turn).symm

theorem loop_bounds (held : Nat) {fuel count : Nat} {inbuf after : Msgbuf}
    (returned : loop discardMessage fuel (inbuf, (count : Int)) = some after)
    (total : (buffered inbuf).length = held + count) :
    held ≤ (buffered after).length ∧ (buffered after).length ≤ (buffered inbuf).length := by
  refine loop_invariant
    (fun state => ∃ count : Nat, state.2 = (count : Int) ∧
      (buffered state.1).length = held + count ∧
      (buffered state.1).length ≤ (buffered inbuf).length)
    (fun after => held ≤ (buffered after).length ∧
      (buffered after).length ≤ (buffered inbuf).length)
    ?_ ?_ ⟨count, rfl, total, Nat.le_refl _⟩ returned
  · intro ⟨inbuf', _⟩ next ⟨count', same, total', shorter⟩ turn
    dsimp only at same total' shorter
    subst same
    rcases discardMessage_cases turn with left | ⟨msglen, fits, again⟩
    · cases left
    · cases again
      have pulled := msgbufPull_buffered_length inbuf' msglen
      exact ⟨count' - msglen, rfl, by dsimp only; omega, by dsimp only; omega⟩
  · intro ⟨inbuf', _⟩ after ⟨count', same, total', shorter⟩ turn
    dsimp only at same total' shorter
    subst same
    rcases discardMessage_cases turn with left | ⟨msglen, fits, again⟩
    · cases left
      omega
    · cases again

/-- A read, seen as the complete messages it makes available and the new tail. -/
theorem read_split {inbuf : Msgbuf} (compact : Compact inbuf) {chunk : List UInt8}
    (stream : openflow.Stream (buffered inbuf ++ chunk)) :
    ∃ frames : List (List UInt8), (∀ frame ∈ frames, openflow.Frame frame) ∧
      buffered (msgbufRead inbuf (.data chunk)).2 =
        frames.flatten ++ openflow.remainder (buffered inbuf ++ chunk) ∧
      settle inbuf chunk = advance (msgbufRead inbuf (.data chunk)).2 frames.flatten.length ∧
      (buffered inbuf).length + chunk.length =
        frames.flatten.length + (openflow.remainder (buffered inbuf ++ chunk)).length := by
  obtain ⟨-, frames, framed, content⟩ := stream.tailOf_remainder
  have read : buffered (msgbufRead inbuf (.data chunk)).2 = buffered inbuf ++ chunk :=
    msgbufRead_buffered (.data chunk) compact.ordered
  have length : (buffered inbuf ++ chunk).length =
      frames.flatten.length + (openflow.remainder (buffered inbuf ++ chunk)).length := by
    rw [← List.length_append, ← content]
  refine ⟨frames, framed, read.trans content, ?_, List.length_append ▸ length⟩
  unfold settle
  dsimp only
  rw [read, length, Nat.add_sub_cancel]

theorem settle_buffered {inbuf : Msgbuf} (compact : Compact inbuf) {chunk : List UInt8}
    (stream : openflow.Stream (buffered inbuf ++ chunk)) :
    buffered (settle inbuf chunk) = openflow.remainder (buffered inbuf ++ chunk) := by
  obtain ⟨frames, -, content, settled, -⟩ := read_split compact stream
  rw [settled]
  exact (advance_front content).2

/-- A tail with its length field is longer than it looks: the length read there is that of
the whole message. -/
theorem ofphLength_partial {buf : Nat → UInt8} {ofph : Nat} {tail : List UInt8}
    (partly : openflow.Partial tail) (stored : load buf ofph tail.length = tail)
    (arrived : 4 ≤ tail.length) : tail.length < ofphLength buf ofph := by
  obtain ⟨frame, framed, ⟨rest, rfl⟩, shorter⟩ := partly
  have announced : announcedSize (tail ++ rest) = (tail ++ rest).length := framed.2
  rw [announcedSize_append rest arrived] at announced
  rw [ofphLength_eq_size stored arrived]
  exact shorter.trans_eq announced.symm

theorem StepSafe.settles {inbuf : Msgbuf} {chunk : List UInt8} (safe : StepSafe inbuf chunk)
    (compact : Compact inbuf) (stream : openflow.Stream (buffered inbuf ++ chunk)) :
    ∃ fuel, loop discardMessage fuel ((msgbufRead inbuf (.data chunk)).2, (chunk.length : Int)) =
      some (settle inbuf chunk) := by
  -- first the whole frames of the read, then one look at the tail that is left
  have partly := stream.tailOf_remainder.1
  have remaining := settle_buffered compact stream
  obtain ⟨frames, framed, content, settled, total⟩ := read_split compact stream
  have read : buffered (msgbufRead inbuf (.data chunk)).2 = buffered inbuf ++ chunk :=
    msgbufRead_buffered (.data chunk) compact.ordered
  unfold StepSafe at safe
  dsimp only at safe
  rw [read] at safe
  set tail := openflow.remainder (buffered inbuf ++ chunk)
  obtain ⟨grown, stale⟩ := safe
  have discarded := loop_frames framed (msgbufRead_compact (.data chunk) compact)
    chunk.length content (by omega) 1
  have rest : chunk.length - frames.flatten.length = tail.length - (buffered inbuf).length := by
    omega
  rw [rest, ← settled] at discarded
  refine ⟨frames.length + 1, discarded.trans (loop_leave ?_ 0)⟩
  by_cases same : tail.length - (buffered inbuf).length = 0
  · -- nothing of the read is left to look at
    rw [same]
    rfl
  · have start := advance_start content (by omega)
    have waits : tail.length - (buffered inbuf).length <
        ofphLength (settle inbuf chunk).buf (settle inbuf chunk).start := by
      by_cases short : tail.length < 4
      · rw [settled, start, advance_buf]
        exact stale (by omega) short
      · have stored := (advance_front (remaining.trans (List.append_nil _).symm)).1
        have length := ofphLength_partial partly stored (by omega)
        omega
    rw [discardMessage_tail _ _ (by omega) (by rw [remaining]; omega)]
    exact if_pos waits

theorem stepSafe_of_loop {inbuf after : Msgbuf} {chunk : List UInt8} {fuel : Nat}
    (compact : Compact inbuf) (stream : openflow.Stream (buffered inbuf ++ chunk))
    (returned : loop discardMessage fuel
      ((msgbufRead inbuf (.data chunk)).2, (chunk.length : Int)) = some after)
    (left : buffered after = openflow.remainder (buffered inbuf ++ chunk)) :
    StepSafe inbuf chunk := by
  have remaining := settle_buffered compact stream
  obtain ⟨frames, framed, content, settled, total⟩ := read_split compact stream
  have read : buffered (msgbufRead inbuf (.data chunk)).2 = buffered inbuf ++ chunk :=
    msgbufRead_buffered (.data chunk) compact.ordered
  have grown := (loop_bounds (buffered inbuf).length returned
    (by rw [read, List.length_append])).1
  unfold StepSafe
  dsimp only
  rw [read, ← left]
  refine ⟨grown, fun more short => ?_⟩
  by_contra misled
  rw [left] at grown more short misled
  set tail := openflow.remainder (buffered inbuf ++ chunk)
  -- the loop has thrown away the complete messages and looks at the tail
  have start := advance_start content (by omega)
  have mono := loop_mono returned (Nat.le_add_left fuel frames.length)
  rw [loop_frames framed (msgbufRead_compact (.data chunk) compact) _ content (by omega),
    show chunk.length - frames.flatten.length = tail.length - (buffered inbuf).length by omega,
    ← settled] at mono
  have turn := discardMessage_tail (settle inbuf chunk)
    (tail.length - (buffered inbuf).length) (by omega) (by rw [remaining]; omega)
  rw [settled, advance_buf, start, ← settled] at turn
  dsimp only at turn
  rw [if_neg misled] at turn
  set msglen := ofphLength (msgbufRead inbuf (.data chunk)).2.buf
    ((msgbufRead inbuf (.data chunk)).2.stop - tail.length)
  rcases Nat.eq_zero_or_pos msglen with zero | positive
  · -- length 0: nothing is pulled and the count stays as it is
    rw [zero, msgbufPull_refused (Or.inl (by decide)), Nat.sub_zero] at turn
    rw [loop_stuck turn] at mono
    cases mono
  · -- some bytes of the tail are thrown away
    cases fuel with
    | zero => cases mono
    | succ fuel =>
      rw [loop_again turn] at mono
      have pulled := msgbufPull_buffered_length (settle inbuf chunk) msglen
      have bounds := loop_bounds (buffered inbuf).length mono (by rw [pulled, remaining]; omega)
      rw [pulled, remaining, left] at bounds
      omega

theorem drain_last (fuel : Nat) (inbuf : Msgbuf) {last : ReadResult} (ends : last.count ≤ 0) :
    drain fuel inbuf [last] = some (msgbufRead inbuf last).2 := by
  rw [drain]
  dsimp only
  rw [msgbufRead_count, if_neg (by omega)]

theorem drain_chunk (fuel : Nat) (inbuf : Msgbuf) {chunk : List UInt8} (some' : chunk ≠ [])
    (results : List ReadResult) :
    drain fuel inbuf (.data chunk :: results) =
      match loop discardMessage fuel ((msgbufRead inbuf (.data chunk)).2, (chunk.length : Int)) with
      | none => none
      | some inbuf => drain fuel inbuf results := by
  have positive : 0 < (ReadResult.data chunk).count := (ReadResult.count_pos _).mpr some'
  rw [drain]
  dsimp only
  rw [msgbufRead_count, if_pos positive]
  rfl

theorem drain_mono {fuel more : Nat} {inbuf after : Msgbuf} {results : List ReadResult}
    (returned : drain fuel inbuf results = some after) (enough : fuel ≤ more) :
    drain more inbuf results = some after := by
  induction results generalizing inbuf with
  | nil => cases returned
  | cons result results ih =>
    rw [drain] at returned ⊢
    dsimp only at returned ⊢
    split_ifs at returned ⊢ with some'
    · cases discarded : loop discardMessage fuel
          ((msgbufRead inbuf result).2, (msgbufRead inbuf result).1) with
      | none =>
        rw [discarded] at returned
        cases returned
      | some next =>
        rw [discarded] at returned
        rw [loop_mono discarded enough]
        exact ih returned
    · exact returned

/-- The drain of the input buffer alone: at every point it may stop at, the tail is left. -/
def Drains (inbuf : Msgbuf) (chunks : List (List UInt8)) : Prop :=
  ∀ arrived, arrived <+: chunks → ∀ last : ReadResult, last.count ≤ 0 →
    ∃ fuel after, drain fuel inbuf (arrived.map .data ++ [last]) = some after ∧
      buffered after = openflow.remainder (buffered inbuf ++ arrived.flatten)

theorem Steady.drains {inbuf : Msgbuf} {chunks : List (List UInt8)} (steady : Steady inbuf chunks)
    (compact : Compact inbuf) (arriving : ∀ chunk ∈ chunks, chunk ≠ [])
    (stream : openflow.Stream (buffered inbuf ++ chunks.flatten))
    (partly : openflow.Partial (buffered inbuf)) : Drains inbuf chunks := by
  intro arrived before last ends
  induction arrived generalizing inbuf chunks with
  | nil =>
    refine ⟨0, _, drain_last 0 inbuf ends, ?_⟩
    rw [msgbufRead_nothing inbuf ends, List.flatten_nil, List.append_nil]
    exact (Layout.remainder_of_partial partly).symm
  | cons chunk arrived ih =>
    obtain ⟨later, rfl⟩ := before
    obtain ⟨safe, steady⟩ := steady
    rw [List.cons_append, List.flatten_cons, ← List.append_assoc] at stream
    obtain ⟨first, next, -⟩ := stream.cut
    obtain ⟨fuel, discarded⟩ := safe.settles compact first
    have settled := settle_buffered compact first
    obtain ⟨fuel', after, returned, left⟩ := ih steady (advance_compact _ _)
      (fun other member => arriving other (List.mem_cons_of_mem _ member)) (settled ▸ next)
      (settled ▸ first.tailOf_remainder.1) (List.prefix_append _ _)
    refine ⟨max fuel fuel', after, ?_, ?_⟩
    · rw [List.map_cons, List.cons_append, drain_chunk _ _ (arriving chunk List.mem_cons_self),
        loop_mono discarded (Nat.le_max_left _ _)]
      exact drain_mono returned (Nat.le_max_right _ _)
    · rw [List.flatten_append, ← List.append_assoc] at stream
      rw [left, settled, stream.cut.1.cut.2.2, List.flatten_cons, List.append_assoc]

theorem Drains.steady {inbuf : Msgbuf} {chunks : List (List UInt8)} (drains : Drains inbuf chunks)
    (compact : Compact inbuf) (arriving : ∀ chunk ∈ chunks, chunk ≠ [])
    (stream : openflow.Stream (buffered inbuf ++ chunks.flatten)) : Steady inbuf chunks := by
  induction chunks generalizing inbuf with
  | nil => trivial
  | cons chunk chunks ih =>
    have some' := arriving chunk List.mem_cons_self
    rw [List.flatten_cons, ← List.append_assoc] at stream
    obtain ⟨first, next, -⟩ := stream.cut
    have settled := settle_buffered compact first
    -- the drain that stops right after this read shows that the read is safe
    have safe : StepSafe inbuf chunk := by
      obtain ⟨fuel, after, returned, left⟩ := drains [chunk] (by simp) .error (by decide)
      rw [List.map_cons, List.map_nil, List.cons_append, drain_chunk _ _ some'] at returned
      cases discarded : loop discardMessage fuel
          ((msgbufRead inbuf (.data chunk)).2, (chunk.length : Int)) with
      | none =>
        rw [discarded] at returned
        cases returned
      | some mid =>
        rw [discarded, List.nil_append] at returned
        dsimp only at returned
        rw [drain_last fuel mid (by decide), Option.some.injEq] at returned
        rw [← returned, msgbufRead_nothing mid (by decide), List.flatten_cons, List.flatten_nil,
          List.append_nil] at left
        exact stepSafe_of_loop compact first discarded left
    refine ⟨safe, ih ?_ (advance_compact _ _)
      (fun other member => arriving other (List.mem_cons_of_mem _ member)) (settled ▸ next)⟩
    obtain ⟨fuel, discarded⟩ := safe.settles compact first
    intro arrived before last ends
    obtain ⟨fuel', after, returned, left⟩ := drains (chunk :: arrived)
      (List.cons_prefix_cons.mpr ⟨rfl, before⟩) last ends
    have returned := drain_mono returned (Nat.le_max_right fuel fuel')
    rw [List.map_cons, List.cons_append, drain_chunk _ _ some',
      loop_mono discarded (Nat.le_max_left _ _)] at returned
    refine ⟨_, after, returned, ?_⟩
    obtain ⟨later, rfl⟩ := before
    rw [List.flatten_append, ← List.append_assoc] at stream
    rw [left, settled, stream.cut.1.cut.2.2, List.flatten_cons, List.append_assoc]

/-- The framing survives a drain exactly when no complete message was waiting before it and
every read is safe. -/
theorem keepsFraming_iff (fs : Fakeswitch) (bounds : InBounds fs.inbuf) (chunks : List (List UInt8))
    (arriving : ∀ chunk ∈ chunks, chunk ≠ [])
    (stream : openflow.Stream (buffered fs.inbuf ++ chunks.flatten)) :
    KeepsFraming fs chunks ↔ openflow.Partial (buffered fs.inbuf) ∧ Steady fs.inbuf chunks := by
  have compact := bounds.compact
  have drains_iff : KeepsFraming fs chunks ↔ Drains fs.inbuf chunks := by
    constructor
    · intro keeps arrived before last ends
      obtain ⟨fuel, ret, after, returned, tail⟩ := keeps arrived before last ends
      unfold fakeswitchGetCount at returned
      cases drained : drain fuel fs.inbuf (arrived.map .data ++ [last]) with
      | none =>
        rw [drained] at returned
        cases returned
      | some inbuf =>
        rw [drained] at returned
        cases returned
        exact ⟨fuel, inbuf, drained, tail.eq_remainder⟩
    · intro drains arrived before last ends
      obtain ⟨fuel, inbuf, drained, left⟩ := drains arrived before last ends
      refine ⟨fuel, fs.count, { fs with count := 0, probeState := 0, inbuf }, ?_, ?_⟩
      · rw [fakeswitchGetCount, drained]
      · obtain ⟨later, rfl⟩ := before
        rw [List.flatten_append, ← List.append_assoc] at stream
        exact left ▸ stream.cut.1.tailOf_remainder
  rw [drains_iff]
  constructor
  · intro drains
    refine ⟨?_, drains.steady compact arriving stream⟩
    obtain ⟨fuel, after, returned, left⟩ := drains [] List.nil_prefix .error (by decide)
    rw [List.map_nil, List.nil_append, drain_last fuel _ (by decide), Option.some.injEq] at returned
    rw [← returned, msgbufRead_nothing _ (by decide), List.flatten_nil, List.append_nil] at left
    exact left ▸ stream.cut.1.tailOf_remainder.1
  · intro ⟨partly, steady⟩
    exact steady.drains compact arriving stream partly

theorem keepsFraming_iff_whole_message :
    let fs := fakeswitchInit 1 65536 (by decide) 0 .latency 1 ⟨0, 0⟩ (fun _ => 0)
    KeepsFraming fs [[1, 0, 0, 8, 0, 0, 0, 1]] := by
  intro fs
  have hello : openflow.Frame [1, 0, 0, 8, 0, 0, 0, 1] := ⟨by decide, by decide⟩
  have nothing : openflow.Partial [] := ⟨_, hello, List.nil_prefix, by decide⟩
  have stream : openflow.Stream (buffered fs.inbuf ++ [[1, 0, 0, 8, 0, 0, 0, 1]].flatten) :=
    ⟨[], nothing, [_], by simpa using hello, rfl⟩
  exact (keepsFraming_iff fs (msgbufNew_inBounds _ _ _) _ (by decide) stream).mpr
    ⟨nothing, by decide, trivial⟩

/-- A new switch that has read half of an 8-byte message. When the drain reads the other half,
it breaks off (4 bytes read, 8 announced) and returns with the complete message still buffered.
When a new switch's drain first reads a single byte, the length is taken from memory that
holds zeros and the loop goes on for ever. -/
theorem drain_breaks_framing :
    let fs := fakeswitchInit 1 65536 (by decide) 0 .latency 1 ⟨0, 0⟩ (fun _ => 0)
    (∃ waiting after,
      fakeswitchHandleRead 1 ⟨fs, fun _ => ⟨0, 0⟩⟩ (.data [1, 0, 0, 8]) = some (.ok waiting) ∧
        fakeswitchGetCount 1 waiting.fs [.data [0, 0, 0, 1], .error] = some (0, after) ∧
        buffered after.inbuf = [1, 0, 0, 8, 0, 0, 0, 1] ∧ openflow.Frame (buffered after.inbuf)) ∧
      ∀ fuel, fakeswitchGetCount fuel fs [.data [1], .error] = none := by
  intro fs
  constructor
  · let half : Msgbuf := ⟨store (fun _ => 0) 0 [1, 0, 0, 8], 65536, 0, 4, by decide⟩
    let whole : Msgbuf := ⟨store half.buf 4 [0, 0, 0, 1], 65536, 0, 8, by decide⟩
    have waits : discardMessage (whole, 4) = some (.leave whole) :=
      (discardMessage_tail whole 4 (by decide) (by decide)).trans (if_pos (by decide))
    have drained : drain 1 half [.data [0, 0, 0, 1], .error] = some whole := by
      rw [drain_chunk _ _ (by decide)]
      change (match loop discardMessage 1 (whole, 4) with
        | none => none
        | some inbuf => drain 1 inbuf [.error]) = some whole
      rw [loop_leave waits]
      rfl
    refine ⟨⟨{ fs with inbuf := half }, _⟩, { fs with inbuf := whole }, rfl, ?_, rfl,
      by decide, by decide⟩
    rw [fakeswitchGetCount, drained]
    rfl
  · intro fuel
    let one : Msgbuf := ⟨store (fun _ => 0) 0 [1], 65536, 0, 1, by decide⟩
    have again : discardMessage (one, 1) = some (.again (one, 1)) := by
      refine (discardMessage_tail one 1 (by decide) (by decide)).trans ?_
      have zero : ofphLength one.buf one.start = 0 := by decide
      rw [zero]
      rfl
    have never : drain fuel fs.inbuf [.data [1], .error] = none := by
      rw [drain_chunk _ _ (by decide)]
      change (match loop discardMessage fuel (one, 1) with
        | none => none
        | some inbuf => drain fuel inbuf [.error]) = none
      rw [loop_stuck again]
    rw [fakeswitchGetCount, never]

end Oflops.Cbench.GetCount
