import Oflops.Cbench.HandleRead

/-! Whether the message loop of `fakeswitch_handle_read` ends, on any bytes at all. Every turn
pulls the number of bytes that the peer announces; a message that announces none is handled over
and over again. -/

namespace Oflops.Cbench.Stall
open Lib.Framing Lib.Loop Stream.Buffer Protocol Switch HandleRead

/-- The switch is given `chunks` by successive reads; each of them returns, and every turn of its
loop consumes some of the buffered bytes. -/
def Progresses : Timed → List (List UInt8) → Prop
  | _, [] => True
  | state, chunk :: chunks =>
    ∃ fuel next, fakeswitchHandleRead fuel state (.data chunk) = some (.ok next) ∧
      (∀ turn ∈ turns handleMessage fuel (received state (.data chunk)), ∀ after,
        handleMessage turn = some (.again after) →
          (buffered after.fs.inbuf).length < (buffered turn.fs.inbuf).length) ∧
      Progresses next chunks

theorem handleMessage_drops {state : Timed}
    (complete : ¬ openflow.Incomplete (buffered state.fs.inbuf)) :
    ∃ next, handleMessage state = some (.again next) ∧
      buffered next.fs.inbuf =
        (buffered state.fs.inbuf).drop (openflow.size (buffered state.fs.inbuf)) ∧
      (Compact state.fs.inbuf → Compact next.fs.inbuf) := by
  obtain ⟨inbuf, -, -⟩ := dispatch_frame
    (withInbuf state (msgbufPull state.fs.inbuf (openflow.size (buffered state.fs.inbuf))).2.2)
    state.fs.inbuf.start
  refine ⟨_, handleMessage_complete complete, ?_, ?_⟩
  · rw [inbuf]
    exact msgbufPull_drop (not_lt.mp (not_or.mp complete).2)
  · intro compact
    rw [inbuf]
    exact msgbufPull_compact compact _

theorem loop_of_stalls {state : Timed} (stalls : openflow.Stalls (buffered state.fs.inbuf))
    (fuel : Nat) : loop handleMessage fuel state = none := by
  -- either nothing is dropped and the same bytes stall again, or the rest of them does
  apply loop_forever (fun state : Timed => openflow.Stalls (buffered state.fs.inbuf)) _ stalls
  intro state stalls
  have complete : ¬ openflow.Incomplete (buffered state.fs.inbuf) :=
    fun incomplete => incomplete.not_stalls stalls
  obtain ⟨next, went, left, -⟩ := handleMessage_drops complete
  refine ⟨next, went, ?_⟩
  rw [left]
  rcases Nat.eq_zero_or_pos (openflow.size (buffered state.fs.inbuf)) with nothing | some'
  · rw [nothing, List.drop_zero]
    exact stalls
  · exact (Layout.stalls_drop complete some').mpr stalls

theorem loop_of_not_stalls {state : Timed} (free : ¬ openflow.Stalls (buffered state.fs.inbuf)) :
    ∃ fuel next, loop handleMessage fuel state = some next ∧
      ∀ turn ∈ turns handleMessage fuel state, ∀ after, handleMessage turn = some (.again after) →
        (buffered after.fs.inbuf).length < (buffered turn.fs.inbuf).length := by
  induction length : (buffered state.fs.inbuf).length using Nat.strong_induction_on
    generalizing state with
  | _ n ih =>
    by_cases incomplete : openflow.Incomplete (buffered state.fs.inbuf)
    · have left := handleMessage_incomplete incomplete
      refine ⟨1, state, loop_leave left 0, ?_⟩
      rw [turns_leave left]
      intro turn none
      cases none
    · obtain ⟨next, went, drops, -⟩ := handleMessage_drops incomplete
      obtain ⟨header, whole⟩ := not_or.mp incomplete
      have some' : 0 < openflow.size (buffered state.fs.inbuf) := by
        apply Nat.pos_of_ne_zero
        intro nothing
        exact free (.here (not_lt.mp header) nothing)
      have shorter : (buffered next.fs.inbuf).length < (buffered state.fs.inbuf).length := by
        rw [drops, List.length_drop]
        omega
      have free' : ¬ openflow.Stalls (buffered next.fs.inbuf) := by
        rw [drops, Layout.stalls_drop incomplete some']
        exact free
      obtain ⟨fuel, final, ended, consumes⟩ := ih _ (length ▸ shorter) free' rfl
      refine ⟨fuel + 1, final, by rw [loop_again went, ended], ?_⟩
      rw [turns_again went]
      intro turn member after taken
      rcases List.mem_cons.mp member with rfl | earlier
      · cases went.symm.trans taken
        exact shorter
      · exact consumes turn earlier after taken

/-- What is left when the loop ends stalls later if and only if the whole did. -/
theorem loop_keeps {fuel : Nat} {state next : Timed} (compact : Compact state.fs.inbuf)
    (ended : loop handleMessage fuel state = some next) :
    Compact next.fs.inbuf ∧ ∀ more, openflow.Stalls (buffered next.fs.inbuf ++ more) ↔
      openflow.Stalls (buffered state.fs.inbuf ++ more) := by
  refine loop_invariant (fun turn : Timed => Compact turn.fs.inbuf ∧
      ∀ more, openflow.Stalls (buffered turn.fs.inbuf ++ more) ↔
        openflow.Stalls (buffered state.fs.inbuf ++ more))
    (fun next : Timed => Compact next.fs.inbuf ∧
      ∀ more, openflow.Stalls (buffered next.fs.inbuf ++ more) ↔
        openflow.Stalls (buffered state.fs.inbuf ++ more))
    ?_ ?_ ⟨compact, fun _ => Iff.rfl⟩ ended
  · rintro turn after ⟨compact, same⟩ taken
    by_cases incomplete : openflow.Incomplete (buffered turn.fs.inbuf)
    · cases (handleMessage_incomplete incomplete).symm.trans taken
    · obtain ⟨next, went, drops, keeps⟩ := handleMessage_drops incomplete
      cases went.symm.trans taken
      refine ⟨keeps compact, fun more => ?_⟩
      obtain ⟨size, still⟩ := Layout.not_incomplete_append incomplete more
      rw [← same more, drops, ← List.drop_append_of_le_length
        (not_lt.mp (not_or.mp incomplete).2), ← size]
      rcases Nat.eq_zero_or_pos (openflow.size (buffered turn.fs.inbuf ++ more))
        with nothing | some'
      · rw [nothing, List.drop_zero]
      · exact Layout.stalls_drop still some'
  · rintro turn result kept taken
    exact handleMessage_leave taken ▸ kept

theorem received_compact {state : Timed} (chunk : List UInt8) (compact : Compact state.fs.inbuf) :
    Compact (received state (.data chunk)).fs.inbuf := msgbufRead_compact _ compact

theorem received_buffered {state : Timed} (chunk : List UInt8) (compact : Compact state.fs.inbuf) :
    buffered (received state (.data chunk)).fs.inbuf = buffered state.fs.inbuf ++ chunk :=
  msgbufRead_buffered _ compact.ordered

/-- Whatever is received in whatever portions: all the reads return and all their turns consume
some bytes, unless cutting the stream by its length fields meets a header with length zero. -/
theorem handle_read_progresses_iff (state : Timed) (compact : Compact state.fs.inbuf)
    (chunk : List UInt8) (chunks : List (List UInt8))
    (arriving : ∀ other ∈ chunk :: chunks, other ≠ []) :
    Progresses state (chunk :: chunks) ↔
      ¬ openflow.Stalls (buffered state.fs.inbuf ++ (chunk :: chunks).flatten) := by
  induction chunks generalizing state chunk with
  | nil =>
    rw [List.flatten_singleton, ← received_buffered chunk compact]
    have some' := arriving chunk List.mem_cons_self
    constructor
    · rintro ⟨fuel, next, returned, -⟩ stalls
      rw [handleRead_received fuel state some', loop_of_stalls stalls] at returned
      cases returned
    · intro free
      obtain ⟨fuel, next, ended, consumes⟩ := loop_of_not_stalls free
      refine ⟨fuel, next, ?_, consumes, True.intro⟩
      rw [handleRead_received fuel state some', ended, Option.map_some]
  | cons second chunks ih =>
    have some' := arriving chunk List.mem_cons_self
    have later := fun other member => arriving other (List.mem_cons_of_mem chunk member)
    rw [List.flatten_cons, ← List.append_assoc, ← received_buffered chunk compact]
    constructor
    · rintro ⟨fuel, next, returned, -, progresses⟩ stalls
      rw [handleRead_received fuel state some'] at returned
      obtain ⟨_, ended, same⟩ := Option.map_eq_some_iff.mp returned
      cases same
      obtain ⟨compact', same⟩ := loop_keeps (received_compact chunk compact) ended
      exact (ih next compact' second later).mp progresses ((same _).mpr stalls)
    · intro free
      obtain ⟨fuel, next, ended, consumes⟩ :=
        loop_of_not_stalls (fun stalls => free (stalls.append (second :: chunks).flatten))
      obtain ⟨compact', same⟩ := loop_keeps (received_compact chunk compact) ended
      refine ⟨fuel, next, ?_, consumes, (ih next compact' second later).mpr ?_⟩
      · rw [handleRead_received fuel state some', ended, Option.map_some]
      · rw [same]
        exact free

def fresh : Timed :=
  ⟨fakeswitchInit 1 16 (by decide) 0 .latency 1 ⟨0, 0⟩ (fun _ => 0), fun _ => ⟨0, 0⟩⟩

theorem fresh_compact : Compact fresh.fs.inbuf := (msgbufNew_inBounds _ _ _).compact

/-- An echo request in two portions. -/
theorem handle_read_progresses_iff_echo :
    Compact fresh.fs.inbuf ∧
      (Progresses fresh [[1, 2, 0, 8, 0], [0, 0, 7]] ↔
        ¬ openflow.Stalls (buffered fresh.fs.inbuf ++ [[1, 2, 0, 8, 0], [0, 0, 7]].flatten)) :=
  ⟨fresh_compact, handle_read_progresses_iff fresh fresh_compact _ _ (by decide)⟩

/-- A header that announces length zero keeps the message loop busy for ever. -/
theorem zero_length_hangs :
    (∀ fuel, fakeswitchHandleRead fuel fresh (.data [1, 2, 0, 0, 0, 0, 0, 0]) = none) ∧
      ¬ Progresses fresh [[1, 2, 0, 0, 0, 0, 0, 0]] := by
  have hangs : ∀ fuel, fakeswitchHandleRead fuel fresh (.data [1, 2, 0, 0, 0, 0, 0, 0]) = none := by
    intro fuel
    rw [handleRead_received fuel fresh (by decide), loop_of_stalls _ fuel, Option.map_none]
    rw [received_buffered _ fresh_compact]
    exact .here (by decide) rfl
  refine ⟨hangs, ?_⟩
  rintro ⟨fuel, next, returned, -⟩
  rw [hangs fuel] at returned
  cases returned

end Oflops.Cbench.Stall
