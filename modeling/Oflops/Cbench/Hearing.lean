import Oflops.Cbench.Session

/-! What a fake switch hears: as long as `fakeswitch_get_count` does not take bytes away, the
messages that its reads handle are those of the stream, that is of the bytes that its input buffer
held and of those that came in. -/

namespace Oflops.Cbench.Hearing
open Lib.Framing Lib.Loop Lib.Machine Stream.Buffer Protocol Switch HandleRead Session

def isGetCount : Event → Bool
  | .getCount _ _ => true
  | _ => false

/-- The bytes that a call puts before the message loop. -/
def bytesRead : Event → List UInt8
  | .read _ result => result.bytes
  | _ => []

def noted : Act → Option (OfpType × Nat × Bool)
  | .handled request => some (request.type, request.xid, request.response)
  | _ => none

def meant (message : Message) : OfpType × Nat × Bool :=
  (message.type, message.xid, responds message)

/-- If the bytes are whole messages and the beginning of another one, the whole ones are handled
in their order, as soon as anything is read at all. -/
def Hears (state : Timed) (events : List Event) (log : List (List Act)) : Prop :=
  ∀ (messages : List Message) (tail : List UInt8), openflow.Incomplete tail →
    buffered state.fs.inbuf ++ events.flatMap bytesRead =
      (messages.map Message.bytes).flatten ++ tail →
    log.flatten.filterMap noted =
      if events.flatMap bytesRead = [] then [] else messages.map meant

/-- Since the last call of `fakeswitch_get_count`, if there was one. -/
def HearsStream (start : Timed) (events : List Event) (log : List (List Act)) : Prop :=
  ∀ before stretch, events = before ++ stretch → (∀ event ∈ stretch, isGetCount event = false) →
    ∃ mid early late, run step start before = some (mid, early) ∧ log = early ++ late ∧
      Hears mid stretch late

theorem messages_nil {messages : List Message} {rest tail : List UInt8}
    (incomplete : openflow.Incomplete rest)
    (same : rest = (messages.map Message.bytes).flatten ++ tail) : messages = [] ∧ rest = tail := by
  cases messages with
  | nil => exact ⟨rfl, same⟩
  | cons message messages =>
    rw [same, List.map_cons, List.flatten_cons, List.append_assoc] at incomplete
    exact absurd incomplete (message.framed.not_incomplete _)

/-- The turns of the message loop take the messages that have arrived, in order. -/
theorem turns_messages {state next : Timed} {fuel : Nat} (messages : List Message)
    {tail : List UInt8} (incomplete : openflow.Incomplete tail)
    (content : buffered state.fs.inbuf = (messages.map Message.bytes).flatten ++ tail)
    (ended : loop handleMessage fuel state = some next) :
    ((turns handleMessage fuel state).map (Act.handled ∘ requestOf)).filterMap noted =
        messages.map meant ∧
      buffered next.fs.inbuf = tail := by
  induction messages generalizing state fuel with
  | nil =>
    rw [List.map_nil, List.flatten_nil, List.nil_append] at content
    have left := handleMessage_incomplete (content ▸ incomplete)
    cases fuel with
    | zero => cases ended
    | succ fuel =>
      rw [loop_leave left] at ended
      cases ended
      rw [turns_leave left]
      exact ⟨rfl, content⟩
  | cons message messages ih =>
    rw [List.map_cons, List.flatten_cons, List.append_assoc] at content
    have again := handleMessage_front content
    cases fuel with
    | zero => cases ended
    | succ fuel =>
      rw [loop_again again] at ended
      obtain ⟨type, xid, response⟩ := requestOf_front content
      obtain ⟨inbuf, -, -⟩ := dispatch_frame
        (withInbuf state (advance state.fs.inbuf message.bytes.length)) state.fs.inbuf.start
      obtain ⟨others, rest⟩ := ih ((congrArg buffered inbuf).trans (advance_front content).2) ended
      refine ⟨?_, rest⟩
      rw [turns_again again, List.map_cons, List.map_cons, ← others]
      simp only [Function.comp_apply, List.filterMap_cons, noted, meant, type, xid, response]

/-! ### The input buffer -/

theorem handleRead_compact {fuel : Nat} {state next : Timed} {result : ReadResult}
    (compact : Compact state.fs.inbuf)
    (returned : fakeswitchHandleRead fuel state result = some (.ok next)) :
    Compact next.fs.inbuf := by
  refine loop_invariant (fun state : Timed => Compact state.fs.inbuf)
    (fun state : Timed => Compact state.fs.inbuf) ?_ ?_ (msgbufRead_compact result compact)
    (handleRead_ended returned).2
  · intro state next compact taken
    rw [handleMessage_pulled taken, (dispatch_frame _ _).1]
    exact msgbufPull_compact compact _
  · intro state result compact taken
    exact handleMessage_leave taken ▸ compact

theorem discardMessage_compact {state : Msgbuf × Int} {iteration : Iter (Msgbuf × Int) Msgbuf}
    (compact : Compact state.1) (taken : discardMessage state = some iteration) :
    (∀ next, iteration = .again next → Compact next.1) ∧
      ∀ result, iteration = .leave result → Compact result := by
  unfold discardMessage at taken
  dsimp only at taken
  split_ifs at taken with more
  · split at taken
    · cases taken
    · split_ifs at taken with waits
      · cases taken
        exact ⟨nofun, fun result same => Iter.leave.inj same ▸ compact⟩
      · cases taken
        exact ⟨fun next same => Iter.again.inj same ▸ msgbufPull_compact compact _, nofun⟩
  · cases taken
    exact ⟨nofun, fun result same => Iter.leave.inj same ▸ compact⟩

theorem drain_compact {fuel : Nat} {inbuf after : Msgbuf} {results : List ReadResult}
    (compact : Compact inbuf) (drained : drain fuel inbuf results = some after) :
    Compact after := by
  induction results generalizing inbuf with
  | nil => cases drained
  | cons result results ih =>
    have read := msgbufRead_compact result compact
    rw [drain] at drained
    dsimp only at drained
    split_ifs at drained with some'
    · split at drained
      · cases drained
      · rename_i mid looped
        refine ih ?_ drained
        refine loop_invariant (fun state : Msgbuf × Int => Compact state.1) Compact ?_ ?_
          read looped
        · intro state next compact taken
          exact (discardMessage_compact compact taken).1 next rfl
        · intro state result compact taken
          exact (discardMessage_compact compact taken).2 result rfl
    · cases drained
      exact read

theorem queueProbes_inbuf {n : Nat} {fs next : Fakeswitch} (queued : queueProbes n fs = some next) :
    next.inbuf = fs.inbuf := by
  induction n generalizing fs with
  | zero =>
    cases queued
    rfl
  | succ n ih =>
    obtain ⟨mid, one, rest⟩ := Option.bind_eq_some_iff.mp queued
    rw [ih rest, queueProbe_eq one]

theorem handleWrite_inbuf {state next : Timed} {room : Int} {written : Written}
    (wrote : fakeswitchHandleWrite state room = some (written, next)) :
    next.fs.inbuf = state.fs.inbuf := by
  obtain ⟨⟨probes, started, mid⟩, prepared, rest⟩ := Option.bind_eq_some_iff.mp wrote
  have unread : mid.fs.inbuf = state.fs.inbuf := by
    unfold prepareWrite at prepared
    dsimp only at prepared
    split_ifs at prepared
    · obtain ⟨n, -, prepared⟩ := Option.bind_eq_some_iff.mp prepared
      obtain ⟨fs, queued, prepared⟩ := Option.bind_eq_some_iff.mp prepared
      cases prepared
      exact queueProbes_inbuf queued
    all_goals
      cases prepared
      rfl
  dsimp only at rest
  split_ifs at rest
  all_goals
    cases rest
    exact unread

theorem compact_step {state next : Timed} {event : Event} {output : Option (List Act)}
    (compact : Compact state.fs.inbuf) (stepped : step state event = some (next, output)) :
    Compact next.fs.inbuf := by
  cases event with
  | read fuel result => exact handleRead_compact compact (step_read stepped).1
  | write room =>
    obtain ⟨⟨written, after⟩, wrote, same⟩ := Option.map_eq_some_iff.mp stepped
    cases same
    rw [handleWrite_inbuf wrote]
    exact compact
  | getCount fuel results =>
    obtain ⟨⟨count, fs⟩, drained, same⟩ := Option.map_eq_some_iff.mp stepped
    cases same
    unfold fakeswitchGetCount at drained
    split at drained
    · cases drained
    · rename_i inbuf left
      cases drained
      exact drain_compact compact left

/-! ### The stream -/

theorem noted_written (fs : Fakeswitch) (written : Written) :
    (Written.acts fs written).filterMap noted = [] := by
  rw [List.filterMap_eq_nil_iff]
  intro act member
  simp only [Written.acts, List.mem_append, List.mem_map, List.mem_singleton] at member
  rcases member with (⟨_, -, rfl⟩ | ⟨_, -, rfl⟩) | rfl
  all_goals rfl

theorem run_messages {state final : Timed} {events : List Event} {log : List (List Act)}
    (compact : Compact state.fs.inbuf) (plain : ∀ event ∈ events, isGetCount event = false)
    (ran : run step state events = some (final, log)) {messages : List Message}
    {tail : List UInt8} (incomplete : openflow.Incomplete tail)
    (stream : buffered state.fs.inbuf ++ events.flatMap bytesRead =
      (messages.map Message.bytes).flatten ++ tail) :
    (events.flatMap bytesRead = [] →
      log.flatten.filterMap noted = [] ∧ buffered final.fs.inbuf = buffered state.fs.inbuf) ∧
    (events.flatMap bytesRead ≠ [] →
      log.flatten.filterMap noted = messages.map meant ∧ buffered final.fs.inbuf = tail) := by
  induction events generalizing state messages log with
  | nil =>
    cases ran
    exact ⟨fun _ => ⟨rfl, rfl⟩, fun some' => absurd rfl some'⟩
  | cons event events ih =>
    obtain ⟨next, output, rest, stepped, later, rfl⟩ := run_cons ran
    have compact' := compact_step compact stepped
    have plain' : ∀ event ∈ events, isGetCount event = false :=
      fun event member => plain event (List.mem_cons_of_mem _ member)
    rw [List.flatten_append, List.filterMap_append]
    cases event with
    | read fuel result =>
      obtain ⟨returned, rfl⟩ := step_read stepped
      obtain ⟨some', ended⟩ := handleRead_ended returned
      have reads : (Event.read fuel result :: events).flatMap bytesRead =
          result.bytes ++ events.flatMap bytesRead := List.flatMap_cons
      rw [reads, ← List.append_assoc] at stream
      obtain ⟨arrived, ahead, open', parts, content, waits, join⟩ := Layout.exists_cut
        (Message.framed_map _) incomplete stream
      obtain ⟨now, remaining, rfl, rfl, rfl⟩ := List.map_eq_append_iff.mp parts
      obtain ⟨handled, left⟩ := turns_messages now waits
        ((msgbufRead_buffered result compact.ordered).trans content) ended
      obtain ⟨quiet, more⟩ := ih compact' plain' later (left ▸ join)
      refine ⟨fun none => absurd (List.append_eq_nil_iff.mp (reads ▸ none)).1 some', fun _ => ?_⟩
      rw [Option.toList_some, List.flatten_singleton, handled, List.map_append]
      by_cases last : events.flatMap bytesRead = []
      · -- the rest of the stream is all in the buffer, and no message of it is whole
        obtain ⟨rfl, same⟩ := messages_nil waits (by rwa [last, List.append_nil] at join)
        rw [(quiet last).1, (quiet last).2, left, same]
        exact ⟨rfl, rfl⟩
      · rw [(more last).1]
        exact ⟨rfl, (more last).2⟩
    | write room =>
      obtain ⟨⟨written, after⟩, wrote, same⟩ := Option.map_eq_some_iff.mp stepped
      cases same
      rw [Option.toList_some, List.flatten_singleton, noted_written, List.nil_append]
      have unread := handleWrite_inbuf wrote
      rw [← unread] at stream ⊢
      exact ih compact' plain' later stream
    | getCount fuel results => cases plain _ List.mem_cons_self

theorem run_hears {state final : Timed} {events : List Event} {log : List (List Act)}
    (compact : Compact state.fs.inbuf) (plain : ∀ event ∈ events, isGetCount event = false)
    (ran : run step state events = some (final, log)) : Hears state events log := by
  intro messages tail incomplete stream
  obtain ⟨quiet, handled⟩ := run_messages compact plain ran incomplete stream
  split_ifs with none
  · exact (quiet none).1
  · exact (handled none).1

theorem run_hearsStream {start final : Timed} {events : List Event} {log : List (List Act)}
    (compact : Compact start.fs.inbuf) (ran : run step start events = some (final, log)) :
    HearsStream start events log := by
  rintro before stretch rfl plain
  obtain ⟨mid, early, late, first, second, rfl⟩ := run_append ran
  have compact' : Compact mid.fs.inbuf := run_state_invariant
    (fun state : Timed => Compact state.fs.inbuf) compact_step compact first
  exact ⟨mid, early, late, first, rfl, run_hears compact' plain second⟩

end Oflops.Cbench.Hearing
