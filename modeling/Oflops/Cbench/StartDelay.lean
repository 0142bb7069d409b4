import Oflops.Cbench.Session

/-! The start delay of cbench (option `-D`). The end of the delay is computed by adding to the
seconds and to the microseconds separately, without a carry, and compared field by field. -/

namespace Oflops.Cbench.StartDelay
open Lib.Loop Lib.Machine Stream.Buffer Time Protocol Switch HandleRead Session

def latestAfter (request : Option Request) : Act → Option Request
  | .handled next => if next.type = .featuresRequest then some next else request
  | _ => request

def latest (acts : List Act) : Option Request := acts.foldl latestAfter none

theorem latest_append (acts : List Act) (act : Act) :
    latest (acts ++ [act]) = latestAfter (latest acts) act := by
  rw [latest, List.foldl_append, List.foldl_cons, List.foldl_nil, latest]

/-- At the reading `now` the switch finds the delay that began with `request` to be over. -/
def Starts (acts : List Act) (request : Request) (now : Timeval) : Prop :=
  ∃ before after, acts = before ++ .started now :: after ∧ latest before = some request

/-- A switch that waits, waits for the end of the delay of the latest features request, and
whenever it has stopped waiting, that end was past. -/
structure Waits (delay : Int) (fs : Fakeswitch) (acts : List Act) : Prop where
  fixed : fs.delay = delay
  waiting : fs.readyToSend = 2 →
    ∃ request, latest acts = some request ∧ fs.delayStart = delayEnd request.now delay
  waited : ∀ {request now}, Starts acts request now → delayEnd request.now delay < now

theorem starts_append {acts : List Act} {act : Act} {request : Request} {now : Timeval}
    (starts : Starts (acts ++ [act]) request now) :
    Starts acts request now ∨ act = .started now ∧ latest acts = some request := by
  obtain ⟨before, after, split, last⟩ := starts
  rcases concat_split split with ⟨rfl, rfl⟩ | ⟨rest, old⟩
  · exact Or.inr ⟨rfl, last⟩
  · exact Or.inl ⟨before, rest, old, last⟩

theorem Waits.frame {delay : Int} {fs next : Fakeswitch} {acts : List Act} {act : Act}
    (waits : Waits delay fs acts) (quiet : ∀ request, latestAfter request act = request)
    (unstarted : ∀ now, act ≠ .started now) (fixed : next.delay = fs.delay)
    (readyToSend : next.readyToSend = fs.readyToSend)
    (delayStart : next.delayStart = fs.delayStart) : Waits delay next (acts ++ [act]) := by
  refine ⟨fixed.trans waits.fixed, ?_, ?_⟩
  · rw [readyToSend, delayStart, latest_append, quiet]
    exact waits.waiting
  · intro request now starts
    rcases starts_append starts with before | ⟨rfl, -⟩
    · exact waits.waited before
    · exact absurd rfl (unstarted now)

theorem Waits.serve {delay : Int} {fs next : Fakeswitch} {acts : List Act} {request : Request}
    (waits : Waits delay fs acts) (served : Served fs request next) :
    Waits delay next (acts ++ [.handled request]) := by
  by_cases features : request.type = .featuresRequest
  · have readyToSend := served.readyToSend
    have delayStart := served.delayStart
    rw [if_pos features] at readyToSend
    refine ⟨served.delay.trans waits.fixed, ?_, ?_⟩
    · intro waiting
      have delayed : fs.delay ≠ 0 := by
        intro immediate
        rw [readyToSend, if_pos immediate] at waiting
        cases waiting
      refine ⟨request, ?_, ?_⟩
      · rw [latest_append, latestAfter, if_pos features]
      · rw [delayStart, if_pos ⟨features, delayed⟩, waits.fixed]
    · intro earlier now starts
      rcases starts_append starts with before | ⟨same, -⟩
      · exact waits.waited before
      · cases same
  · have readyToSend := served.readyToSend
    have delayStart := served.delayStart
    rw [if_neg features] at readyToSend
    rw [if_neg (fun both => features both.1)] at delayStart
    apply waits.frame _ _ served.delay readyToSend delayStart
    · intro earlier
      exact if_neg features
    · intro now same
      cases same

theorem waits_keeps (delay : Int) : Keeps (Waits delay) where
  inbuf := by
    intro fs acts inbuf waits
    exact ⟨waits.fixed, waits.waiting, waits.waited⟩
  served := by
    intro fs acts request next waits served
    exact waits.serve served
  queued := by
    intro fs acts n next waits _ _ queued
    refine queueProbes_acts (Waits delay) ?_ waits queued
    intro fs acts next waits one
    apply waits.frame (fun _ => rfl) (fun _ => Act.noConfusion)
    all_goals rw [queueProbe_eq one]
  started := by
    intro fs acts now waits waiting past
    refine ⟨waits.fixed, fun ready => absurd ready (show (1 : Int) ≠ 2 by decide), ?_⟩
    intro request reading starts
    rcases starts_append starts with before | ⟨same, last⟩
    · exact waits.waited before
    · cases same
      obtain ⟨found, isLatest, deadline⟩ := waits.waiting waiting
      cases isLatest.symm.trans last
      exact deadline ▸ past
  flushed := by
    intro fs acts sent outbuf waits _
    exact waits.frame (fun _ => rfl) (fun _ => Act.noConfusion) rfl rfl rfl
  counted := by
    intro fs acts waits
    exact waits.frame (fun _ => rfl) (fun _ => Act.noConfusion) rfl rfl rfl

/-- In every run the delay counted from `t` is over before the switch starts. -/
def Honoured (delay : Int) (t : Timeval) : Prop :=
  ∀ (id : Int) (bufsize : Nat) (positive : 0 < bufsize) (mode : TestMode) (totalMacAddresses : Int)
    (delayStart : Timeval) (buffer : Nat → UInt8) (clock : Nat → Timeval) (events : List Event)
    (final : Timed) (log : List (List Act)),
    run step
      ⟨fakeswitchInit id bufsize positive delay mode totalMacAddresses delayStart buffer, clock⟩
      events = some (final, log) →
    ∀ request now, Starts log.flatten request now → request.now = t → now.Normalized →
      t.micros + delay * 1000 < now.micros

theorem delayEnd_micros (t : Timeval) (delay : Int) :
    (delayEnd t delay).micros = t.micros + delay * 1000 := by
  have parts := Int.mul_tdiv_add_tmod delay 1000
  unfold delayEnd Timeval.micros
  dsimp only
  omega

def featuresRequest : Message := ⟨[1, 5, 0, 8, 0, 0, 0, 0], ⟨by decide, by decide⟩, by decide⟩

theorem dispatch_clock (state : Timed) (ofph : Nat)
    (features : OfpType.ofByte (state.fs.inbuf.buf (ofph + 1)) = .featuresRequest)
    (delayed : state.fs.delay ≠ 0) :
    (clampProbes (dispatch state ofph)).clock = fun n => state.clock (n + 1) := by
  rw [clampProbes_eq]
  unfold dispatch
  simp only [features, if_neg delayed]

theorem read_features (start : Timed) (ordered : start.fs.inbuf.start ≤ start.fs.inbuf.stop)
    (empty : buffered start.fs.inbuf = []) (delayed : start.fs.delay ≠ 0) :
    ∃ mid request,
      step start (.read 2 (.data featuresRequest.bytes)) = some (mid, some [.handled request]) ∧
      request.type = .featuresRequest ∧ request.now = start.clock 0 ∧ mid.fs.readyToSend = 2 ∧
      mid.fs.delayStart = delayEnd (start.clock 0) start.fs.delay ∧
      mid.clock 0 = start.clock 1 := by
  let arrived := received start (.data featuresRequest.bytes)
  have content : buffered arrived.fs.inbuf = featuresRequest.bytes ++ [] := by
    rw [List.append_nil]
    exact (msgbufRead_buffered _ ordered).trans (by rw [empty]; rfl)
  have features : (requestOf arrived).type = .featuresRequest := (requestOf_front content).1
  let mid := clampProbes (dispatch
    (withInbuf arrived (advance arrived.fs.inbuf featuresRequest.bytes.length))
    arrived.fs.inbuf.start)
  have went : handleMessage arrived = some (.again mid) := handleMessage_front content
  have left : handleMessage mid = some (.leave mid) := by
    apply handleMessage_incomplete
    rw [(dispatch_frame _ _).1]
    exact (advance_front content).2.symm ▸ Or.inl (by decide)
  have served : Served arrived.fs (requestOf arrived) mid.fs := handleMessage_again went
  refine ⟨mid, requestOf arrived, ?_, features, rfl, ?_, ?_, ?_⟩
  · have returned : fakeswitchHandleRead 2 start (.data featuresRequest.bytes) =
        some (.ok mid) := by
      rw [handleRead_received 2 start (by decide), loop_again went, loop_leave left,
        Option.map_some]
    simp only [step, returned]
    rw [turns_again went, turns_leave left]
    rfl
  · rw [served.readyToSend, if_pos features]
    exact if_neg delayed
  · rw [served.delayStart]
    exact if_pos ⟨features, delayed⟩
  · have pulled : (withInbuf arrived
        (advance arrived.fs.inbuf featuresRequest.bytes.length)).fs.inbuf.buf =
        arrived.fs.inbuf.buf := advance_buf _ _
    have shifted := dispatch_clock (withInbuf arrived (advance arrived.fs.inbuf
      featuresRequest.bytes.length)) arrived.fs.inbuf.start (by rw [pulled]; exact features) delayed
    exact congrFun shifted 0

theorem write_starts {state : Timed} (waiting : state.fs.readyToSend = 2)
    (past : state.fs.delayStart < state.clock 0) (room : Int) :
    ∃ sent final,
      step state (.write room) = some (final, some [.started (state.clock 0), .sent sent]) := by
  have prepared : prepareWrite state = some (0, some (state.clock 0),
      ⟨{ state.fs with readyToSend := 1 }, fun n => state.clock (n + 1)⟩) := by
    unfold prepareWrite
    rw [if_neg (by rw [waiting]; decide), if_pos waiting]
    exact if_pos ((timercmp_gt _ _).mpr past)
  unfold step fakeswitchHandleWrite
  simp only [prepared, Option.bind_eq_bind, Option.bind_some]
  split_ifs
  · exact ⟨_, _, rfl⟩
  · exact ⟨_, _, rfl⟩

theorem run_starts (delay : Int) (delayed : delay ≠ 0) (clock : Nat → Timeval)
    (past : delayEnd (clock 0) delay < clock 1) :
    ∃ final log request,
      run step ⟨fakeswitchInit 1 16 (by decide) delay .latency 1 ⟨0, 0⟩ (fun _ => 0), clock⟩
        [.read 2 (.data featuresRequest.bytes), .write 0] = some (final, log) ∧
      Starts log.flatten request (clock 1) ∧ request.now = clock 0 := by
  let start : Timed := ⟨fakeswitchInit 1 16 (by decide) delay .latency 1 ⟨0, 0⟩ (fun _ => 0), clock⟩
  obtain ⟨mid, request, read, features, reading, waiting, deadline, next⟩ :=
    read_features start (Nat.le_refl 0) rfl delayed
  obtain ⟨sent, final, wrote⟩ := write_starts waiting (by rw [deadline, next]; exact past) 0
  refine ⟨final, _, request, run_of_step read (run_of_step wrote rfl), ?_, reading⟩
  exact ⟨[.handled request], [.sent sent], next ▸ rfl, if_pos features⟩

theorem delayEnd_normalized {t : Timeval} (normal : t.Normalized) {delay : Int}
    (positive : 0 < delay) (short : t.tvUsec + delay % 1000 * 1000 < 1000000) :
    (delayEnd t delay).Normalized := by
  unfold Timeval.Normalized delayEnd at *
  dsimp only
  rw [Int.tmod_eq_emod_of_nonneg positive.le]
  omega

/-- The delay is honoured exactly when its fraction of a second and that of the arrival time
add up to less than a second. -/
theorem start_delay_honoured_iff (delay : Int) (positive : 0 < delay) (t : Timeval)
    (normal : t.Normalized) : Honoured delay t ↔ t.tvUsec + delay % 1000 * 1000 < 1000000 := by
  constructor
  · intro honoured
    by_contra long
    -- the very beginning of the second after the one that the computed end lies in
    let late : Timeval := ⟨t.tvSec + delay.tdiv 1000 + 1, 0⟩
    have past : delayEnd t delay < late :=
      (Timeval.lt_def _ _).mpr (Or.inl (Int.lt_add_one_of_le le_rfl))
    obtain ⟨final, log, request, ran, starts, reading⟩ :=
      run_starts delay positive.ne' (fun n => if n = 0 then t else late) past
    have early := honoured _ _ _ _ _ _ _ _ _ _ _ ran request late starts reading
      ⟨le_rfl, show (0 : Int) < 1000000 by decide⟩
    have parts := Int.mul_tdiv_add_tmod delay 1000
    rw [Int.tmod_eq_emod_of_nonneg positive.le] at parts
    unfold Timeval.micros at early
    dsimp only [late] at early
    omega
  · intro short id bufsize room mode totalMacAddresses delayStart buffer clock events final log ran
      request now starts reading normalNow
    have waits : Waits delay final.fs log.flatten := by
      refine (waits_keeps delay).run ⟨rfl,
        fun waiting => absurd waiting (show (0 : Int) ≠ 2 by decide), ?_⟩ ran
      rintro request now ⟨before, after, split, -⟩
      cases before <;> cases split
    have past := waits.waited starts
    rw [reading, Timeval.lt_iff_micros_lt (delayEnd_normalized normal positive short) normalNow,
      delayEnd_micros] at past
    exact past

/-- A tenth of a second after the arrival at half past. -/
theorem start_delay_honoured_iff_tenth :
    (0 : Int) < 100 ∧ (⟨7, 500000⟩ : Timeval).Normalized ∧
      (Honoured 100 ⟨7, 500000⟩ ↔ (500000 : Int) + 100 % 1000 * 1000 < 1000000) :=
  ⟨by decide, by decide, start_delay_honoured_iff 100 (by decide) ⟨7, 500000⟩ (by decide)⟩

/-- With a delay of 999 ms from the last microsecond of a second, the switch starts in the next
microsecond, 998.999 ms too early. -/
theorem switch_starts_early :
    ∃ final log request,
      run step ⟨fakeswitchInit 1 16 (by decide) 999 .latency 1 ⟨0, 0⟩ (fun _ => 0),
          fun n => if n = 0 then ⟨7, 999999⟩ else ⟨8, 0⟩⟩
        [.read 2 (.data featuresRequest.bytes), .write 0] = some (final, log) ∧
      Starts log.flatten request ⟨8, 0⟩ ∧ request.now = ⟨7, 999999⟩ ∧
      (⟨8, 0⟩ : Timeval).micros + 998999 = (⟨7, 999999⟩ : Timeval).micros + 999 * 1000 := by
  obtain ⟨final, log, request, ran, starts, reading⟩ :=
    run_starts 999 (by decide) (fun n => if n = 0 then ⟨7, 999999⟩ else ⟨8, 0⟩) (by decide)
  exact ⟨final, log, request, ran, starts, reading, by decide⟩

end Oflops.Cbench.StartDelay
