import Oflops.Cbench.Probes
import Oflops.Cbench.Results
import Oflops.Lib.FloatRounding

/-! The tests of cbench: `run_test` polls all switches until the time of the test is over and asks
each of them for its count, and `main` runs it with more and more switches. What `poll` and the
system calls return is given, for every turn and every switch. -/

namespace Oflops.Cbench.RunTest
open Lib.Machine Lib.MachineInt Lib.FloatRounding Stream.Buffer Time Protocol Switch Session
open Hearing Probes

def forEach {α β γ : Type} (act : α → β → Option γ) : List α → List β → Option (List γ)
  | [], [] => some []
  | a :: as, b :: bs => do
    let c ← act a b
    let cs ← forEach act as bs
    some (c :: cs)
  | _, _ => none

/-- A switch in a test: the bytes that its input buffer held when the test began, those that it
has read since, and what its handlers have done. -/
structure Tested where
  switch : Timed
  held : List UInt8
  received : List UInt8
  acts : List Act

def Tested.begin (switch : Timed) : Tested := ⟨switch, buffered switch.fs.inbuf, [], []⟩

/-- Which of `POLLIN` and `POLLOUT` a switch has in `revents`, with what its handlers get. -/
structure Io where
  pollin : Option (Nat × ReadResult)
  pollout : Option Int

def Io.calls (io : Io) : List Event :=
  (io.pollin.map fun (fuel, result) => Event.read fuel result).toList ++
    (io.pollout.map Event.write).toList

def fakeswitchHandleIo (io : Io) (tested : Tested) : Option Tested := do
  let (switch, log) ← run step tested.switch io.calls
  some ⟨switch, tested.held, tested.received ++ io.calls.flatMap bytesRead,
    tested.acts ++ log.flatten⟩

/-- What one turn of the loop of `run_test` gets: the time, and what happens to each switch. -/
structure Turn where
  now : Timeval
  ios : List Io

/-- `diff` is compared with the time to wait in single precision. -/
def overdue (diff : Timeval) (totalWait : Int) : Prop :=
  roundSigned 24 totalWait <
    roundSigned 24 (roundSigned 24 (1000 * diff.tvSec) + roundSigned 24 (diff.tvUsec / 1000))

instance (diff : Timeval) (totalWait : Int) : Decidable (overdue diff totalWait) :=
  inferInstanceAs (Decidable (_ < _))

/-- The loop of `run_test`, on as many turns as are given. -/
def testLoop (totalWait : Int) (then_ : Timeval) :
    List Turn → List Tested → Option (Timeval × List Tested)
  | [], _ => none
  | turn :: turns, switches =>
    let diff := timersub turn.now then_
    if overdue diff totalWait then some (diff, switches)
    else (forEach fakeswitchHandleIo turn.ios switches).bind (testLoop totalWait then_ turns)

structure Drain where
  fuel : Nat
  results : List ReadResult

def getCount (reads : Drain) (tested : Tested) : Option (Int × Tested) := do
  let (count, fs) ← fakeswitchGetCount reads.fuel tested.switch.fs reads.results
  some (count, { tested with switch := { tested.switch with fs } })

structure Input where
  then_ : Timeval
  turns : List Turn
  drains : List Drain

/-- The counts that a test prints and its result, with the switches as the polling left them. -/
structure Report where
  counts : List Int
  rate : ℚ
  polled : List Tested

def runTest (mstestlen delay : Int) (input : Input) (switches : List Timed) :
    Option (Report × List Timed) := do
  let totalWait ← checkedInt (mstestlen + delay)
  let (diff, polled) ← testLoop totalWait input.then_ input.turns (switches.map Tested.begin)
  let counted ← forEach getCount input.drains polled
  let counts := counted.map Prod.fst
  let passed : ℚ := 1000 * diff.tvSec + diff.tvUsec / 1000 - delay
  some (⟨counts, (counts.sum : ℚ) / passed, polled⟩, counted.map (·.2.switch))

/-- The loop over the tests with one number of switches; the first test alone is delayed. -/
def runTests (mstestlen : Int) (inputs : Nat → Input) :
    List Nat → Int → List Timed → Option (List Report × Int × List Timed)
  | [], delay, switches => some ([], delay, switches)
  | j :: tests, delay, switches => do
    let delay := if j > 0 then 0 else delay
    let (report, switches) ← runTest mstestlen delay (inputs j) switches
    let (reports, rest) ← runTests mstestlen inputs tests delay switches
    some (report :: reports, rest)

structure Fresh where
  delayStart : Timeval
  buffer : Nat → UInt8
  clock : Nat → Timeval

/-- The options that do not take part in the choice of the tests. -/
structure Options where
  mstestlen : Int
  delay : Int
  mode : TestMode
  totalMacAddresses : Int

def newSwitch (options : Options) (delay : Int) (i : Nat) (fresh : Fresh) : Timed :=
  ⟨fakeswitchInit (i + 1) 65536 (Nat.succ_pos 65535) delay options.mode options.totalMacAddresses
    fresh.delayStart fresh.buffer, fresh.clock⟩

/-- The loop of `main`: a new switch is connected, then the tests are run with all of them. The
option `delay` is the variable that the tests set to zero. -/
def mainLoop (config : Results.Config) (options : Options) (fresh : Nat → Fresh)
    (inputs : Nat → Nat → Input) :
    List Nat → Int → List Timed → Option (List Report)
  | [], _, _ => some []
  | i :: rest, delay, switches =>
    let switches := switches ++ [newSwitch options delay i (fresh i)]
    if Results.tested config i then do
      let (reports, delay, switches) ←
        runTests options.mstestlen (inputs i) (List.range config.testsPerLoop.toNat) delay switches
      let later ← mainLoop config options fresh inputs rest delay switches
      some (reports ++ later)
    else mainLoop config options fresh inputs rest delay switches

def main (config : Results.Config) (options : Options) (fresh : Nat → Fresh)
    (inputs : Nat → Nat → Input) : Option (List Report) :=
  mainLoop config options fresh inputs (List.range config.nFakeswitches.toNat) options.delay []

/-! One test. -/

theorem forEach_cons {α β γ : Type} {act : α → β → Option γ} {as : List α} {b : β} {bs : List β}
    {made : List γ} (done : forEach act as (b :: bs) = some made) :
    ∃ a rest c cs, as = a :: rest ∧ act a b = some c ∧ forEach act rest bs = some cs ∧
      made = c :: cs := by
  cases as with
  | nil => cases done
  | cons a rest =>
    obtain ⟨c, first, done⟩ := Option.bind_eq_some_iff.mp done
    obtain ⟨cs, others, done⟩ := Option.bind_eq_some_iff.mp done
    cases done
    exact ⟨a, rest, c, cs, rfl, first, others, rfl⟩

theorem forEach_forall₂ {α β γ : Type} {act : α → β → Option γ} (R : β → γ → Prop)
    (one : ∀ {a b c}, act a b = some c → R b c) {as : List α} {bs : List β} {made : List γ}
    (done : forEach act as bs = some made) : List.Forall₂ R bs made := by
  induction bs generalizing as made with
  | nil =>
    cases as with
    | nil =>
      cases done
      exact .nil
    | cons => cases done
  | cons b bs ih =>
    obtain ⟨a, rest, c, cs, rfl, first, others, rfl⟩ := forEach_cons done
    exact .cons (one first) (ih others)

theorem forall₂_given {β γ : Type} {P : β → Prop} {R : β → γ → Prop} {bs : List β} {cs : List γ}
    (each : List.Forall₂ (fun b c => P b → R b c) bs cs) (all : ∀ b ∈ bs, P b) :
    List.Forall₂ R bs cs :=
  ((List.forall₂_and_left bs cs).mpr ⟨all, each⟩).imp (fun _ _ both => both.2 both.1)

theorem forall_right {β γ : Type} {Q : γ → Prop} {bs : List β} {cs : List γ}
    (each : List.Forall₂ (fun _ c => Q c) bs cs) : ∀ c ∈ cs, Q c := by
  have both : List.Forall₂ (fun c (_ : β) => Q c ∧ True) cs bs :=
    each.flip.imp (fun _ _ holds => ⟨holds, trivial⟩)
  exact ((List.forall₂_and_left cs bs).mp both).1

/-- Until it is asked for, the count of a switch is the number of responses handled. -/
def Counts (fs : Fakeswitch) (acts : List Act) : Prop :=
  .counted ∉ acts → fs.count = responsesHandled acts

theorem responsesHandled_append (acts more : List Act) :
    responsesHandled (acts ++ more) = responsesHandled acts + responsesHandled more :=
  List.countP_append

theorem Counts.frame {fs next : Fakeswitch} {acts more : List Act} (counts : Counts fs acts)
    (quiet : responsesHandled more = 0) (count : next.count = fs.count) :
    Counts next (acts ++ more) := by
  intro unasked
  have before : Act.counted ∉ acts := fun asked => unasked (List.mem_append_left _ asked)
  rw [count, counts before, responsesHandled_append, quiet, Nat.add_zero]

theorem counts_keeps : Keeps Counts where
  inbuf inbuf counts := counts
  served := by
    intro fs acts request next counts served unasked
    have before : Act.counted ∉ acts := fun asked => unasked (List.mem_append_left _ asked)
    rw [served.count, counts before, responsesHandled_append]
    have single : responsesHandled [.handled request] = if request.response then 1 else 0 :=
      List.countP_singleton
    rw [single]
    cases request.response with
    | true => rfl
    | false => rfl
  queued := by
    intro fs acts n next counts _ _ queued
    refine queueProbes_acts Counts ?_ counts queued
    intro fs acts next counts queued
    refine counts.frame rfl ?_
    rw [queueProbe_eq queued]
  started counts _ _ := counts.frame rfl rfl
  flushed counts _ := counts.frame rfl rfl
  counted := by
    intro fs acts _ unasked
    exact absurd (List.mem_append_right _ (List.mem_singleton.mpr rfl)) unasked

theorem step_unasked {state next : Timed} {event : Event} {output : Option (List Act)}
    (plain : isGetCount event = false) (stepped : step state event = some (next, output)) :
    .counted ∉ output.toList.flatten := by
  cases event with
  | read fuel result =>
    obtain ⟨-, rfl⟩ := step_read stepped
    simp
  | write room =>
    obtain ⟨⟨written, after⟩, -, same⟩ := Option.map_eq_some_iff.mp stepped
    cases same
    simp [Written.acts]
  | getCount fuel results => cases plain

theorem run_unasked {state final : Timed} {events : List Event} {log : List (List Act)}
    (plain : ∀ event ∈ events, isGetCount event = false)
    (ran : run step state events = some (final, log)) : .counted ∉ log.flatten := by
  induction events generalizing state log with
  | nil =>
    cases ran
    exact List.not_mem_nil
  | cons event events ih =>
    obtain ⟨next, output, rest, stepped, later, rfl⟩ := run_cons ran
    rw [List.flatten_append, List.mem_append, not_or]
    exact ⟨step_unasked (plain event List.mem_cons_self) stepped,
      ih (fun event member => plain event (List.mem_cons_of_mem _ member)) later⟩

structure Idle (switch : Timed) : Prop where
  count : switch.fs.count = 0
  compact : Compact switch.fs.inbuf

structure Played (tested : Tested) (start : Timed) (events : List Event) (log : List (List Act)) :
    Prop where
  idle : Idle start
  plain : ∀ event ∈ events, isGetCount event = false
  ran : run step start events = some (tested.switch, log)
  held : tested.held = buffered start.fs.inbuf
  received : tested.received = events.flatMap bytesRead
  acts : tested.acts = log.flatten

/-- A switch that a test began with when it was idle, and that was polled since. -/
def Polled (tested : Tested) : Prop := ∃ start events log, Played tested start events log

theorem Io.calls_plain (io : Io) : ∀ event ∈ io.calls, isGetCount event = false := by
  intro event member
  rcases List.mem_append.mp member with read | write
  · obtain ⟨input, -, rfl⟩ := Option.map_eq_some_iff.mp (Option.mem_toList.mp read)
    rfl
  · obtain ⟨room, -, rfl⟩ := Option.map_eq_some_iff.mp (Option.mem_toList.mp write)
    rfl

theorem fakeswitchHandleIo_polled {io : Io} {tested next : Tested} (polled : Polled tested)
    (handled : fakeswitchHandleIo io tested = some next) : Polled next := by
  obtain ⟨start, events, log, played⟩ := polled
  obtain ⟨⟨switch, more⟩, ran, handled⟩ := Option.bind_eq_some_iff.mp handled
  cases handled
  refine ⟨start, events ++ io.calls, log ++ more, played.idle, ?_, run_trans played.ran ran,
    played.held, ?_, ?_⟩
  · exact List.forall_mem_append.mpr ⟨played.plain, io.calls_plain⟩
  · rw [List.flatMap_append, ← played.received]
  · rw [List.flatten_append, ← played.acts]

theorem testLoop_polled {totalWait : Int} {then_ diff : Timeval} {turns : List Turn}
    {switches final : List Tested} (polled : ∀ tested ∈ switches, Polled tested)
    (looped : testLoop totalWait then_ turns switches = some (diff, final)) :
    (∀ tested ∈ final, Polled tested) ∧ final.length = switches.length ∧
      overdue diff totalWait ∧ ∃ turn ∈ turns, diff = timersub turn.now then_ := by
  induction turns generalizing switches with
  | nil => cases looped
  | cons turn turns ih =>
    rw [testLoop] at looped
    split_ifs at looped with over'
    · cases looped
      exact ⟨polled, rfl, over', turn, List.mem_cons_self, rfl⟩
    · obtain ⟨next, handled, looped⟩ := Option.bind_eq_some_iff.mp looped
      have each := forEach_forall₂ (fun before after => Polled before → Polled after)
        (fun handled polled => fakeswitchHandleIo_polled polled handled) handled
      obtain ⟨all, length, over', turn', member, same⟩ :=
        ih (forall_right (forall₂_given each polled)) looped
      exact ⟨all, length.trans each.length_eq.symm, over', turn', List.mem_cons_of_mem _ member,
        same⟩

theorem getCount_eq {reads : Drain} {tested : Tested} {result : Int × Tested}
    (compact : Compact tested.switch.fs.inbuf) (asked : getCount reads tested = some result) :
    result.1 = tested.switch.fs.count ∧ Idle result.2.switch := by
  obtain ⟨⟨count, fs⟩, got, asked⟩ := Option.bind_eq_some_iff.mp asked
  cases asked
  unfold fakeswitchGetCount at got
  split at got
  · cases got
  · rename_i inbuf drained
    cases got
    exact ⟨rfl, rfl, drain_compact compact drained⟩

theorem Played.count {tested : Tested} {start : Timed} {events : List Event}
    {log : List (List Act)} (played : Played tested start events log) :
    tested.switch.fs.count = responsesHandled tested.acts := by
  rw [played.acts]
  exact counts_keeps.run (fun _ => played.idle.count) played.ran
    (run_unasked played.plain played.ran)

theorem Played.compact {tested : Tested} {start : Timed} {events : List Event}
    {log : List (List Act)} (played : Played tested start events log) :
    Compact tested.switch.fs.inbuf :=
  run_state_invariant (fun state : Timed => Compact state.fs.inbuf) compact_step
    played.idle.compact played.ran

theorem responsesHandled_noted (acts : List Act) :
    responsesHandled acts = (acts.filterMap noted).countP fun message => message.2.2 := by
  rw [List.countP_filterMap]
  apply List.countP_congr
  intro act _
  cases act <;> simp [isResponse, noted]

/-- The responses among the messages that were in the buffer of the switch or came in, as soon as
anything came in at all. -/
def CountsStream (tested : Tested) : Prop :=
  ∀ (messages : List Message) (tail : List UInt8), openflow.Incomplete tail →
    tested.held ++ tested.received = (messages.map Message.bytes).flatten ++ tail →
    responsesHandled tested.acts = if tested.received = [] then 0 else messages.countP responds

theorem Played.countsStream {tested : Tested} {start : Timed} {events : List Event}
    {log : List (List Act)} (played : Played tested start events log) : CountsStream tested := by
  intro messages tail incomplete stream
  rw [played.held, played.received] at stream
  have handled := run_hears played.idle.compact played.plain played.ran messages tail
    incomplete stream
  rw [responsesHandled_noted, played.acts, handled, played.received]
  split_ifs
  · rfl
  · rw [List.countP_map]
    rfl

def elapsed (diff : Timeval) : ℚ := 1000 * diff.tvSec + diff.tvUsec / 1000

/-- Single precision does not end a test early: whole milliseconds below `2 ^ 24` are exact, and
rounding does not pass them. -/
theorem lt_elapsed {diff : Timeval} {totalWait : Int} (normalized : diff.Normalized)
    (nonneg : 0 ≤ totalWait) (short : totalWait < 2 ^ 24) (late : overdue diff totalWait) :
    totalWait < elapsed diff := by
  obtain ⟨wait, rfl⟩ := Int.eq_ofNat_of_zero_le nonneg
  have few : wait < 2 ^ 24 := by exact_mod_cast short
  by_contra early
  have inTime : elapsed diff ≤ wait := Rat.not_lt.mp early
  obtain ⟨low, high⟩ := normalized
  have fraction : (0 : ℚ) ≤ diff.tvUsec / 1000 := div_nonneg (Int.cast_nonneg low) (by norm_num)
  have second : (diff.tvUsec : ℚ) / 1000 ≤ 1000 := by
    rw [div_le_iff₀ (by norm_num)]
    exact_mod_cast (show diff.tvUsec ≤ 1000 * 1000 by omega)
  apply Rat.not_le.mpr late
  change _ ≤ roundSigned 24 ((wait : ℕ) : ℚ)
  rw [roundSigned_natCast (by decide) few]
  apply roundSigned_le (Nat.cast_nonneg wait) (representable_natCast few)
  rcases le_or_gt 0 diff.tvSec with forward | backward
  · obtain ⟨sec, same⟩ := Int.eq_ofNat_of_zero_le forward
    unfold elapsed at inTime
    rw [same] at inTime ⊢
    push_cast at inTime ⊢
    have whole : 1000 * sec ≤ wait := by
      have bound : (1000 * sec : ℚ) ≤ wait := by linarith
      exact_mod_cast bound
    have rest : (diff.tvUsec : ℚ) / 1000 ≤ ((wait - 1000 * sec : ℕ) : ℚ) := by
      rw [Nat.cast_sub whole]
      push_cast
      linarith
    have exact' : roundSigned 24 (1000 * (sec : ℚ)) = 1000 * sec := by
      have rounded := roundSigned_natCast (p := 24) (n := 1000 * sec) (by decide) (by omega)
      exact_mod_cast rounded
    have part := roundSigned_le (p := 24) (Nat.cast_nonneg _)
      (representable_natCast (by omega)) rest
    rw [Nat.cast_sub whole] at part
    push_cast at part
    rw [exact']
    linarith
  · have thousand : Representable 24 (1000 : ℚ) := representable_natCast (n := 1000) (by decide)
    have sec : (1000 * diff.tvSec : ℚ) ≤ -1000 := by
      exact_mod_cast (show 1000 * diff.tvSec ≤ -1000 by omega)
    have whole := roundSigned_neg_le (p := 24) (by norm_num) (by decide) thousand sec
    have part := roundSigned_le (p := 24) (by norm_num) thousand second
    have zero : (0 : ℚ) ≤ wait := Nat.cast_nonneg wait
    linarith

def Input.Normalized (input : Input) : Prop :=
  input.then_.Normalized ∧ ∀ turn ∈ input.turns, turn.now.Normalized

/-- What a test with a number of switches reports: for each of them the responses that its handlers
dealt with in the test, which are those of the stream, and their number over a time that is longer
than the test was to be. -/
structure Sound (mstestlen : Int) (switches : Nat) (report : Report) : Prop where
  length : report.counts.length = switches
  counts : report.counts = report.polled.map fun tested => (responsesHandled tested.acts : Int)
  stream : ∀ tested ∈ report.polled, CountsStream tested
  rate : ∃ passed : ℚ, mstestlen < passed ∧ report.rate = (report.counts.sum : ℚ) / passed

theorem runTest_sound {mstestlen delay : Int} {input : Input} {switches after : List Timed}
    {report : Report} (nonneg : 0 ≤ mstestlen + delay) (short : mstestlen + delay < 2 ^ 24)
    (clock : input.Normalized) (idle : ∀ switch ∈ switches, Idle switch)
    (ran : runTest mstestlen delay input switches = some (report, after)) :
    Sound mstestlen switches.length report ∧ after.length = switches.length ∧
      ∀ switch ∈ after, Idle switch := by
  obtain ⟨totalWait, checked, ran⟩ := Option.bind_eq_some_iff.mp ran
  obtain ⟨⟨diff, polled⟩, looped, ran⟩ := Option.bind_eq_some_iff.mp ran
  obtain ⟨counted, asked, ran⟩ := Option.bind_eq_some_iff.mp ran
  cases ran
  obtain ⟨-, rfl⟩ := checkedInt_eq_some.mp checked
  have fresh : ∀ tested ∈ switches.map Tested.begin, Polled tested := by
    intro tested member
    obtain ⟨switch, inside, rfl⟩ := List.mem_map.mp member
    exact ⟨switch, [], [], idle switch inside, nofun, rfl, rfl, rfl, rfl⟩
  obtain ⟨all, length, late, turn, member, rfl⟩ := testLoop_polled fresh looped
  rw [List.length_map] at length
  have each := forEach_forall₂
    (fun (tested : Tested) (result : Int × Tested) =>
      Polled tested → result.1 = responsesHandled tested.acts ∧ Idle result.2.switch)
    (fun asked polled => by
      obtain ⟨start, events, log, played⟩ := polled
      obtain ⟨count, idle⟩ := getCount_eq played.compact asked
      exact ⟨count.trans played.count, idle⟩) asked
  have pairs := forall₂_given each all
  have same := pairs.length_eq
  refine ⟨⟨?_, ?_, ?_, ?_⟩, ?_, ?_⟩
  · rw [List.length_map, ← same, length]
  · rw [← List.forall₂_eq_eq_eq, List.forall₂_map_left_iff, List.forall₂_map_right_iff]
    exact pairs.flip.imp (fun _ _ both => both.1)
  · intro tested inside
    obtain ⟨start, events, log, played⟩ := all tested inside
    exact played.countsStream
  · refine ⟨elapsed (timersub turn.now input.then_) - delay, ?_, rfl⟩
    have normalized := timersub_normalized (clock.2 turn member) clock.1
    have passed := lt_elapsed normalized nonneg short late
    push_cast at passed
    linarith
  · rw [List.length_map, ← same, length]
  · intro switch member
    obtain ⟨result, inside, rfl⟩ := List.mem_map.mp member
    exact forall_right (pairs.imp (fun _ _ both => both.2)) result inside

/-! All tests. -/

structure Options.Sensible (options : Options) : Prop where
  mstestlen : 0 ≤ options.mstestlen
  delay : 0 ≤ options.delay
  short : options.mstestlen + options.delay < 2 ^ 24

section
variable {options : Options} (sensible : options.Sensible)
include sensible

theorem runTests_sound {inputs : Nat → Input} (clock : ∀ j, (inputs j).Normalized)
    {tests : List Nat} {delay delay' : Int} (begun : 0 ≤ delay) (most : delay ≤ options.delay)
    {switches after : List Timed} (idle : ∀ switch ∈ switches, Idle switch) {reports : List Report}
    (ran : runTests options.mstestlen inputs tests delay switches = some (reports, delay', after)) :
    (∀ report ∈ reports, Sound options.mstestlen switches.length report) ∧ 0 ≤ delay' ∧
      delay' ≤ options.delay ∧ after.length = switches.length ∧
      ∀ switch ∈ after, Idle switch := by
  induction tests generalizing delay switches reports with
  | nil =>
    cases ran
    exact ⟨by simp, begun, most, rfl, idle⟩
  | cons j tests ih =>
    obtain ⟨⟨report, mid⟩, first, ran⟩ := Option.bind_eq_some_iff.mp ran
    obtain ⟨⟨others, rest⟩, later, ran⟩ := Option.bind_eq_some_iff.mp ran
    cases ran
    have now : 0 ≤ (if j > 0 then 0 else delay) ∧ (if j > 0 then 0 else delay) ≤ options.delay := by
      split_ifs
      · exact ⟨le_refl 0, sensible.delay⟩
      · exact ⟨begun, most⟩
    have wait := sensible.mstestlen
    have short := sensible.short
    obtain ⟨sound, length, idle'⟩ := runTest_sound (by omega) (by omega) (clock j) idle first
    obtain ⟨all, nonneg, most', length', idle''⟩ := ih now.1 now.2 idle' later
    rw [length] at all length'
    exact ⟨List.forall_mem_cons.mpr ⟨sound, all⟩, nonneg, most', length', idle''⟩

theorem mainLoop_sound {config : Results.Config} {fresh : Nat → Fresh} {inputs : Nat → Nat → Input}
    (clock : ∀ i j, (inputs i j).Normalized) {first count : Nat} {delay : Int} (begun : 0 ≤ delay)
    (most : delay ≤ options.delay) {switches : List Timed} (length : switches.length = first)
    (idle : ∀ switch ∈ switches, Idle switch) {reports : List Report}
    (ran : mainLoop config options fresh inputs (List.range' first count) delay switches =
      some reports) :
    ∀ report ∈ reports, ∃ i, Results.tested config i = true ∧
      Sound options.mstestlen (i + 1) report := by
  induction count generalizing first delay switches reports with
  | zero =>
    cases ran
    simp
  | succ count ih =>
    rw [List.range'_succ, mainLoop] at ran
    have length' : (switches ++ [newSwitch options delay first (fresh first)]).length =
        first + 1 := by
      rw [List.length_append, length]
      rfl
    have idle' : ∀ switch ∈ switches ++ [newSwitch options delay first (fresh first)],
        Idle switch := by
      intro switch member
      rcases List.mem_append.mp member with old | new
      · exact idle switch old
      · rw [List.mem_singleton.mp new]
        exact ⟨rfl, (msgbufNew_inBounds _ _ _).compact⟩
    dsimp only at ran
    split_ifs at ran with chosen
    · obtain ⟨⟨tests, delay', after⟩, now, ran⟩ := Option.bind_eq_some_iff.mp ran
      obtain ⟨others, later, ran⟩ := Option.bind_eq_some_iff.mp ran
      cases ran
      obtain ⟨sound, begun', most', kept, idle''⟩ :=
        runTests_sound sensible (clock first) begun most idle' now
      rw [length'] at sound kept
      intro report member
      rcases List.mem_append.mp member with here | there
      · exact ⟨first, chosen, sound report here⟩
      · exact ih begun' most' kept idle'' later report there
    · exact ih begun most length' idle' ran

/-- Every test reports, for every switch connected so far, exactly the responses that the switch
handled during that test, none of which is counted again in a later one. On a well-formed stream
they are those of the messages that the test read, and of the ones that were still in the input
buffer: `fakeswitch_get_count` may leave whole messages there, and the next test then counts
responses to probes of an earlier one. The result is their number over a time that is longer than
the test was to be. -/
theorem tests_count_handled_responses {config : Results.Config} {fresh : Nat → Fresh}
    {inputs : Nat → Nat → Input} (clock : ∀ i j, (inputs i j).Normalized) {reports : List Report}
    (ran : main config options fresh inputs = some reports) :
    ∀ report ∈ reports, ∃ i, Results.tested config i = true ∧
      Sound options.mstestlen (i + 1) report := by
  rw [main, List.range_eq_range'] at ran
  have none' : ∀ switch ∈ ([] : List Timed), Idle switch := by simp
  exact mainLoop_sound sensible clock sensible.delay (le_refl _) rfl none' ran

end

/-- Two tests of a switch. In the first one half a packet-out is read, and `fakeswitch_get_count`
reads the other half and a second one, which it leaves behind; a third one is read in the second
test, whose count is two. -/
theorem tests_count_handled_responses_left_over :
    let config : Results.Config := ⟨2, 0, 0, 1, false, by decide, rfl⟩
    let options : Options := ⟨1000, 0, .latency, 1⟩
    let fresh : Nat → Fresh := fun _ => ⟨⟨0, 0⟩, fun _ => 0, fun _ => ⟨0, 0⟩⟩
    let input : List UInt8 → List ReadResult → Input := fun bytes results =>
      { then_ := ⟨0, 0⟩
        turns := [⟨⟨0, 0⟩, [⟨some (3, .data bytes), none⟩]⟩, ⟨⟨2, 0⟩, []⟩]
        drains := [⟨3, results⟩] }
    let inputs : Nat → Nat → Input := fun _ j =>
      if j = 0 then input [1, 13, 0, 8] [.data [0, 0, 0, 1, 1, 13, 0, 8, 0, 0, 0, 2], .error]
      else input [1, 13, 0, 8, 0, 0, 0, 3] [.error]
    ∃ reports, main config options fresh inputs = some reports ∧
      reports.map Report.counts = [[0], [2]] ∧
      reports.map (fun report => report.polled.map fun tested => tested.held.length) =
        [[0], [8]] ∧
      ∀ report ∈ reports, ∃ i, Results.tested config i = true ∧ Sound 1000 (i + 1) report := by
  intro config options fresh input inputs
  have counts : (main config options fresh inputs).any (fun reports =>
      reports.map Report.counts = [[0], [2]] ∧
      reports.map (fun report => report.polled.map fun tested => tested.held.length) =
        [[0], [8]]) := by decide +kernel
  obtain ⟨reports, ran⟩ := Option.isSome_iff_exists.mp (Option.isSome_of_any counts)
  rw [ran, Option.any_some, decide_eq_true_eq] at counts
  have sensible : options.Sensible := ⟨by decide, by decide, by decide⟩
  have clock : ∀ i j, (inputs i j).Normalized := by
    intro i j
    unfold inputs
    split_ifs
    · exact ⟨by decide, by decide⟩
    · exact ⟨by decide, by decide⟩
  exact ⟨reports, ran, counts.1, counts.2, tests_count_handled_responses sensible clock ran⟩

end Oflops.Cbench.RunTest
