import Oflops.Traffic.Schedule

/-! Whether a turn of the user-space generator sends or sleeps: the distance to the chosen
generator's time is computed in 64 bits, returned as a `uint32_t` and stored as an `int32_t`. -/

namespace Oflops.Traffic.Due
open Lib.MachineInt Time Packet UserLoop Schedule

inductive Action where
  | idle
  | sleep (usec : Int)
  | send (nr : Nat)
  deriving DecidableEq, Repr

def action (generators : List PktDetails) (now : Timeval) : Option Action :=
  match getMinGenerator generators with
  | none => some .idle
  | some nr => do
    let state ← generators[nr]?
    let uDiff := int32 (timeDiff now (tsToTv state.timestamp))
    some (if uDiff > 0 then .sleep uDiff else .send nr)

/-- `send_pkt` for the generator of the action; sleeping and idling change nothing. -/
def perform (channels : List Channel) (generators : List PktDetails) (now : Timeval) :
    Action → Option (Option Sent × List PktDetails)
  | .idle => some (none, generators)
  | .sleep _ => some (none, generators)
  | .send nr => do
    let state ← generators[nr]?
    let channel ← channels[state.trafficGen]?
    let det ← channel.det
    let (frame, after) ← sendPkt state det.delay now
    some (some ⟨nr, state.timestamp, now, frame⟩, generators.set nr after)

section Send
variable {channels : List Channel} {generators : List PktDetails} {nr : Nat} {now : Timeval}

theorem perform_send {state after : PktDetails} {det : TrafGenDet} {frame : List UInt8}
    (found : generators[nr]? = some state) (known : detOf channels state = some det)
    (done : sendPkt state det.delay now = some (frame, after)) :
    perform channels generators now (.send nr) =
      some (some ⟨nr, state.timestamp, now, frame⟩, generators.set nr after) := by
  obtain ⟨channel, there, given⟩ := Option.bind_eq_some_iff.mp known
  simp only [perform, found, there, given, done, Option.bind_eq_bind, Option.bind_some]

theorem perform_cases {next : List PktDetails} {sent : Option Sent}
    (performed : perform channels generators now (.send nr) = some (sent, next)) :
    ∃ state det frame after, generators[nr]? = some state ∧ detOf channels state = some det ∧
      sendPkt state det.delay now = some (frame, after) ∧
      sent = some ⟨nr, state.timestamp, now, frame⟩ ∧ next = generators.set nr after := by
  obtain ⟨state, found, performed⟩ := Option.bind_eq_some_iff.mp performed
  obtain ⟨channel, there, performed⟩ := Option.bind_eq_some_iff.mp performed
  obtain ⟨det, given, performed⟩ := Option.bind_eq_some_iff.mp performed
  obtain ⟨⟨frame, after⟩, done, performed⟩ := Option.bind_eq_some_iff.mp performed
  cases performed
  exact ⟨state, det, frame, after, found, by rw [detOf, there]; exact given, done, rfl, rfl⟩

end Send

theorem turn_eq (channels : List Channel) (generators : List PktDetails) (now : Timeval) :
    turn channels generators now = (action generators now).bind
      (perform channels generators now) := by
  unfold turn action
  cases getMinGenerator generators with
  | none => rfl
  | some nr =>
    cases found : generators[nr]? with
    | none => simp only [found, Option.bind_eq_bind, Option.bind_none]
    | some state =>
      simp only [found, Option.bind_eq_bind, Option.bind_some]
      split_ifs
      · rfl
      · simp only [perform, found, Option.bind_eq_bind, Option.bind_some]

/-- Microseconds from `now` to a scheduled time, cut to microseconds. -/
def remaining (now : Timeval) (scheduled : Timespec) : Int := (tsToTv scheduled).micros - now.micros

theorem uDiff_eq (now : Timeval) (scheduled : Timespec) :
    int32 (timeDiff now (tsToTv scheduled)) = int32 (remaining now scheduled) := by
  apply int32_eq_of_modEq
  calc
    timeDiff now (tsToTv scheduled) ≡ ((tsToTv scheduled).tvSec - now.tvSec) * 1000000 +
        ((tsToTv scheduled).tvUsec - now.tvUsec) [ZMOD 2 ^ 32] := Int.mod_modEq _ _
    _ = remaining now scheduled := by unfold remaining Timeval.micros; ring

theorem action_chosen {generators : List PktDetails} {nr : Nat} {state : PktDetails}
    (chosen : getMinGenerator generators = some nr) (found : generators[nr]? = some state)
    (now : Timeval) :
    action generators now = some (if 0 < int32 (remaining now state.timestamp)
      then .sleep (int32 (remaining now state.timestamp)) else .send nr) := by
  unfold action
  rw [chosen]
  simp only [found, Option.bind_eq_bind, Option.bind_some, uDiff_eq, gt_iff_lt]

/-- The turn sends the packet of generator `nr` exactly when it is due, and sleeps for no longer
than it still has. -/
def SendsWhenDue (generators : List PktDetails) (nr : Nat) (left : Int) (now : Timeval) : Prop :=
  (action generators now = some (.send nr) ↔ left ≤ 0) ∧
    ∀ usec, action generators now = some (.sleep usec) → usec ≤ left

/-- The distance has the same sign once it is cut to a signed 32-bit integer. -/
def SignSurvives (left : Int) : Prop := 0 < left ↔ 0 < left % 2 ^ 32 ∧ left % 2 ^ 32 < 2 ^ 31

instance (left : Int) : Decidable (SignSurvives left) := inferInstanceAs (Decidable (_ ↔ _))

/-- A turn is right about the chosen generator exactly when the distance to its time keeps its
sign in the conversion. -/
theorem sends_when_due_iff {generators : List PktDetails} {nr : Nat} {state : PktDetails}
    (chosen : getMinGenerator generators = some nr) (found : generators[nr]? = some state)
    (now : Timeval) :
    SendsWhenDue generators nr (remaining now state.timestamp) now ↔
      SignSurvives (remaining now state.timestamp) := by
  unfold SendsWhenDue SignSurvives
  rw [action_chosen chosen found, ← int32_pos_iff]
  set left := remaining now state.timestamp
  constructor
  · rintro ⟨sends, -⟩
    rw [← not_iff_not, not_lt, ← sends]
    split_ifs with wide
    · simp [wide]
    · simp [wide]
  · intro survives
    constructor
    · split_ifs with wide
      · simp [survives.mpr wide]
      · simpa using not_lt.mp (survives.not.mpr wide)
    · intro usec sleeps
      split_ifs at sleeps with wide
      · cases sleeps
        exact int32_le (survives.mpr wide)
      · cases sleeps

def waiting (time : Timespec) : List PktDetails := [blank 0 time]

theorem waiting_chosen (time : Timespec) : getMinGenerator (waiting time) = some 0 := rfl

theorem sends_when_due_iff_half_second :
    SendsWhenDue (waiting ⟨1400000000, 500000000⟩) 0 500000 ⟨1400000000, 0⟩ ↔ SignSurvives 500000 :=
  sends_when_due_iff (waiting_chosen ⟨1400000000, 500000000⟩) rfl ⟨1400000000, 0⟩

/-- A generator that is 2200 seconds behind sleeps for 35 minutes instead of sending. -/
theorem late_generator_sleeps :
    remaining ⟨1400002200, 0⟩ ⟨1400000000, 0⟩ = -2200000000 ∧
      action (waiting ⟨1400000000, 0⟩) ⟨1400002200, 0⟩ = some (.sleep 2094967296) ∧
      ¬SendsWhenDue (waiting ⟨1400000000, 0⟩) 0 (-2200000000) ⟨1400002200, 0⟩ := by
  have sleeps : action (waiting ⟨1400000000, 0⟩) ⟨1400002200, 0⟩ = some (.sleep 2094967296) := by
    decide
  refine ⟨by decide, sleeps, ?_⟩
  rintro ⟨sends, -⟩
  exact absurd (sends.mpr (by decide)) (by rw [sleeps]; decide)

end Oflops.Traffic.Due
