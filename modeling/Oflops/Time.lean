import Mathlib.Data.Prod.Lex
import Mathlib.Tactic.Ring
import Oflops.Lib.MachineInt

/-! `struct timeval` and `struct timespec` with the macros and helpers that the
timer queue and the traffic generator use, and the libpcap header that carries a time. -/

namespace Oflops.Time
open Lib.MachineInt

structure Timeval where
  tvSec : Int
  tvUsec : Int
  deriving DecidableEq, Repr

structure Timespec where
  tvSec : Int
  tvNsec : Int
  deriving DecidableEq, Repr

structure PcapPkthdr where
  ts : Timeval
  caplen : UInt32
  len : UInt32
  deriving DecidableEq, Repr

/-- The libc macro, with the comparison operator as its last argument. -/
def timercmp (a b : Timeval) (cmp : Int → Int → Bool) : Bool :=
  if a.tvSec = b.tvSec then cmp a.tvUsec b.tvUsec else cmp a.tvSec b.tvSec

def lt (x y : Int) : Bool := decide (x < y)
def gt (x y : Int) : Bool := decide (x > y)
def ge (x y : Int) : Bool := decide (x ≥ y)

def Timeval.toLexPair (t : Timeval) : Int ×ₗ Int := toLex (t.tvSec, t.tvUsec)

theorem toLexPair_injective : Function.Injective Timeval.toLexPair := by
  rintro ⟨s, u⟩ ⟨s', u'⟩ same
  simpa [Timeval.toLexPair] using same

instance : LinearOrder Timeval := LinearOrder.lift' Timeval.toLexPair toLexPair_injective

theorem Timeval.lt_def (a b : Timeval) :
    a < b ↔ a.tvSec < b.tvSec ∨ a.tvSec = b.tvSec ∧ a.tvUsec < b.tvUsec :=
  Prod.Lex.toLex_lt_toLex

theorem Timeval.tvSec_mono {a b : Timeval} (le : a ≤ b) : a.tvSec ≤ b.tvSec := by
  have notLater := not_lt.mpr le
  rw [Timeval.lt_def] at notLater
  omega

theorem timercmp_lt (a b : Timeval) : timercmp a b lt = true ↔ a < b := by
  rw [Timeval.lt_def]
  unfold timercmp lt
  split_ifs with same
  · simp [same]
  · simp [same]

theorem timercmp_gt (a b : Timeval) : timercmp a b gt = true ↔ b < a := by
  rw [Timeval.lt_def]
  unfold timercmp gt
  split_ifs with same
  · simp [same]
  · simp [Ne.symm same]

theorem timercmp_ge (a b : Timeval) : timercmp a b ge = true ↔ b ≤ a := by
  rw [← not_lt, Timeval.lt_def]
  unfold timercmp ge
  split_ifs with same
  · rw [decide_eq_true_eq]
    omega
  · rw [decide_eq_true_eq]
    omega

/-- The microsecond field is below one second. -/
def Timeval.Normalized (t : Timeval) : Prop := 0 ≤ t.tvUsec ∧ t.tvUsec < 1000000

instance (t : Timeval) : Decidable t.Normalized := inferInstanceAs (Decidable (_ ∧ _))

def Timeval.micros (t : Timeval) : Int := t.tvSec * 1000000 + t.tvUsec

theorem Timeval.lt_iff_micros_lt {a b : Timeval} (first : a.Normalized) (second : b.Normalized) :
    a < b ↔ a.micros < b.micros := by
  unfold Timeval.Normalized at first second
  rw [Timeval.lt_def]
  unfold Timeval.micros
  omega

/-- The libc macro; the fields are 64-bit. -/
def timersub (a b : Timeval) : Timeval :=
  let sec := int64 (a.tvSec - b.tvSec)
  let usec := int64 (a.tvUsec - b.tvUsec)
  if usec < 0 then ⟨int64 (sec - 1), int64 (usec + 1000000)⟩ else ⟨sec, usec⟩

/-- Between proper times only the seconds can wrap around. -/
theorem timersub_eq {a b : Timeval} (first : a.Normalized) (second : b.Normalized) :
    timersub a b = if a.tvUsec - b.tvUsec < 0
      then ⟨int64 (int64 (a.tvSec - b.tvSec) - 1), a.tvUsec - b.tvUsec + 1000000⟩
      else ⟨int64 (a.tvSec - b.tvSec), a.tvUsec - b.tvUsec⟩ := by
  unfold Timeval.Normalized at first second
  have usec : int64 (a.tvUsec - b.tvUsec) = a.tvUsec - b.tvUsec :=
    int64_of_range (by omega) (by omega)
  have carried : int64 (a.tvUsec - b.tvUsec + 1000000) = a.tvUsec - b.tvUsec + 1000000 :=
    int64_of_range (by omega) (by omega)
  unfold timersub
  dsimp only
  rw [usec, carried]

theorem timersub_normalized {a b : Timeval} (first : a.Normalized) (second : b.Normalized) :
    (timersub a b).Normalized := by
  rw [timersub_eq first second]
  unfold Timeval.Normalized at first second ⊢
  split_ifs with borrow
  · dsimp only
    omega
  · dsimp only
    omega

theorem timersub_micros {a b : Timeval} (first : a.Normalized) (second : b.Normalized) :
    (timersub a b).micros ≡ a.micros - b.micros [ZMOD 2 ^ 32] := by
  have sec := int64_modEq (a.tvSec - b.tvSec)
  rw [timersub_eq first second]
  split_ifs with borrow
  · have lowered := (int64_modEq (int64 (a.tvSec - b.tvSec) - 1)).trans (sec.sub_right 1)
    calc
      _ ≡ (a.tvSec - b.tvSec - 1) * 1000000 + (a.tvUsec - b.tvUsec + 1000000) [ZMOD 2 ^ 32] :=
        (lowered.mul_right _).add_right _
      _ = _ := by unfold Timeval.micros; ring
  · calc
      _ ≡ (a.tvSec - b.tvSec) * 1000000 + (a.tvUsec - b.tvUsec) [ZMOD 2 ^ 32] :=
        (sec.mul_right _).add_right _
      _ = _ := by unfold Timeval.micros; ring

def tsToTv (ts : Timespec) : Timeval := ⟨ts.tvSec, ts.tvNsec.tdiv 1000⟩

def tvToTs (tv : Timeval) : Timespec := ⟨tv.tvSec, tv.tvUsec * 1000⟩

/-- The bound is unsigned, so a negative nanosecond field compares as a large one. -/
def addTimespec (now : Timespec) (secs nsecs : Int) : Timespec :=
  let sec := now.tvSec + secs
  let nsec := now.tvNsec + nsecs
  if uint64 nsec ≥ 1000000000 then ⟨sec + 1, nsec - 1000000000⟩ else ⟨sec, nsec⟩

/-- As `add_timespec`, with microseconds. -/
def addTime (now : Timeval) (secs usecs : Int) : Timeval :=
  let sec := now.tvSec + secs
  let usec := now.tvUsec + usecs
  if uint64 usec ≥ 1000000 then ⟨sec + 1, usec - 1000000⟩ else ⟨sec, usec⟩

/-- The result is a `uint32_t`. -/
def timeDiff (now then_ : Timeval) : Int :=
  ((then_.tvSec - now.tvSec) * 1000000 + (then_.tvUsec - now.tvUsec)) % 2 ^ 32

def timeCmp (now then_ : Timeval) : Int :=
  if then_.tvSec ≠ now.tvSec then (if then_.tvSec < now.tvSec then -1 else 1)
  else if then_.tvUsec ≠ now.tvUsec then (if then_.tvUsec < now.tvUsec then -1 else 1)
  else 0

theorem timeCmp_pos (now then_ : Timeval) : timeCmp now then_ > 0 ↔ now < then_ := by
  rw [Timeval.lt_def]
  unfold timeCmp
  split_ifs <;> omega

def timespecDiff (now then_ : Timespec) : Int :=
  (then_.tvSec - now.tvSec) * 1000000000 + (then_.tvNsec - now.tvNsec)

def Timespec.nanos (t : Timespec) : Int := t.tvSec * 1000000000 + t.tvNsec

theorem timespecDiff_eq (now then_ : Timespec) :
    timespecDiff now then_ = then_.nanos - now.nanos := by
  unfold timespecDiff Timespec.nanos
  ring

theorem tsToTv_normalized {ts : Timespec} (low : 0 ≤ ts.tvNsec) (high : ts.tvNsec < 1000000000) :
    (tsToTv ts).Normalized := by
  unfold Timeval.Normalized tsToTv
  dsimp only
  rw [Int.tdiv_eq_ediv_of_nonneg low]
  omega

theorem tvToTs_normalized {tv : Timeval} (normalized : tv.Normalized) :
    0 ≤ (tvToTs tv).tvNsec ∧ (tvToTs tv).tvNsec < 1000000000 := by
  unfold Timeval.Normalized at normalized
  unfold tvToTs
  dsimp only
  omega

theorem addTimespec_nanos (now : Timespec) (secs nsecs : Int) :
    (addTimespec now secs nsecs).nanos = now.nanos + secs * 1000000000 + nsecs := by
  unfold addTimespec Timespec.nanos
  dsimp only
  split_ifs
  · dsimp only
    ring
  · dsimp only
    ring

theorem addTimespec_normalized {now : Timespec} {nsecs : Int} (low : 0 ≤ now.tvNsec)
    (high : now.tvNsec < 1000000000) (positive : 0 ≤ nsecs) (short : nsecs ≤ 1000000000) :
    0 ≤ (addTimespec now 0 nsecs).tvNsec ∧ (addTimespec now 0 nsecs).tvNsec < 1000000000 ∧
      now.tvSec ≤ (addTimespec now 0 nsecs).tvSec := by
  have small : uint64 (now.tvNsec + nsecs) = now.tvNsec + nsecs :=
    Int.emod_eq_of_lt (by omega) (by omega)
  unfold addTimespec
  dsimp only
  rw [small]
  split_ifs with carry
  · dsimp only
    omega
  · dsimp only
    omega

theorem le_addTimespec_tvNsec (now : Timespec) (secs nsecs : Int) :
    now.tvNsec + nsecs - 1000000000 ≤ (addTimespec now secs nsecs).tvNsec := by
  unfold addTimespec
  dsimp only
  split_ifs
  · exact le_refl _
  · dsimp only
    omega

end Oflops.Time
