import Oflops.Lib.Fifo
import Oflops.Stream.Buffer

/-! A `msgbuf` is a FIFO byte queue under every sequence of its operations, whatever the
socket answers. -/

namespace Oflops.Stream.Fifo
open Lib.Memory Lib.Fifo Buffer

inductive BufferOp where
  | push (bytes : List UInt8)
  | read (result : ReadResult)
  | pull (dest : Option (Nat → UInt8)) (count : Int)
  | write (len count : Int)
  | clear
  | grow

/-- The return value (0 for the void functions), the effect on the queue of bytes, the
destination memory of a pull and the buffer afterwards. -/
structure Outcome where
  ret : Int
  event : Event UInt8
  dest : Option (Nat → UInt8)
  after : Msgbuf

def apply (mbuf : Msgbuf) : BufferOp → Outcome
  | .push bytes => ⟨0, .put bytes, none, msgbufPush mbuf bytes⟩
  | .read result =>
      let (count, after) := msgbufRead mbuf result
      ⟨count, .put result.bytes, none, after⟩
  | .pull dest count =>
      let (ret, pulled, after) := msgbufPull mbuf count
      ⟨ret, .take pulled, dest.map (fun d => store d 0 pulled), after⟩
  | .write len count =>
      let (ret, sent, after) := msgbufWrite mbuf len count
      ⟨ret, .take sent, none, after⟩
  | .clear => ⟨0, .flush, none, msgbufClear mbuf⟩
  | .grow => ⟨0, .put [], none, msgbufGrow mbuf⟩

def Allowed (mbuf : Msgbuf) : BufferOp → Prop
  | .read result => ReadAllowed mbuf result
  | .write len count => WriteAllowed mbuf len count
  | _ => True

/-- A pull or a write that returns a positive number moved exactly that many bytes; with
any other return value it changed nothing. -/
def MovesWhatItReturns (mbuf : Msgbuf) (op : BufferOp) : Prop :=
  let outcome := apply mbuf op
  match op with
  | .pull _ _ | .write _ _ =>
      (0 < outcome.ret → ∃ moved, outcome.event = .take moved ∧ (moved.length : Int) = outcome.ret ∧
        buffered mbuf = moved ++ buffered outcome.after) ∧
      (outcome.ret ≤ 0 → outcome.event = .take [] ∧ outcome.after = mbuf)
  | _ => True

theorem pull_cases (mbuf : Msgbuf) (count : Int) :
    msgbufPull mbuf count = (-1, [], mbuf) ∨
      ∃ n : Nat, 0 < n ∧ n ≤ (buffered mbuf).length ∧
        msgbufPull mbuf count = ((n : Int), load mbuf.buf mbuf.start n, advance mbuf n) := by
  by_cases asked : count ≤ 0 ∨ (buffered mbuf).length = 0
  · exact Or.inl (msgbufPull_refused asked)
  · exact Or.inr ⟨min count.toNat (buffered mbuf).length, by omega, by omega,
      msgbufPull_some (by omega) (by omega)⟩

theorem take_step {mbuf : Msgbuf} {n : Nat} (enough : n ≤ (buffered mbuf).length) :
    Step (buffered mbuf) (.take (load mbuf.buf mbuf.start n)) (buffered (advance mbuf n)) := by
  rw [advance_buffered enough]
  exact Step.take _ _

theorem apply_inBounds {mbuf : Msgbuf} (op : BufferOp) (bounds : InBounds mbuf)
    (allowed : Allowed mbuf op) : InBounds (apply mbuf op).after := by
  cases op with
  | push bytes => exact msgbufPush_inBounds bytes bounds
  | read result => exact msgbufRead_inBounds result bounds allowed
  | pull dest count =>
    simp only [apply]
    rcases pull_cases mbuf count with refused | ⟨n, _, _, moved⟩
    · rw [refused]
      exact bounds
    · rw [moved]
      exact advance_inBounds n bounds
  | write len count =>
    simp only [apply]
    rcases msgbufWrite_cases len count bounds allowed with ⟨ret, _, refused⟩ | ⟨n, _, _, moved⟩
    · rw [refused]
      exact bounds
    · rw [moved]
      exact advance_inBounds n bounds
  | clear => exact msgbufClear_inBounds mbuf
  | grow => exact msgbufGrow_inBounds bounds

theorem apply_step {mbuf : Msgbuf} (op : BufferOp) (bounds : InBounds mbuf)
    (allowed : Allowed mbuf op) :
    Step (buffered mbuf) (apply mbuf op).event (buffered (apply mbuf op).after) := by
  cases op with
  | push bytes =>
    simp only [apply]
    rw [msgbufPush_buffered bytes bounds.ordered]
    exact Step.put _ _
  | read result =>
    simp only [apply]
    rw [msgbufRead_buffered result bounds.ordered]
    exact Step.put _ _
  | pull dest count =>
    simp only [apply]
    rcases pull_cases mbuf count with refused | ⟨n, _, enough, moved⟩
    · rw [refused]
      exact Step.take _ []
    · rw [moved]
      exact take_step enough
  | write len count =>
    simp only [apply]
    rcases msgbufWrite_cases len count bounds allowed with ⟨ret, _, refused⟩ | ⟨n, _, enough, moved⟩
    · rw [refused]
      exact Step.take _ []
    · rw [moved]
      exact take_step enough
  | clear => exact Step.flush _
  | grow =>
    have same := Step.put (buffered mbuf) []
    rwa [List.append_nil] at same

theorem movesWhatItReturns {mbuf : Msgbuf} (op : BufferOp) (bounds : InBounds mbuf)
    (allowed : Allowed mbuf op) : MovesWhatItReturns mbuf op := by
  have moving : ∀ n : Nat, 0 < n → n ≤ (buffered mbuf).length →
      (0 < (n : Int) → ∃ moved, Event.take (load mbuf.buf mbuf.start n) = .take moved ∧
        (moved.length : Int) = n ∧ buffered mbuf = moved ++ buffered (advance mbuf n)) ∧
      ((n : Int) ≤ 0 → Event.take (load mbuf.buf mbuf.start n) = .take [] ∧
        advance mbuf n = mbuf) := by
    intro n positive enough
    refine ⟨fun _ => ⟨_, rfl, by rw [load_length], advance_buffered enough⟩, fun none => ?_⟩
    omega
  have idle : ∀ ret : Int, ret ≤ 0 →
      (0 < ret → ∃ moved, Event.take ([] : List UInt8) = .take moved ∧ (moved.length : Int) = ret ∧
        buffered mbuf = moved ++ buffered mbuf) ∧
      (ret ≤ 0 → Event.take ([] : List UInt8) = .take [] ∧ mbuf = mbuf) :=
    fun ret none => ⟨fun positive => by omega, fun _ => ⟨rfl, rfl⟩⟩
  cases op with
  | push bytes => trivial
  | read result => trivial
  | pull dest count =>
    simp only [MovesWhatItReturns, apply]
    rcases pull_cases mbuf count with refused | ⟨n, positive, enough, moved⟩
    · rw [refused]
      exact idle (-1) (by decide)
    · rw [moved]
      exact moving n positive enough
  | write len count =>
    simp only [MovesWhatItReturns, apply]
    rcases msgbufWrite_cases len count bounds allowed with
      ⟨ret, none, refused⟩ | ⟨n, positive, enough, moved⟩
    · rw [refused]
      exact idle ret none
    · rw [moved]
      exact moving n positive enough
  | clear => trivial
  | grow => trivial

/-- The states a buffer goes through from `fresh` on, each with the ledger of the bytes
that went in and out since the last clear. -/
inductive Run (fresh : Msgbuf) : Msgbuf → Ledger UInt8 → Prop where
  | new : Run fresh fresh .empty
  | step {mbuf : Msgbuf} {ledger : Ledger UInt8} (op : BufferOp) (run : Run fresh mbuf ledger)
      (allowed : Allowed mbuf op) :
      Run fresh (apply mbuf op).after (ledger.enter (apply mbuf op).event)

theorem Run.inBounds {fresh mbuf : Msgbuf} {ledger : Ledger UInt8} (run : Run fresh mbuf ledger)
    (bounds : InBounds fresh) : InBounds mbuf := by
  induction run with
  | new => exact bounds
  | step op _ allowed ih => exact apply_inBounds op ih allowed

theorem Run.balanced {fresh mbuf : Msgbuf} {ledger : Ledger UInt8} (run : Run fresh mbuf ledger)
    (bounds : InBounds fresh) (empty : buffered fresh = []) : ledger.Balanced (buffered mbuf) := by
  induction run with
  | new => exact empty ▸ balanced_empty
  | step op before allowed ih => exact ih.enter (apply_step op (before.inBounds bounds) allowed)

/-- In every state of every run of a new buffer the bounds hold, the bytes taken out
followed by those still buffered are the bytes put in, and every pull and write moves
exactly the bytes it reports. -/
theorem msgbuf_is_fifo (bufsize : Nat) (positive : 0 < bufsize) (uninitialised : Nat → UInt8)
    (mbuf : Msgbuf) (ledger : Ledger UInt8)
    (run : Run (msgbufNew bufsize positive uninitialised) mbuf ledger) :
    (mbuf.start ≤ mbuf.stop ∧ mbuf.stop ≤ mbuf.len ∧
        (mbuf.start = mbuf.stop → mbuf.start = 0 ∧ mbuf.stop = 0)) ∧
      ledger.outs ++ buffered mbuf = ledger.ins ∧
      ∀ op, Allowed mbuf op → MovesWhatItReturns mbuf op := by
  have fresh := msgbufNew_inBounds bufsize positive uninitialised
  have bounds := run.inBounds fresh
  refine ⟨⟨bounds.ordered, bounds.inside, fun same => ?_⟩, run.balanced fresh rfl,
    fun op allowed => movesWhatItReturns op bounds allowed⟩
  have zero := bounds.reset same
  exact ⟨zero, same ▸ zero⟩

theorem msgbuf_is_fifo_after_partial_write :
    let fresh := msgbufNew 4 (by decide) (fun _ => 255)
    let filled := (apply fresh (.read (.data [10, 11, 12]))).after
    let written := (apply filled (.write 0 2)).after
    [10, 11] ++ buffered written = [10, 11, 12] := by
  intro fresh filled written
  have first : Run fresh filled ⟨[10, 11, 12], []⟩ :=
    Run.step (.read (.data [10, 11, 12])) Run.new (by decide : 3 ≤ msgbufRequest fresh)
  have second : Run fresh written ⟨[10, 11, 12], [10, 11]⟩ := by
    refine Run.step (.write 0 2) first ?_
    intro sendLen offered
    cases offered
    decide
  exact (msgbuf_is_fifo 4 (by decide) (fun _ => 255) written _ second).2.1

end Oflops.Stream.Fifo
