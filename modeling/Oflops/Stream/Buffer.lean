import Mathlib.Algebra.Order.Ring.Int
import Mathlib.Tactic.SplitIfs
import Oflops.Lib.Memory

/-! The byte buffer of `msgbuf.c`. The memory behind `buf` is a function from offsets to
bytes: offsets from `len` on are not allocated yet, and a `realloc` brings them in with
whatever they hold. `stop` is the field `end`. -/

namespace Oflops.Stream.Buffer
open Lib.Memory

/-- The length is never zero: `msgbuf_new` asserts it, and it only doubles. The fields are `int`s:
the model is that of buffers whose `len`, `start` and `stop` stay below `2 ^ 31`. -/
structure Msgbuf where
  buf : Nat → UInt8
  len : Nat
  start : Nat
  stop : Nat
  allocated : 0 < len

def msgbufNew (bufsize : Nat) (positive : 0 < bufsize) (uninitialised : Nat → UInt8) : Msgbuf :=
  { buf := uninitialised, len := bufsize, start := 0, stop := 0, allocated := positive }

def msgbufGrow (mbuf : Msgbuf) : Msgbuf :=
  { mbuf with len := mbuf.len * 2, allocated := Nat.mul_pos mbuf.allocated (by decide) }

/-- What a call of `read` answers: some bytes, none at the end of the stream, or an error. -/
inductive ReadResult where
  | data (bytes : List UInt8)
  | error
  deriving DecidableEq, Repr

def ReadResult.bytes : ReadResult → List UInt8
  | .data bytes => bytes
  | .error => []

def ReadResult.count : ReadResult → Int
  | .data bytes => bytes.length
  | .error => -1

/-- The number of bytes `msgbuf_read` asks the socket for. -/
def msgbufRequest (mbuf : Msgbuf) : Nat := mbuf.len - mbuf.stop

def msgbufRead (mbuf : Msgbuf) (result : ReadResult) : Int × Msgbuf :=
  let count := result.count
  let mbuf := if count > 0 then
      { mbuf with buf := store mbuf.buf mbuf.stop result.bytes,
                  stop := mbuf.stop + result.bytes.length }
    else mbuf
  let mbuf := if mbuf.stop ≥ mbuf.len then msgbufGrow mbuf else mbuf
  (count, mbuf)

def msgbufCountBuffered (mbuf : Msgbuf) : Nat := mbuf.stop - mbuf.start

/-- The number of bytes `msgbuf_write` offers to the socket, none when it refuses at once. -/
def msgbufSendLen (mbuf : Msgbuf) (len : Int) : Option Nat :=
  let sendLen := mbuf.stop - mbuf.start
  if len > 0 then
    if sendLen < len then none else some (min sendLen len.toNat)
  else some sendLen

/-- The return value, the bytes handed to the socket and the buffer afterwards; `count` is
what `write` answers. -/
def msgbufWrite (mbuf : Msgbuf) (len : Int) (count : Int) : Int × List UInt8 × Msgbuf :=
  match msgbufSendLen mbuf len with
  | none => (-1, [], mbuf)
  | some _ =>
    let sent := load mbuf.buf mbuf.start count.toNat
    let mbuf := if count > 0 then { mbuf with start := mbuf.start + count.toNat } else mbuf
    let mbuf := if mbuf.start ≥ mbuf.stop then { mbuf with start := 0, stop := 0 } else mbuf
    (count, sent, mbuf)

def msgbufClear (mbuf : Msgbuf) : Msgbuf := { mbuf with start := 0, stop := 0 }

/-- The offset that the returned pointer stands for. -/
def msgbufPeek (mbuf : Msgbuf) : Option Nat :=
  if mbuf.start ≥ mbuf.stop then none else some mbuf.start

/-- The return value, the bytes taken out (copied to the destination if there is one) and
the buffer afterwards. -/
def msgbufPull (mbuf : Msgbuf) (count : Int) : Int × List UInt8 × Msgbuf :=
  let least := min count (mbuf.stop - mbuf.start : Int)
  if least ≤ 0 then (-1, [], mbuf)
  else
    let pulled := load mbuf.buf mbuf.start least.toNat
    let mbuf := { mbuf with start := mbuf.start + least.toNat }
    let mbuf := if mbuf.start ≥ mbuf.stop then { mbuf with start := 0, stop := 0 } else mbuf
    (least, pulled, mbuf)

def growFor (mbuf : Msgbuf) (count : Nat) : Msgbuf :=
  if mbuf.stop + count > mbuf.len then growFor (msgbufGrow mbuf) count else mbuf
termination_by mbuf.stop + count - mbuf.len
decreasing_by
  have positive := mbuf.allocated
  unfold msgbufGrow
  dsimp only
  omega

def msgbufPush (mbuf : Msgbuf) (bytes : List UInt8) : Msgbuf :=
  let mbuf := growFor mbuf bytes.length
  { mbuf with buf := store mbuf.buf mbuf.stop bytes, stop := mbuf.stop + bytes.length }

def buffered (mbuf : Msgbuf) : List UInt8 := load mbuf.buf mbuf.start (mbuf.stop - mbuf.start)

structure InBounds (mbuf : Msgbuf) : Prop where
  ordered : mbuf.start ≤ mbuf.stop
  inside : mbuf.stop ≤ mbuf.len
  reset : mbuf.start = mbuf.stop → mbuf.start = 0

theorem buffered_length (mbuf : Msgbuf) : (buffered mbuf).length = mbuf.stop - mbuf.start := by
  rw [buffered, load_length]

theorem msgbufNew_inBounds (bufsize : Nat) (positive : 0 < bufsize)
    (uninitialised : Nat → UInt8) : InBounds (msgbufNew bufsize positive uninitialised) :=
  ⟨le_rfl, Nat.zero_le _, fun _ => rfl⟩

theorem growFor_fields (mbuf : Msgbuf) (count : Nat) :
    (growFor mbuf count).buf = mbuf.buf ∧ (growFor mbuf count).start = mbuf.start ∧
      (growFor mbuf count).stop = mbuf.stop ∧ mbuf.stop + count ≤ (growFor mbuf count).len ∧
      mbuf.len ≤ (growFor mbuf count).len := by
  fun_induction growFor mbuf count with
  | case1 mbuf full ih =>
    refine ⟨ih.1, ih.2.1, ih.2.2.1, ih.2.2.2.1, ?_⟩
    have doubled : mbuf.len * 2 ≤ (growFor (msgbufGrow mbuf) count).len := ih.2.2.2.2
    omega
  | case2 mbuf fits => exact ⟨rfl, rfl, rfl, not_lt.mp fits, le_rfl⟩

@[simp] theorem msgbufPush_start (mbuf : Msgbuf) (bytes : List UInt8) :
    (msgbufPush mbuf bytes).start = mbuf.start :=
  (growFor_fields mbuf bytes.length).2.1

@[simp] theorem msgbufPush_stop (mbuf : Msgbuf) (bytes : List UInt8) :
    (msgbufPush mbuf bytes).stop = mbuf.stop + bytes.length :=
  congrArg (· + bytes.length) (growFor_fields mbuf bytes.length).2.2.1

theorem msgbufPush_buffered {mbuf : Msgbuf} (bytes : List UInt8)
    (ordered : mbuf.start ≤ mbuf.stop) :
    buffered (msgbufPush mbuf bytes) = buffered mbuf ++ bytes := by
  obtain ⟨buf, start, stop, -, -⟩ := growFor_fields mbuf bytes.length
  unfold buffered msgbufPush
  dsimp only
  rw [buf, start, stop]
  obtain ⟨n, split⟩ := Nat.exists_eq_add_of_le ordered
  rw [split, Nat.add_sub_cancel_left, Nat.add_assoc, Nat.add_sub_cancel_left, load_store_append]

theorem msgbufPush_inBounds {mbuf : Msgbuf} (bytes : List UInt8) (bounds : InBounds mbuf) :
    InBounds (msgbufPush mbuf bytes) := by
  obtain ⟨-, start, stop, room, -⟩ := growFor_fields mbuf bytes.length
  have ordered := bounds.ordered
  have reset := bounds.reset
  unfold msgbufPush
  constructor
  · dsimp only
    omega
  · dsimp only
    omega
  · dsimp only
    omega

theorem msgbufGrow_inBounds {mbuf : Msgbuf} (bounds : InBounds mbuf) :
    InBounds (msgbufGrow mbuf) := by
  have inside := bounds.inside
  refine ⟨bounds.ordered, ?_, bounds.reset⟩
  change mbuf.stop ≤ mbuf.len * 2
  omega

theorem msgbufClear_inBounds (mbuf : Msgbuf) : InBounds (msgbufClear mbuf) :=
  ⟨Nat.le_refl _, Nat.zero_le _, fun _ => rfl⟩

/-- Dropping `n` bytes at the front, with the reset once nothing is left. -/
def advance (mbuf : Msgbuf) (n : Nat) : Msgbuf :=
  if mbuf.start + n ≥ mbuf.stop then { mbuf with start := 0, stop := 0 }
  else { mbuf with start := mbuf.start + n }

@[simp] theorem advance_buf (mbuf : Msgbuf) (n : Nat) : (advance mbuf n).buf = mbuf.buf := by
  unfold advance
  split_ifs <;> rfl

@[simp] theorem advance_len (mbuf : Msgbuf) (n : Nat) : (advance mbuf n).len = mbuf.len := by
  unfold advance
  split_ifs <;> rfl

theorem advance_stop_le (mbuf : Msgbuf) (n : Nat) : (advance mbuf n).stop ≤ mbuf.stop := by
  unfold advance
  split_ifs
  · exact Nat.zero_le _
  · exact Nat.le_refl _

theorem advance_buffered {mbuf : Msgbuf} {n : Nat} (enough : n ≤ (buffered mbuf).length) :
    buffered mbuf = load mbuf.buf mbuf.start n ++ buffered (advance mbuf n) := by
  rw [buffered_length] at enough
  unfold buffered advance
  split_ifs with drained
  · have all : mbuf.stop - mbuf.start = n := by omega
    rw [all, Nat.sub_self, load_zero, List.append_nil]
  · have rest : mbuf.stop - mbuf.start = n + (mbuf.stop - (mbuf.start + n)) := by omega
    rw [rest, load_add]

theorem advance_inBounds {mbuf : Msgbuf} (n : Nat) (bounds : InBounds mbuf) :
    InBounds (advance mbuf n) := by
  have inside := bounds.inside
  unfold advance
  split_ifs with drained
  · exact msgbufClear_inBounds mbuf
  · constructor
    · dsimp only
      omega
    · exact inside
    · dsimp only
      omega

theorem advance_advance (mbuf : Msgbuf) (n k : Nat) :
    advance (advance mbuf n) k = advance mbuf (n + k) := by
  unfold advance
  by_cases drained : mbuf.start + n ≥ mbuf.stop
  · have further : mbuf.start + (n + k) ≥ mbuf.stop := by omega
    rw [if_pos drained, if_pos further]
    exact if_pos (Nat.zero_le _)
  · rw [if_neg drained]
    simp only [Nat.add_assoc]

/-- A buffer that is reset whenever it is drained. -/
structure Compact (mbuf : Msgbuf) : Prop where
  ordered : mbuf.start ≤ mbuf.stop
  reset : mbuf.start = mbuf.stop → mbuf.start = 0

theorem InBounds.compact {mbuf : Msgbuf} (bounds : InBounds mbuf) : Compact mbuf :=
  ⟨bounds.ordered, bounds.reset⟩

theorem advance_compact (mbuf : Msgbuf) (n : Nat) : Compact (advance mbuf n) := by
  unfold advance
  split_ifs with drained
  · exact ⟨Nat.le_refl _, fun _ => rfl⟩
  · constructor
    · exact (not_le.mp drained).le
    · intro same
      exact absurd same (not_le.mp drained).ne

theorem advance_zero {mbuf : Msgbuf} (compact : Compact mbuf) : advance mbuf 0 = mbuf := by
  have ordered := compact.ordered
  have reset := compact.reset
  unfold advance
  split_ifs with drained
  · obtain ⟨buf, len, start, stop, allocated⟩ := mbuf
    dsimp only at ordered reset drained ⊢
    obtain rfl : start = 0 := reset (by omega)
    obtain rfl : stop = 0 := by omega
    rfl
  · rfl

theorem msgbufPull_refused {mbuf : Msgbuf} {count : Int}
    (none : count ≤ 0 ∨ (buffered mbuf).length = 0) : msgbufPull mbuf count = (-1, [], mbuf) := by
  rw [buffered_length] at none
  unfold msgbufPull
  rw [if_pos (by omega)]

theorem msgbufPull_some {mbuf : Msgbuf} {count : Int} (asked : 0 < count)
    (some' : 0 < (buffered mbuf).length) :
    msgbufPull mbuf count =
      (((min count.toNat (buffered mbuf).length : Nat) : Int),
        load mbuf.buf mbuf.start (min count.toNat (buffered mbuf).length),
        advance mbuf (min count.toNat (buffered mbuf).length)) := by
  rw [buffered_length] at some' ⊢
  have least : min count (mbuf.stop - mbuf.start : Int) =
      (min count.toNat (mbuf.stop - mbuf.start) : Nat) := by omega
  unfold msgbufPull advance
  dsimp only
  rw [least, if_neg (by omega), Int.toNat_natCast]

theorem msgbufPeek_some (mbuf : Msgbuf) (some' : 0 < (buffered mbuf).length) :
    msgbufPeek mbuf = some mbuf.start := by
  rw [buffered_length] at some'
  rw [msgbufPeek, if_neg (by omega)]

theorem advance_front {mbuf : Msgbuf} {cells rest : List UInt8}
    (front : buffered mbuf = cells ++ rest) :
    load mbuf.buf mbuf.start cells.length = cells ∧
      buffered (advance mbuf cells.length) = rest := by
  have enough : cells.length ≤ (buffered mbuf).length := by
    rw [front, List.length_append]
    exact Nat.le_add_right _ _
  have split := advance_buffered enough
  rw [front] at split
  exact List.append_inj split.symm (load_length _ _ _)

theorem advance_start {mbuf : Msgbuf} {cells rest : List UInt8}
    (front : buffered mbuf = cells ++ rest) (some' : 0 < rest.length) :
    (advance mbuf cells.length).start = mbuf.stop - rest.length := by
  have total := congrArg List.length front
  rw [buffered_length, List.length_append] at total
  rw [advance, if_neg (by omega)]
  dsimp only
  omega

theorem msgbufPull_front {mbuf : Msgbuf} {cells rest : List UInt8}
    (front : buffered mbuf = cells ++ rest) (some' : 0 < cells.length) :
    (msgbufPull mbuf cells.length).2.2 = advance mbuf cells.length := by
  have total := congrArg List.length front
  rw [List.length_append] at total
  rw [msgbufPull_some (by omega) (by omega), Int.toNat_natCast, Nat.min_eq_left (by omega)]

theorem msgbufPull_buffered_length (mbuf : Msgbuf) (n : Nat) :
    (buffered (msgbufPull mbuf n).2.2).length = (buffered mbuf).length - n := by
  by_cases refused : (n : Int) ≤ 0 ∨ (buffered mbuf).length = 0
  · rw [msgbufPull_refused refused]
    dsimp only
    omega
  · have enough : min (n : Int).toNat (buffered mbuf).length ≤ (buffered mbuf).length :=
      Nat.min_le_right _ _
    have split := congrArg List.length (advance_buffered enough)
    rw [List.length_append, load_length] at split
    rw [msgbufPull_some (by omega) (by omega)]
    dsimp only
    omega

theorem msgbufPull_drop {mbuf : Msgbuf} {n : Nat} (enough : n ≤ (buffered mbuf).length) :
    buffered (msgbufPull mbuf n).2.2 = (buffered mbuf).drop n := by
  rcases Nat.eq_zero_or_pos n with rfl | positive
  · rw [msgbufPull_refused (Or.inl (by decide)), List.drop_zero]
  · rw [msgbufPull_some (by omega) (by omega), Int.toNat_natCast, Nat.min_eq_left enough]
    have split := advance_buffered enough
    rw [split, List.drop_left' (load_length _ _ _)]

theorem msgbufPull_compact {mbuf : Msgbuf} (compact : Compact mbuf) (count : Int) :
    Compact (msgbufPull mbuf count).2.2 := by
  by_cases refused : count ≤ 0 ∨ (buffered mbuf).length = 0
  · rw [msgbufPull_refused refused]
    exact compact
  · rw [msgbufPull_some (by omega) (by omega)]
    exact advance_compact _ _

/-- A pull only moves the bounds: the bytes stay where they are. -/
theorem msgbufPull_buf (mbuf : Msgbuf) (count : Int) :
    (msgbufPull mbuf count).2.2.buf = mbuf.buf := by
  unfold msgbufPull
  dsimp only
  split_ifs <;> rfl

/-- The kernel takes at most what it is offered. -/
def WriteAllowed (mbuf : Msgbuf) (len count : Int) : Prop :=
  ∀ sendLen, msgbufSendLen mbuf len = some sendLen → count ≤ sendLen

theorem msgbufSendLen_le {mbuf : Msgbuf} {len : Int} {sendLen : Nat}
    (offered : msgbufSendLen mbuf len = some sendLen) : sendLen ≤ (buffered mbuf).length := by
  rw [buffered_length]
  unfold msgbufSendLen at offered
  dsimp only at offered
  split_ifs at offered <;> simp only [Option.some.injEq] at offered <;> omega

theorem msgbufWrite_cases {mbuf : Msgbuf} (len count : Int) (bounds : InBounds mbuf)
    (allowed : WriteAllowed mbuf len count) :
    (∃ ret, ret ≤ 0 ∧ msgbufWrite mbuf len count = (ret, [], mbuf)) ∨
      (∃ n : Nat, 0 < n ∧ n ≤ (buffered mbuf).length ∧
        msgbufWrite mbuf len count = ((n : Int), load mbuf.buf mbuf.start n, advance mbuf n)) := by
  unfold msgbufWrite
  cases offered : msgbufSendLen mbuf len with
  | none => exact Or.inl ⟨-1, by decide, rfl⟩
  | some sendLen =>
    have limit := allowed sendLen offered
    have fits := msgbufSendLen_le offered
    by_cases accepted : count > 0
    · refine Or.inr ⟨count.toNat, by omega, by omega, ?_⟩
      dsimp only
      rw [if_pos accepted, Int.toNat_of_nonneg accepted.le]
      rfl
    · refine Or.inl ⟨count, not_lt.mp accepted, ?_⟩
      dsimp only
      have nothing : count.toNat = 0 := by omega
      rw [if_neg accepted, nothing, load_zero]
      exact congrArg (fun m => (count, [], m)) (advance_zero bounds.compact)

/-- The kernel delivers at most what is asked for. -/
def ReadAllowed (mbuf : Msgbuf) (result : ReadResult) : Prop :=
  result.bytes.length ≤ msgbufRequest mbuf

theorem msgbufRead_count (mbuf : Msgbuf) (result : ReadResult) :
    (msgbufRead mbuf result).1 = result.count := rfl

theorem ReadResult.count_pos (result : ReadResult) : 0 < result.count ↔ result.bytes ≠ [] := by
  cases result with
  | data bytes => simp [ReadResult.count, ReadResult.bytes, List.length_pos_iff]
  | error => simp [ReadResult.count, ReadResult.bytes]

theorem msgbufRead_buffered {mbuf : Msgbuf} (result : ReadResult)
    (ordered : mbuf.start ≤ mbuf.stop) :
    buffered (msgbufRead mbuf result).2 = buffered mbuf ++ result.bytes := by
  obtain ⟨n, split⟩ := Nat.exists_eq_add_of_le ordered
  unfold msgbufRead
  dsimp only
  have grown : ∀ m : Msgbuf, buffered (if m.stop ≥ m.len then msgbufGrow m else m) =
      buffered m := by
    intro m
    split_ifs <;> rfl
  rw [grown]
  split_ifs with some'
  · unfold buffered
    dsimp only
    rw [split, Nat.add_sub_cancel_left, Nat.add_assoc, Nat.add_sub_cancel_left, load_store_append]
  · rw [gt_iff_lt, ReadResult.count_pos, not_not] at some'
    rw [some', List.append_nil]

theorem msgbufRead_nothing (mbuf : Msgbuf) {result : ReadResult} (nothing : result.count ≤ 0) :
    buffered (msgbufRead mbuf result).2 = buffered mbuf := by
  unfold msgbufRead
  dsimp only
  rw [if_neg (not_lt.mpr nothing)]
  split_ifs <;> rfl

theorem msgbufRead_compact {mbuf : Msgbuf} (result : ReadResult) (compact : Compact mbuf) :
    Compact (msgbufRead mbuf result).2 := by
  have ordered := compact.ordered
  have grown : ∀ m : Msgbuf, Compact m → Compact (if m.stop ≥ m.len then msgbufGrow m else m) := by
    intro m compact
    split_ifs
    · exact ⟨compact.ordered, compact.reset⟩
    · exact compact
  apply grown
  split_ifs with some'
  · rw [gt_iff_lt, ReadResult.count_pos, ← List.length_pos_iff] at some'
    constructor
    · dsimp only
      omega
    · dsimp only
      omega
  · exact compact

theorem msgbufRead_inBounds {mbuf : Msgbuf} (result : ReadResult) (bounds : InBounds mbuf)
    (allowed : ReadAllowed mbuf result) : InBounds (msgbufRead mbuf result).2 := by
  have ordered := bounds.ordered
  have inside := bounds.inside
  have reset := bounds.reset
  unfold ReadAllowed msgbufRequest at allowed
  unfold msgbufRead
  dsimp only
  have step : InBounds (if result.count > 0 then
      { mbuf with buf := store mbuf.buf mbuf.stop result.bytes,
                  stop := mbuf.stop + result.bytes.length } else mbuf) := by
    split_ifs with some'
    · rw [gt_iff_lt, ReadResult.count_pos, ← List.length_pos_iff] at some'
      constructor
      · dsimp only
        omega
      · dsimp only
        omega
      · dsimp only
        omega
    · exact bounds
  split_ifs at step ⊢
  · exact msgbufGrow_inBounds step
  · exact step
  · exact msgbufGrow_inBounds step
  · exact step

theorem msgbufRead_room {mbuf : Msgbuf} (result : ReadResult) (bounds : InBounds mbuf)
    (allowed : ReadAllowed mbuf result) :
    (msgbufRead mbuf result).2.stop < (msgbufRead mbuf result).2.len := by
  have after := (msgbufRead_inBounds result bounds allowed).inside
  unfold msgbufRead at after ⊢
  dsimp only at after ⊢
  split_ifs with _ full full
  · have positive := mbuf.allocated
    have inside := bounds.inside
    unfold ReadAllowed msgbufRequest at allowed
    change mbuf.stop + result.bytes.length < mbuf.len * 2
    omega
  · exact not_le.mp full
  · have positive := mbuf.allocated
    have inside := bounds.inside
    change mbuf.stop < mbuf.len * 2
    omega
  · exact not_le.mp full

end Oflops.Stream.Buffer
