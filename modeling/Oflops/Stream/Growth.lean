import Oflops.Stream.Fifo

/-! How far a `msgbuf` grows. Its length only ever doubles, and room at the front comes
back only when the buffer is drained, so what decides is how far back the bytes end and
not how many of them there are. -/

namespace Oflops.Stream.Growth
open Buffer Fifo

/-- The operations its users perform; nobody outside clears it or makes it grow. -/
def Ordinary : BufferOp → Prop
  | .clear | .grow => False
  | _ => True

/-- The operations are performed one after the other, with answers the kernel may give. -/
def Performs (mbuf : Msgbuf) : List BufferOp → Prop
  | [] => True
  | op :: ops => Ordinary op ∧ Allowed mbuf op ∧ Performs (apply mbuf op).after ops

def states (mbuf : Msgbuf) : List BufferOp → List Msgbuf
  | [] => [mbuf]
  | op :: ops => mbuf :: states (apply mbuf op).after ops

def peak (mbuf : Msgbuf) : List BufferOp → Nat
  | [] => msgbufCountBuffered mbuf
  | op :: ops => max (msgbufCountBuffered mbuf) (peak (apply mbuf op).after ops)

def MemoryBounded (bufsize : Nat) (mbuf : Msgbuf) (ops : List BufferOp) : Prop :=
  ∀ state ∈ states mbuf ops, state.len ≤ 2 * max bufsize (peak mbuf ops) + 1

/-- Where the bytes end that an operation adds to those before it: a push may fill `size` bytes, a
read keeps room for the next one. -/
def EndsWithin (size : Nat) (mbuf : Msgbuf) : BufferOp → Prop
  | .push bytes => mbuf.stop + bytes.length ≤ size
  | .read result => mbuf.stop + result.bytes.length < size
  | _ => True

def StaysWithin (size : Nat) (mbuf : Msgbuf) : List BufferOp → Prop
  | [] => True
  | op :: ops =>
      EndsWithin size mbuf op ∧ StaysWithin size (apply mbuf op).after ops

instance : DecidablePred Ordinary
  | .push _ | .read _ | .pull _ _ | .write _ _ => isTrue trivial
  | .clear | .grow => isFalse id

instance (mbuf : Msgbuf) : DecidablePred (Allowed mbuf)
  | .read result => inferInstanceAs (Decidable (result.bytes.length ≤ msgbufRequest mbuf))
  | .write len count =>
      decidable_of_iff (∀ sendLen ∈ msgbufSendLen mbuf len, count ≤ (sendLen : Int)) Iff.rfl
  | .push _ | .pull _ _ | .clear | .grow => isTrue trivial

instance instDecidablePerforms (mbuf : Msgbuf) :
    (ops : List BufferOp) → Decidable (Performs mbuf ops)
  | [] => isTrue trivial
  | op :: ops =>
      have := instDecidablePerforms (apply mbuf op).after ops
      inferInstanceAs (Decidable (_ ∧ _ ∧ _))

instance (size : Nat) (mbuf : Msgbuf) : DecidablePred (EndsWithin size mbuf)
  | .push bytes => inferInstanceAs (Decidable (mbuf.stop + bytes.length ≤ size))
  | .read result => inferInstanceAs (Decidable (mbuf.stop + result.bytes.length < size))
  | .pull _ _ | .write _ _ | .clear | .grow => isTrue trivial

instance instDecidableStaysWithin (size : Nat) (mbuf : Msgbuf) :
    (ops : List BufferOp) → Decidable (StaysWithin size mbuf ops)
  | [] => isTrue trivial
  | op :: ops =>
      have := instDecidableStaysWithin size (apply mbuf op).after ops
      inferInstanceAs (Decidable (_ ∧ _))

instance (bufsize : Nat) (mbuf : Msgbuf) (ops : List BufferOp) :
    Decidable (MemoryBounded bufsize mbuf ops) :=
  inferInstanceAs (Decidable (∀ state ∈ states mbuf ops, _))

theorem mem_states_self (mbuf : Msgbuf) (ops : List BufferOp) : mbuf ∈ states mbuf ops := by
  cases ops <;> simp [states]

theorem StaysWithin.mono {size larger : Nat} {mbuf : Msgbuf} {ops : List BufferOp}
    (stays : StaysWithin size mbuf ops) (le : size ≤ larger) : StaysWithin larger mbuf ops := by
  induction ops generalizing mbuf with
  | nil => trivial
  | cons op ops ih =>
    refine ⟨?_, ih stays.2⟩
    cases op with
    | push bytes => exact stays.1.trans le
    | read result => exact Nat.lt_of_lt_of_le stays.1 le
    | _ => trivial

/-! ### One operation -/

theorem double_le {n j k : Nat} (lt : n * 2 ^ j < n * 2 ^ k) : n * 2 ^ j * 2 ≤ n * 2 ^ k := by
  have exponent : j < k := (Nat.pow_lt_pow_iff_right (by decide)).mp (Nat.lt_of_mul_lt_mul_left lt)
  calc n * 2 ^ j * 2 = n * 2 ^ (j + 1) := by rw [pow_succ, Nat.mul_assoc]
    _ ≤ n * 2 ^ k := Nat.mul_le_mul_left n (Nat.pow_le_pow_right (by decide) exponent)

theorem growFor_doubles (mbuf : Msgbuf) (count : Nat) :
    ∃ k, (growFor mbuf count).len = mbuf.len * 2 ^ k := by
  fun_induction growFor mbuf count with
  | case1 mbuf full ih =>
    obtain ⟨k, grown⟩ := ih
    refine ⟨k + 1, grown.trans ?_⟩
    change mbuf.len * 2 * 2 ^ k = mbuf.len * 2 ^ (k + 1)
    rw [pow_succ', Nat.mul_assoc]
  | case2 mbuf fits => exact ⟨0, (Nat.mul_one _).symm⟩

/-- The growth loop stops at the first doubling that is long enough. -/
theorem growFor_least {n j k count : Nat} {mbuf : Msgbuf} (len : mbuf.len = n * 2 ^ j)
    (le : mbuf.len ≤ n * 2 ^ k) (room : mbuf.stop + count ≤ n * 2 ^ k) :
    (growFor mbuf count).len ≤ n * 2 ^ k := by
  fun_induction growFor mbuf count generalizing j with
  | case1 mbuf full ih =>
    have doubled : mbuf.len * 2 = n * 2 ^ (j + 1) := by rw [len, pow_succ, Nat.mul_assoc]
    apply ih doubled
    · change mbuf.len * 2 ≤ n * 2 ^ k
      rw [len] at full ⊢
      exact double_le (Nat.lt_of_lt_of_le full room)
    · exact room
  | case2 mbuf fits => exact le

theorem msgbufRead_fields (mbuf : Msgbuf) (result : ReadResult) :
    (msgbufRead mbuf result).2.stop = mbuf.stop + result.bytes.length ∧
      (msgbufRead mbuf result).2.len =
        if mbuf.stop + result.bytes.length ≥ mbuf.len then mbuf.len * 2 else mbuf.len := by
  unfold msgbufRead
  dsimp only
  by_cases some' : result.count > 0
  · by_cases full : mbuf.stop + result.bytes.length ≥ mbuf.len <;>
      simp [some', full, msgbufGrow]
  · have none' : result.bytes = [] := not_not.mp (mt (ReadResult.count_pos result).mpr some')
    by_cases full : mbuf.stop ≥ mbuf.len <;> simp [some', none', full, msgbufGrow]

theorem take_len {mbuf : Msgbuf} (bounds : InBounds mbuf) {op : BufferOp}
    (allowed : Allowed mbuf op)
    (takes : (∃ dest count, op = .pull dest count) ∨ ∃ len count, op = .write len count) :
    (apply mbuf op).after.len = mbuf.len := by
  rcases takes with ⟨dest, count, rfl⟩ | ⟨len, count, rfl⟩
  · simp only [apply]
    rcases pull_cases mbuf count with refused | ⟨n, _, _, moved⟩
    · rw [refused]
    · rw [moved, advance_len]
  · simp only [apply]
    rcases msgbufWrite_cases len count bounds allowed with ⟨ret, _, refused⟩ | ⟨n, _, _, moved⟩
    · rw [refused]
    · rw [moved, advance_len]

theorem apply_doubles {mbuf : Msgbuf} {op : BufferOp} (bounds : InBounds mbuf)
    (ordinary : Ordinary op) (allowed : Allowed mbuf op) :
    ∃ k, (apply mbuf op).after.len = mbuf.len * 2 ^ k := by
  cases op with
  | push bytes => exact growFor_doubles mbuf bytes.length
  | read result =>
    simp only [apply, (msgbufRead_fields mbuf result).2]
    split_ifs
    · exact ⟨1, rfl⟩
    · exact ⟨0, (Nat.mul_one _).symm⟩
  | pull dest count =>
    exact ⟨0, (take_len bounds allowed (Or.inl ⟨dest, count, rfl⟩)).trans (Nat.mul_one _).symm⟩
  | write len count =>
    exact ⟨0, (take_len bounds allowed (Or.inr ⟨len, count, rfl⟩)).trans (Nat.mul_one _).symm⟩
  | clear => exact ordinary.elim
  | grow => exact ordinary.elim

theorem apply_endsWithin {mbuf : Msgbuf} (op : BufferOp) (bounds : InBounds mbuf)
    (allowed : Allowed mbuf op) :
    EndsWithin (apply mbuf op).after.len mbuf op := by
  have after := apply_inBounds op bounds allowed
  cases op with
  | push bytes =>
    rw [EndsWithin, ← msgbufPush_stop]
    exact after.inside
  | read result =>
    rw [EndsWithin, ← (msgbufRead_fields mbuf result).1]
    exact msgbufRead_room result bounds allowed
  | _ => trivial

theorem apply_least {n j k : Nat} {mbuf : Msgbuf} {op : BufferOp} (bounds : InBounds mbuf)
    (ordinary : Ordinary op) (allowed : Allowed mbuf op) (len : mbuf.len = n * 2 ^ j)
    (le : mbuf.len ≤ n * 2 ^ k) (ends : EndsWithin (n * 2 ^ k) mbuf op) :
    (apply mbuf op).after.len ≤ n * 2 ^ k := by
  cases op with
  | push bytes => exact growFor_least len le ends
  | read result =>
    simp only [apply, (msgbufRead_fields mbuf result).2]
    split_ifs with full
    · rw [len] at full ⊢
      exact double_le (Nat.lt_of_le_of_lt full ends)
    · exact le
  | pull dest count => exact (take_len bounds allowed (Or.inl ⟨dest, count, rfl⟩)).trans_le le
  | write len count => exact (take_len bounds allowed (Or.inr ⟨len, count, rfl⟩)).trans_le le
  | clear => exact ordinary.elim
  | grow => exact ordinary.elim

/-! ### Whole runs -/

theorem reaches_length {mbuf : Msgbuf} {ops : List BufferOp} (bounds : InBounds mbuf)
    (performed : Performs mbuf ops) :
    ∃ k, (∃ state ∈ states mbuf ops, state.len = mbuf.len * 2 ^ k) ∧
      StaysWithin (mbuf.len * 2 ^ k) mbuf ops := by
  -- the exponent is the number of doublings, so it adds up along the run
  induction ops generalizing mbuf with
  | nil => exact ⟨0, ⟨mbuf, mem_states_self mbuf [], (Nat.mul_one _).symm⟩, trivial⟩
  | cons op ops ih =>
    obtain ⟨ordinary, allowed, rest⟩ := performed
    obtain ⟨a, grown⟩ := apply_doubles bounds ordinary allowed
    obtain ⟨k, ⟨state, reached, len⟩, stays⟩ := ih (apply_inBounds op bounds allowed) rest
    have total : (apply mbuf op).after.len * 2 ^ k = mbuf.len * 2 ^ (a + k) := by
      rw [grown, pow_add, Nat.mul_assoc]
    refine ⟨a + k, ⟨state, List.mem_cons_of_mem _ reached, len.trans total⟩, ?_⟩
    rw [← total]
    have ends : StaysWithin (apply mbuf op).after.len mbuf [op] :=
      ⟨apply_endsWithin op bounds allowed, trivial⟩
    exact ⟨(ends.mono (Nat.le_mul_of_pos_right _ (Nat.two_pow_pos k))).1, stays⟩

theorem length_le {n j k : Nat} {mbuf : Msgbuf} {ops : List BufferOp} (bounds : InBounds mbuf)
    (performed : Performs mbuf ops) (len : mbuf.len = n * 2 ^ j) (le : mbuf.len ≤ n * 2 ^ k)
    (stays : StaysWithin (n * 2 ^ k) mbuf ops) :
    ∀ state ∈ states mbuf ops, state.len ≤ n * 2 ^ k := by
  -- the invariant is that the length is itself a doubling of `n`: it cannot step over `n * 2 ^ k`
  induction ops generalizing mbuf j with
  | nil =>
    intro state reached
    rw [List.mem_singleton.mp reached]
    exact le
  | cons op ops ih =>
    intro state reached
    obtain ⟨ordinary, allowed, rest⟩ := performed
    rcases List.mem_cons.mp reached with rfl | later
    · exact le
    · obtain ⟨a, grown⟩ := apply_doubles bounds ordinary allowed
      have doubled : (apply mbuf op).after.len = n * 2 ^ (j + a) := by
        rw [grown, len, pow_add, Nat.mul_assoc]
      exact ih (apply_inBounds op bounds allowed) rest doubled
        (apply_least bounds ordinary allowed len le stays.1) stays.2 state later

/-- The memory stays within twice what is in use exactly if the bytes always end within a
doubling of the initial size that does. -/
theorem memory_bounded_iff (bufsize : Nat) (positive : 0 < bufsize) (uninitialised : Nat → UInt8)
    (ops : List BufferOp) (performed : Performs (msgbufNew bufsize positive uninitialised) ops) :
    MemoryBounded bufsize (msgbufNew bufsize positive uninitialised) ops ↔
      ∃ k, bufsize * 2 ^ k ≤
          2 * max bufsize (peak (msgbufNew bufsize positive uninitialised) ops) + 1 ∧
        StaysWithin (bufsize * 2 ^ k) (msgbufNew bufsize positive uninitialised) ops := by
  have bounds := msgbufNew_inBounds bufsize positive uninitialised
  constructor
  · intro bounded
    obtain ⟨k, ⟨state, reached, len⟩, stays⟩ := reaches_length bounds performed
    exact ⟨k, len ▸ bounded state reached, stays⟩
  · rintro ⟨k, small, stays⟩ state reached
    have large : bufsize ≤ bufsize * 2 ^ k := Nat.le_mul_of_pos_right _ (Nat.two_pow_pos k)
    exact (length_le bounds performed (j := 0) (Nat.mul_one _).symm large stays state
      reached).trans small

theorem memory_bounded_iff_echo :
    let fresh := msgbufNew 2 (by decide) (fun _ => 0)
    let ops : List BufferOp := [.push [1, 2], .write 0 1, .pull none 1, .push [3, 4]]
    Performs fresh ops ∧ MemoryBounded 2 fresh ops :=
  ⟨by decide +kernel, (memory_bounded_iff 2 (by decide) (fun _ => 0) _ (by decide +kernel)).mpr
    ⟨0, by decide +kernel, by decide +kernel⟩⟩

/-- Two bytes, of which one goes out before the next one comes in, three times. -/
def slowReader : List BufferOp :=
  [.push [1, 2], .write 0 1, .push [3], .write 0 1, .push [4], .write 0 1, .push [5]]

theorem memory_outgrows_occupancy :
    let fresh := msgbufNew 2 (by decide) (fun _ => 0)
    Performs fresh slowReader ∧ peak fresh slowReader = 2 ∧ ¬ MemoryBounded 2 fresh slowReader := by
  decide +kernel

/-! ### A slow reader -/

/-- One byte goes out and one comes in, again and again. -/
def refills : Nat → List BufferOp
  | 0 => []
  | m + 1 => .write 0 1 :: .push [0] :: refills m

theorem write_one (mbuf : Msgbuf) (some' : mbuf.start + 1 < mbuf.stop) :
    (apply mbuf (.write 0 1)).after = { mbuf with start := mbuf.start + 1 } := by
  have left : ¬ mbuf.start + 1 ≥ mbuf.stop := not_le.mpr some'
  simp [apply, msgbufWrite, msgbufSendLen, left]

theorem refills_grow {p : Nat} (m : Nat) (mbuf : Msgbuf) (several : 2 ≤ p) (bounds : InBounds mbuf)
    (held : mbuf.stop = mbuf.start + p) :
    Performs mbuf (refills m) ∧ peak mbuf (refills m) = p ∧
      ∃ state ∈ states mbuf (refills m), mbuf.stop + m ≤ state.len := by
  induction m generalizing mbuf with
  | zero =>
    refine ⟨trivial, ?_, mbuf, mem_states_self mbuf [], bounds.inside⟩
    change mbuf.stop - mbuf.start = p
    omega
  | succ m ih =>
    have written := write_one mbuf (by omega)
    have allowed : Allowed mbuf (.write 0 1) := by
      intro sendLen offered
      simp only [msgbufSendLen] at offered
      rw [if_neg (by decide), Option.some.injEq] at offered
      omega
    have middle := apply_inBounds (.write 0 1) bounds allowed
    have start : (apply mbuf (.write 0 1)).after.start = mbuf.start + 1 := by rw [written]
    have stop : (apply mbuf (.write 0 1)).after.stop = mbuf.stop := by rw [written]
    have refilled : (msgbufPush (apply mbuf (.write 0 1)).after [0]).stop = mbuf.stop + 1 := by
      rw [msgbufPush_stop, stop, List.length_singleton]
    obtain ⟨performs, most, state, reached, long⟩ :=
      ih (msgbufPush (apply mbuf (.write 0 1)).after [0]) (msgbufPush_inBounds [0] middle) (by
        rw [refilled, msgbufPush_start, start]
        omega)
    refine ⟨⟨trivial, allowed, trivial, trivial, performs⟩, ?_, state,
      List.mem_cons_of_mem _ (List.mem_cons_of_mem _ reached), ?_⟩
    · change max (mbuf.stop - mbuf.start) (max ((apply mbuf (.write 0 1)).after.stop -
        (apply mbuf (.write 0 1)).after.start)
        (peak (msgbufPush (apply mbuf (.write 0 1)).after [0]) (refills m))) = p
      rw [most, start, stop]
      omega
    · omega

/-- However few bytes are in use at once, a reader that never drains the buffer makes it
exceed every bound. -/
theorem memory_unbounded (bufsize : Nat) (positive : 0 < bufsize) (uninitialised : Nat → UInt8)
    (p : Nat) (several : 2 ≤ p) (bound : Nat) :
    ∃ ops, Performs (msgbufNew bufsize positive uninitialised) ops ∧
      peak (msgbufNew bufsize positive uninitialised) ops = p ∧
      ∃ state ∈ states (msgbufNew bufsize positive uninitialised) ops, bound < state.len := by
  let fresh := msgbufNew bufsize positive uninitialised
  let filled := msgbufPush fresh (List.replicate p 0)
  have held : filled.stop = filled.start + p := by
    rw [msgbufPush_stop, msgbufPush_start, List.length_replicate]
    rfl
  obtain ⟨performs, most, state, reached, long⟩ := refills_grow bound filled several
    (msgbufPush_inBounds _ (msgbufNew_inBounds bufsize positive uninitialised)) held
  refine ⟨.push (List.replicate p 0) :: refills bound, ⟨trivial, trivial, performs⟩, ?_, state,
    List.mem_cons_of_mem _ reached, by omega⟩
  change max 0 (peak filled (refills bound)) = p
  rw [most, Nat.zero_max]

end Oflops.Stream.Growth
