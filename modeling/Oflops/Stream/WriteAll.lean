import Oflops.Stream.Buffer

/-! `msgbuf_write_all`: writes are repeated until the buffer is drained or one of them
fails for good, whatever the kernel accepts each time. -/

namespace Oflops.Stream.WriteAll
open Lib.Memory Buffer

/-- `EWOULDBLOCK` is `EAGAIN`. -/
inductive Errno where
  | eagain
  | eintr
  | other (code : Nat)
  deriving DecidableEq, Repr

def Errno.retried : Errno → Bool
  | .eagain | .eintr => true
  | .other _ => false

inductive WriteResult where
  | accepted (count : Nat)
  | failed (errno : Errno)
  deriving DecidableEq, Repr

def WriteResult.count : WriteResult → Int
  | .accepted count => count
  | .failed _ => -1

/-- A call that succeeds leaves `errno` as it was. -/
def WriteResult.errno (before : Errno) : WriteResult → Errno
  | .accepted _ => before
  | .failed errno => errno

/-- The return value, the bytes handed to the socket and the buffer afterwards. -/
structure Outcome where
  ret : Int
  sent : List UInt8
  after : Msgbuf

/-- The loop of `msgbuf_write_all`. There is no outcome as long as the loop goes on: the
answers are used up, or `msgbuf_write` refuses every time and an old `errno` is retried. -/
def writeAllLoop (len : Int) (mbuf : Msgbuf) (errno : Errno) (count : Int) :
    List WriteResult → Option Outcome
  | [] =>
      if mbuf.start < mbuf.stop then
        if msgbufSendLen mbuf len = none ∧ ¬ errno.retried then some ⟨-1, [], mbuf⟩ else none
      else some ⟨count, [], mbuf⟩
  | result :: results =>
      if mbuf.start < mbuf.stop then
        match msgbufSendLen mbuf len with
        | none => if errno.retried then none else some ⟨-1, [], mbuf⟩
        | some _ =>
            let errno := result.errno errno
            let (tmp, sent, after) := msgbufWrite mbuf len result.count
            if tmp < 0 ∧ ¬ errno.retried then some ⟨tmp, sent, after⟩
            else
              (writeAllLoop len after errno (if count > 0 then count + tmp else count) results).map
                (fun outcome => { outcome with sent := sent ++ outcome.sent })
      else some ⟨count, [], mbuf⟩

def msgbufWriteAll (mbuf : Msgbuf) (len : Int) (errno : Errno) (results : List WriteResult) :
    Option Outcome :=
  writeAllLoop len mbuf errno 0 results

/-- The answers accept the `n` bytes in parts, with retried errors in between. -/
def Drains : Nat → List WriteResult → Prop
  | 0, _ => True
  | _ + 1, [] => False
  | n + 1, .accepted count :: results => count ≤ n + 1 ∧ Drains (n + 1 - count) results
  | n + 1, .failed errno :: results => errno.retried ∧ Drains (n + 1) results

/-- The answers accept fewer than the `n` bytes before one of them is a fatal error. -/
def Breaks : Nat → List WriteResult → Prop
  | 0, _ => False
  | _ + 1, [] => False
  | n + 1, .accepted count :: results => count ≤ n + 1 ∧ Breaks (n + 1 - count) results
  | n + 1, .failed errno :: results => ¬ errno.retried ∨ Breaks (n + 1) results

def DrainsAndReports (mbuf : Msgbuf) (errno : Errno) (results : List WriteResult) : Prop :=
  ∃ outcome, msgbufWriteAll mbuf 0 errno results = some outcome ∧
    (Drains (buffered mbuf).length results →
      outcome.ret = (buffered mbuf).length ∧ outcome.sent = buffered mbuf ∧
        buffered outcome.after = []) ∧
    (Breaks (buffered mbuf).length results →
      outcome.ret < 0 ∧ outcome.sent ++ buffered outcome.after = buffered mbuf)

theorem Drains.not_breaks {n : Nat} {results : List WriteResult} (drains : Drains n results) :
    ¬ Breaks n results := by
  fun_induction Drains n results with
  | case1 results => simp [Breaks]
  | case2 => exact drains.elim
  | case3 n count results ih => exact fun breaks => ih drains.2 breaks.2
  | case4 n errno results ih =>
    rintro (fatal | later)
    · exact fatal drains.1
    · exact ih drains.2 later

/-! ### One turn of the loop -/

@[simp] theorem msgbufSendLen_zero (mbuf : Msgbuf) :
    msgbufSendLen mbuf 0 = some (mbuf.stop - mbuf.start) := by
  simp [msgbufSendLen]

theorem msgbufWrite_unchunked (mbuf : Msgbuf) (count : Nat) :
    msgbufWrite mbuf 0 count =
      ((count : Int), load mbuf.buf mbuf.start count, advance mbuf count) := by
  simp only [msgbufWrite, msgbufSendLen_zero, Int.toNat_natCast]
  rcases Nat.eq_zero_or_pos count with rfl | positive
  · simp [advance]
  · have sent : (count : Int) > 0 := Int.natCast_pos.mpr positive
    simp only [sent, if_true]
    rfl

theorem msgbufWrite_failed {mbuf : Msgbuf} (some' : mbuf.start < mbuf.stop) :
    msgbufWrite mbuf 0 (-1) = (-1, [], mbuf) := by
  simp [msgbufWrite, not_le.mpr some']

theorem loop_drained {mbuf : Msgbuf} {errno : Errno} {total : Int} (results : List WriteResult)
    (drained : mbuf.stop ≤ mbuf.start) :
    writeAllLoop 0 mbuf errno total results = some ⟨total, [], mbuf⟩ := by
  cases results <;> simp only [writeAllLoop, if_neg (not_lt.mpr drained)]

theorem loop_accepted {mbuf : Msgbuf} {errno : Errno} {total : Int} {count : Nat}
    {results : List WriteResult} (some' : mbuf.start < mbuf.stop) :
    writeAllLoop 0 mbuf errno total (.accepted count :: results) =
      (writeAllLoop 0 (advance mbuf count) errno (if total > 0 then total + count else total)
        results).map (fun outcome =>
          { outcome with sent := load mbuf.buf mbuf.start count ++ outcome.sent }) := by
  have kept : ¬ ((count : Int) < 0 ∧ ¬ errno.retried) := by omega
  simp only [writeAllLoop, if_pos some', msgbufSendLen_zero, WriteResult.count, WriteResult.errno,
    msgbufWrite_unchunked, if_neg kept]

theorem loop_failed {mbuf : Msgbuf} {before errno : Errno} {total : Int}
    {results : List WriteResult} (some' : mbuf.start < mbuf.stop) :
    writeAllLoop 0 mbuf before total (.failed errno :: results) =
      if errno.retried then
        writeAllLoop 0 mbuf errno (if total > 0 then total + -1 else total) results
      else some ⟨-1, [], mbuf⟩ := by
  simp only [writeAllLoop, if_pos some', msgbufSendLen_zero, WriteResult.count, WriteResult.errno,
    msgbufWrite_failed some']
  cases retried : errno.retried <;> simp

/-! ### The whole loop -/

theorem advance_held {n count : Nat} {mbuf : Msgbuf} (held : (buffered mbuf).length = n + 1)
    (part : count ≤ n + 1) : (buffered (advance mbuf count)).length = n + 1 - count := by
  have split := congrArg List.length (advance_buffered (part.trans_eq held.symm))
  rw [List.length_append, load_length] at split
  omega

theorem lt_of_held {n : Nat} {mbuf : Msgbuf} (held : (buffered mbuf).length = n + 1) :
    mbuf.start < mbuf.stop := by
  rw [buffered_length] at held
  omega

/-- The counter is only added to once it is positive, so it never leaves zero. -/
theorem loop_drains {n : Nat} {mbuf : Msgbuf} (errno : Errno) {results : List WriteResult}
    (held : (buffered mbuf).length = n) (drains : Drains n results) :
    ∃ after, writeAllLoop 0 mbuf errno 0 results = some ⟨0, buffered mbuf, after⟩ ∧
      buffered after = [] := by
  fun_induction Drains n results generalizing mbuf errno with
  | case1 results =>
    have nothing := List.eq_nil_of_length_eq_zero held
    rw [buffered_length] at held
    exact ⟨mbuf, by rw [loop_drained results (by omega), nothing], nothing⟩
  | case2 => exact drains.elim
  | case3 n count results ih =>
    obtain ⟨after, rest, empty⟩ := ih errno (advance_held held drains.1) drains.2
    refine ⟨after, ?_, empty⟩
    rw [loop_accepted (lt_of_held held), if_neg (by decide), rest,
      advance_buffered (drains.1.trans_eq held.symm)]
    rfl
  | case4 n errno' results ih =>
    obtain ⟨after, rest, empty⟩ := ih errno' held drains.2
    refine ⟨after, ?_, empty⟩
    rw [loop_failed (lt_of_held held), if_pos drains.1, if_neg (by decide), rest]

theorem loop_breaks {n : Nat} {mbuf : Msgbuf} (errno : Errno) {results : List WriteResult}
    (held : (buffered mbuf).length = n) (breaks : Breaks n results) :
    ∃ sent after, writeAllLoop 0 mbuf errno 0 results = some ⟨-1, sent, after⟩ ∧
      sent ++ buffered after = buffered mbuf := by
  fun_induction Breaks n results generalizing mbuf errno with
  | case1 => exact breaks.elim
  | case2 => exact breaks.elim
  | case3 n count results ih =>
    obtain ⟨sent, after, rest, kept⟩ := ih errno (advance_held held breaks.1) breaks.2
    refine ⟨load mbuf.buf mbuf.start count ++ sent, after, ?_, ?_⟩
    · rw [loop_accepted (lt_of_held held), if_neg (by decide), rest]
      rfl
    · rw [List.append_assoc, kept, ← advance_buffered (breaks.1.trans_eq held.symm)]
  | case4 n errno' results ih =>
    rw [loop_failed (lt_of_held held)]
    by_cases retried : errno'.retried
    · rw [if_pos retried, if_neg (by decide)]
      exact ih errno' held (breaks.resolve_left (not_not.mpr retried))
    · exact ⟨[], mbuf, if_neg retried, rfl⟩

/-- Everything but the return value is as expected: all bytes go out in order. -/
theorem write_all_sends (mbuf : Msgbuf) (errno : Errno) (results : List WriteResult)
    (drains : Drains (buffered mbuf).length results) :
    ∃ after, msgbufWriteAll mbuf 0 errno results = some ⟨0, buffered mbuf, after⟩ ∧
      buffered after = [] :=
  loop_drains errno rfl drains

/-- `msgbuf_write_all` keeps its promise exactly if a write fails for good: a call that sends
everything returns 0 and not the number of bytes. -/
theorem write_all_reports_iff (mbuf : Msgbuf) (errno : Errno) (results : List WriteResult)
    (some' : buffered mbuf ≠ [])
    (schedule : Drains (buffered mbuf).length results ∨ Breaks (buffered mbuf).length results) :
    DrainsAndReports mbuf errno results ↔ Breaks (buffered mbuf).length results := by
  constructor
  · rintro ⟨outcome, finished, drained, -⟩
    refine schedule.resolve_left fun drains => ?_
    obtain ⟨after, sent, -⟩ := write_all_sends mbuf errno results drains
    rw [finished, Option.some.injEq] at sent
    have returned := (drained drains).1
    rw [sent] at returned
    exact some' (List.eq_nil_of_length_eq_zero (Int.ofNat_inj.mp returned.symm))
  · intro breaks
    obtain ⟨sent, after, finished, kept⟩ := loop_breaks errno rfl breaks
    have negative : (-1 : Int) < 0 := by decide
    exact ⟨_, finished, fun drains => (drains.not_breaks breaks).elim, fun _ => ⟨negative, kept⟩⟩

def threeBytes : Msgbuf := msgbufPush (msgbufNew 4 (by decide) (fun _ => 0)) [10, 11, 12]

theorem threeBytes_buffered : buffered threeBytes = [10, 11, 12] := by decide +kernel

theorem write_all_reports_iff_broken :
    let results := [.accepted 1, .failed .eagain, .accepted 1, .failed (.other 32)]
    Breaks (buffered threeBytes).length results ∧ DrainsAndReports threeBytes .eagain results := by
  have breaks : Breaks (buffered threeBytes).length
      [.accepted 1, .failed .eagain, .accepted 1, .failed (.other 32)] := by
    rw [threeBytes_buffered]
    exact ⟨by decide, Or.inr ⟨by decide, Or.inl (by decide)⟩⟩
  have some' : buffered threeBytes ≠ [] := by simp [threeBytes_buffered]
  exact ⟨breaks, (write_all_reports_iff _ .eagain _ some' (Or.inr breaks)).mpr breaks⟩

/-- A single write takes all three bytes, and the call returns 0. -/
theorem write_all_returns_zero :
    Drains (buffered threeBytes).length [.accepted 3] ∧
      (msgbufWriteAll threeBytes 0 .eagain [.accepted 3]).map Outcome.ret = some 0 ∧
      (msgbufWriteAll threeBytes 0 .eagain [.accepted 3]).map Outcome.sent = some [10, 11, 12] ∧
      ¬ DrainsAndReports threeBytes .eagain [.accepted 3] := by
  have drains : Drains (buffered threeBytes).length [.accepted 3] := by
    rw [threeBytes_buffered]
    exact ⟨by decide, trivial⟩
  obtain ⟨after, finished, -⟩ := write_all_sends threeBytes .eagain _ drains
  refine ⟨drains, ?_, ?_, ?_⟩
  · rw [finished]
    rfl
  · rw [finished, Option.map_some, threeBytes_buffered]
  · rintro ⟨outcome, again, drained, -⟩
    rw [finished, Option.some.injEq] at again
    have returned := (drained drains).1
    simp [← again, threeBytes_buffered] at returned

end Oflops.Stream.WriteAll
