import Mathlib.Data.List.Infix
import Oflops.Lib.FloatRounding
import Oflops.Traffic.Flows

/-! Traffic generation by the NetFPGA card (`start_nf_traffic_generator` of `traffic_generator.c`):
the packets of every channel are made in advance and loaded into a queue, which the card plays over
and over. The calls of the card's library are the output of the model. -/

namespace Oflops.Traffic.CardGenerator
open Lib.Bytes Lib.FloatRounding Lib.MachineInt Lib.Record Time Packet Wire UserLoop Flows

/-- The details of a channel, with the fields that only this generator reads. -/
structure CardDet extends TrafGenDet where
  pktCount : UInt64
  flags : List Char

/-- `strstr(det->flags, "IPDST_RND") != NULL`. -/
def isRandom (det : CardDet) : Bool := ['I', 'P', 'D', 'S', 'T', '_', 'R', 'N', 'D'] <:+: det.flags

/-- The calls of the card's library. -/
inductive NfCall where
  | init
  | rateLimiterDisable (queue : Nat)
  | setNumberIterations (iterations : UInt32) (queue : Nat)
  | loadPacket (frame : List UInt8) (queue : Nat) (delay : UInt32)
  | start
  | finish
  deriving DecidableEq

def maxPackets (det : CardDet) : UInt32 :=
  if det.pktCount ≠ 0 then det.pktCount.toUInt32 else 100000000

/-- `ntohl(inet_addr(det->dst_ip_max)) - ntohl(inet_addr(det->dst_ip_min))`. -/
def flowSpan (det : CardDet) : UInt32 :=
  UInt32.ofNat (ntohl (inetAddr det.dstIpMax)) - UInt32.ofNat (ntohl (inetAddr det.dstIpMin))

/-- `flow_num` in the first loop, which adds a `long`, and in the second, which adds an `int`. -/
def flowNumLong (det : CardDet) : Int := int32 ((flowSpan det).toNat + 1)
def flowNum (det : CardDet) : Int := int32 (flowSpan det + 1).toNat

def double (x : ℚ) : ℚ := roundSigned 53 x

/-- A conversion to `int`, towards zero; it is undefined outside the range. -/
def toInt (x : ℚ) : Option Int := checkedInt (if x < 0 then -⌊-x⌋ else ⌊x⌋)

/-- `pkt_count` in the first loop: `1.2*flow_num`. -/
def firstCount (det : CardDet) : Option Int :=
  if isRandom det then toInt (double (double (6 / 5) * flowNumLong det)) else some (flowNumLong det)

/-- `pkt_count` in the second loop: `pkt_count += 0.2*flow_num`. -/
def secondCount (det : CardDet) : Option Int :=
  if isRandom det then toInt (double (flowNum det + double (double (1 / 5) * flowNum det)))
  else some (flowNum det)

def iterationsOf (det : CardDet) : Option UInt32 := do
  let count ← firstCount det
  some (if count ≠ 0 then maxPackets det / UInt32.ofInt count else maxPackets det)

/-- The first loop, from channel `ix` on: the array `iteration`. -/
def countIterations : Nat → List (Option CardDet) → List UInt32 → Option (List UInt32)
  | _, [], iteration => some iteration
  | ix, none :: channels, iteration => countIterations (ix + 1) channels iteration
  | ix, some det :: channels, iteration => do
    let iterations ← iterationsOf det
    if ix - 1 < iteration.length then
      countIterations (ix + 1) channels (iteration.set (ix - 1) iterations)
    else none

/-- The destination of packet `i`, in network byte order; `rand` is what `rand` returns for it. -/
def destination (rand : Nat → Nat) (det : CardDet) (i : Nat) : Nat :=
  let low := UInt32.ofNat (ntohl (inetAddr det.dstIpMin))
  if isRandom det then htonl (low + UInt32.ofInt ((rand i : Int).tmod (flowNum det))).toNat
  else htonl (low + UInt32.ofNat i).toNat

/-- A new destination and the checksum that goes with it. The pointers of a packet that was too
small still lead into the packet of an earlier channel, if there was one. -/
def readdress (built : Bool) (state : PktDetails) (daddr : Nat) : Option PktDetails := do
  let ip ← state.ip
  if built then do
    let data ← writeAt state.data (ip + 16) (leBytes 4 daddr)
    let data ← writeAt data (ip + 10) [0, 0]
    let data ← writeCheck data ip
    some { state with data }
  else some state

def loadPackets (rand : Nat → Nat) (det : CardDet) (queue : Nat) (built : Bool) :
    Nat → Nat → PktDetails → Option (List NfCall × PktDetails)
  | _, 0, state => some ([], state)
  | i, left + 1, state => do
    let state ← readdress built state (destination rand det i)
    let (calls, after) ← loadPackets rand det queue built (i + 1) left state
    some (.loadPacket state.data queue det.delay :: calls, after)

def loadChannel (rand : Nat → Nat) (iteration : List UInt32) (ix : Nat) (state : PktDetails)
    (det : CardDet) :
    Option (List NfCall × PktDetails) := do
  let iterations ← if ix = 0 then none else iteration[ix - 1]?
  let (code, state, _) ← innitializeGeneratorPacket state det.toTrafGenDet
  let count ← secondCount det
  let (calls, state) ← loadPackets rand det (ix - 1) (code = 1) 0 count.toNat state
  some (.setNumberIterations iterations (ix - 1) :: calls, state)

/-- The second loop, from channel `ix` on. -/
def loadChannels (rand : Nat → Nat → Nat) (iteration : List UInt32) :
    Nat → PktDetails → List (Option CardDet) → Option (List NfCall)
  | _, _, [] => some []
  | ix, state, none :: channels => loadChannels rand iteration (ix + 1) state channels
  | ix, state, some det :: channels => do
    let (calls, state) ← loadChannel (rand ix) iteration ix state det
    let later ← loadChannels rand iteration (ix + 1) state channels
    some (calls ++ later)

/-- What a turn of the waiting loop finds: `end_traffic_generation` and `nf_gen_finished()`. -/
structure Poll where
  ended : Bool
  finished : Bool

/-- The waiting loop and the last `nf_finish`. -/
def waitLoop (dataToSend limited : Bool) : List Poll → List NfCall
  | [] => []
  | poll :: polls =>
    if poll.ended then [.finish]
    else if poll.finished ∧ dataToSend then
      if limited then [.finish, .finish] else .finish :: .start :: waitLoop dataToSend limited polls
    else waitLoop dataToSend limited polls

/-- `det->pkt_count` after the loops: of the last channel that has details. -/
def limitedBy (channels : List (Option CardDet)) : Bool :=
  (channels.reduceOption.getLast?).any fun det => det.pktCount ≠ 0

/-- The calls up to the end, or up to the last poll. -/
def startNfTrafficGenerator (rand : Nat → Nat → Nat) (channels : List (Option CardDet))
    (polls : List Poll) :
    Option (List NfCall) := do
  let iteration ← countIterations 1 (channels.drop 1) [0, 0, 0, 0]
  let loads ← loadChannels rand iteration 0 (blank 0 ⟨0, 0⟩) channels
  let dataToSend := (channels.drop 1).any Option.isSome
  some (.init :: (List.range 4).map .rateLimiterDisable ++ loads ++
    .start :: waitLoop dataToSend (limitedBy channels) polls)

/-! The two ways of counting the packets of a round. -/

theorem double_six_fifths : double (6 / 5) = 5404319552844595 / 2 ^ 52 := by
  have step : unit 53 (6 / 5) = 1 / 2 ^ 52 := by
    rw [unit_eq (e := 0) (by norm_num) (by norm_num)]
    norm_num
  have near : roundTo 53 (6 / 5) = (5404319552844595 : ℤ) * unit 53 (6 / 5) :=
    roundTo_eq (by rw [step]; norm_num) (by rw [step]; norm_num)
  rw [double, roundSigned, if_neg (by norm_num), near, step]
  norm_num

theorem double_one_fifth : double (1 / 5) = 3602879701896397 / 2 ^ 54 := by
  have step : unit 53 (1 / 5) = 1 / 2 ^ 55 := by
    rw [unit_eq (e := -3) (by norm_num) (by norm_num)]
    norm_num
  have near : roundTo 53 (1 / 5) = (7205759403792794 : ℤ) * unit 53 (1 / 5) :=
    roundTo_eq (by rw [step]; norm_num) (by rw [step]; norm_num)
  rw [double, roundSigned, if_neg (by norm_num), near, step]
  norm_num

theorem representable_eighths {m : ℕ} (few : m < 2 ^ 53) : Representable 53 (m / 8 : ℚ) :=
  ⟨m, -3, few, by norm_num [div_eq_mul_inv]⟩

theorem toInt_eq {x : ℚ} {n : ℕ} (low : n ≤ x) (high : x < n + 1) (small : n < 2 ^ 31) :
    toInt x = some (n : Int) := by
  have nonneg : (0 : ℚ) ≤ x := (Nat.cast_nonneg n).trans low
  have whole : ⌊x⌋ = (n : ℤ) := Int.floor_eq_iff.mpr ⟨by exact_mod_cast low, by exact_mod_cast high⟩
  rw [toInt, if_neg (not_lt.mpr nonneg), whole, checkedInt, if_pos (by omega)]

/-- `1.2*n` is exact where it should be a whole number. -/
theorem double_whole {k : ℕ} (positive : 0 < k) (small : 6 * k < 2 ^ 31) :
    double (double (6 / 5) * (5 * k : ℕ)) = (6 * k : ℕ) := by
  have few : (k : ℚ) < 2 ^ 31 := by exact_mod_cast (show k < 2 ^ 31 by omega)
  have some : (0 : ℚ) < k := Nat.cast_pos.mpr positive
  set x : ℚ := double (6 / 5) * (5 * k : ℕ) with product
  have value : x = 6 * k - k / 2 ^ 52 := by
    rw [product, double_six_fifths]
    push_cast
    ring
  have positive' : 0 < x := by
    rw [value]
    linarith
  have floor := Int.zpow_log_le_self (b := 2) (by decide) positive'
  have ceiling := Int.lt_zpow_succ_log_self (b := 2) (by decide) x
  push_cast at floor ceiling
  set e := Int.log 2 x with exponent
  have step : unit 53 x = 2 ^ (e + 1) / 2 ^ 53 := by
    rw [unit, ← exponent, ← zpow_natCast, ← zpow_sub₀ two_ne_zero]
    congr 1
    push_cast
    ring
  -- whole numbers of this size are whole numbers of units
  have low : e ≤ 52 := by
    by_contra high
    have power : (2 : ℚ) ^ (53 : ℤ) ≤ 2 ^ e := zpow_le_zpow_right₀ one_le_two (by omega)
    norm_num at power
    linarith
  obtain ⟨j, split⟩ := Int.le.dest low
  have whole : ((6 * k * 2 ^ j : ℕ) : ℤ) * unit 53 x = (6 * k : ℕ) := by
    have powers : (2 : ℚ) ^ j * 2 ^ (e + 1) = 2 ^ 53 := by
      rw [← zpow_natCast, ← zpow_add₀ two_ne_zero, show (j : ℤ) + (e + 1) = 53 by omega]
      norm_num
    rw [step]
    push_cast
    rw [mul_assoc, ← mul_div_assoc, powers, div_self (by norm_num), mul_one]
  have near : roundTo 53 x = ((6 * k * 2 ^ j : ℕ) : ℤ) * unit 53 x := by
    apply roundTo_eq
    · rw [whole, step]
      push_cast
      linarith
    · rw [whole]
      push_cast
      have := unit_pos (p := 53) (x := x)
      have gap : (0 : ℚ) < k / 2 ^ 52 := by positivity
      linarith
  rw [double, roundSigned, if_neg (not_lt.mpr positive'.le), near, whole]

theorem double_six_fifths_mul {n : ℕ} (positive : 0 < n) (small : 6 * n / 5 < 2 ^ 31) :
    toInt (double (double (6 / 5) * n)) = some ((6 * n / 5 : ℕ) : Int) := by
  set m := 6 * n / 5 with quotient
  have low : 5 * m ≤ 6 * n := by omega
  have high : 6 * n ≤ 5 * m + 4 := by omega
  have lowQ : (5 : ℚ) * m ≤ 6 * n := by exact_mod_cast low
  have highQ : (6 : ℚ) * n ≤ 5 * m + 4 := by exact_mod_cast high
  have few : (n : ℚ) < 2 ^ 31 := by exact_mod_cast (show n < 2 ^ 31 by omega)
  have someQ : (0 : ℚ) < n := Nat.cast_pos.mpr positive
  have value : double (6 / 5) * n = 6 / 5 * n - n / (5 * 2 ^ 52) := by
    rw [double_six_fifths]
    ring
  have top : double (double (6 / 5) * n) ≤ ((8 * m + 7 : ℕ) : ℚ) / 8 := by
    apply roundSigned_le (by positivity) (representable_eighths (by omega))
    rw [value]
    push_cast
    have gap : (0 : ℚ) < n / (5 * 2 ^ 52) := by positivity
    linarith
  have bottom : (m : ℚ) ≤ double (double (6 / 5) * n) := by
    by_cases exact : 6 * n = 5 * m
    · obtain ⟨k, rfl⟩ : ∃ k, n = 5 * k := ⟨n / 5, by omega⟩
      rw [double_whole (by omega) (by omega)]
      exact_mod_cast (show m ≤ 6 * k by omega)
    · have inside : (5 : ℚ) * m + 1 ≤ 6 * n := by exact_mod_cast (show 5 * m + 1 ≤ 6 * n by omega)
      have below : (m : ℚ) ≤ double (6 / 5) * n := by
        rw [value]
        linarith
      exact le_roundSigned (Nat.cast_nonneg m) (by decide) (representable_natCast (by omega)) below
  apply toInt_eq bottom _ small
  push_cast at top
  linarith

theorem double_add_one_fifth {n : ℕ} (positive : 0 < n) (small : 6 * n / 5 < 2 ^ 31) :
    toInt (double (n + double (double (1 / 5) * n))) = some ((6 * n / 5 : ℕ) : Int) := by
  set m := 6 * n / 5 with quotient
  set k := n / 5 with fifth
  have split : m = n + k := by omega
  have low : (5 : ℚ) * k ≤ n := by exact_mod_cast (show 5 * k ≤ n by omega)
  have high : (n : ℚ) ≤ 5 * k + 4 := by exact_mod_cast (show n ≤ 5 * k + 4 by omega)
  have few : (n : ℚ) < 2 ^ 31 := by exact_mod_cast (show n < 2 ^ 31 by omega)
  have someQ : (0 : ℚ) < n := Nat.cast_pos.mpr positive
  have value : double (1 / 5) * n = n / 5 + n / (5 * 2 ^ 54) := by
    rw [double_one_fifth]
    ring
  have gap : (0 : ℚ) < n / (5 * 2 ^ 54) := by positivity
  -- the added fifth, rounded
  have top : double (double (1 / 5) * n) ≤ ((8 * k + 7 : ℕ) : ℚ) / 8 := by
    apply roundSigned_le (by positivity) (representable_eighths (by omega))
    rw [value]
    push_cast
    linarith
  have bottom : (k : ℚ) ≤ double (double (1 / 5) * n) := by
    have below : (k : ℚ) ≤ double (1 / 5) * n := by
      rw [value]
      linarith
    exact le_roundSigned (Nat.cast_nonneg k) (by decide) (representable_natCast (by omega)) below
  have sum : (m : ℚ) = n + k := by exact_mod_cast split
  have least : (m : ℚ) ≤ double (n + double (double (1 / 5) * n)) := by
    apply le_roundSigned (Nat.cast_nonneg m) (by decide) (representable_natCast (by omega))
    linarith
  have most : double (n + double (double (1 / 5) * n)) ≤ ((8 * m + 7 : ℕ) : ℚ) / 8 := by
    apply roundSigned_le (by positivity) (representable_eighths (by omega))
    push_cast at top ⊢
    linarith
  apply toInt_eq least _ small
  push_cast at most
  linarith

/-- The packets of a round: one for each flow, or a fifth more if they are drawn at random. -/
def roundSize (det : CardDet) : Nat :=
  if isRandom det then 6 * flowCount det.toTrafGenDet / 5 else flowCount det.toTrafGenDet

/-- The conditions on the details under which the packets of a channel can be made and counted. -/
structure Loadable (det : CardDet) : Prop where
  usable : Usable det.toTrafGenDet
  few : roundSize det < 2 ^ 31

variable {det : CardDet}

theorem roundSize_pos (det : CardDet) : 0 < roundSize det := by
  have some : 0 < flowCount det.toTrafGenDet := Nat.succ_pos _
  unfold roundSize
  split_ifs <;> omega

theorem flowCount_le_roundSize (det : CardDet) : flowCount det.toTrafGenDet ≤ roundSize det := by
  unfold roundSize
  split_ifs <;> omega

namespace Loadable

theorem flowNum_eq (loadable : Loadable det) : flowNum det = flowCount det.toTrafGenDet ∧
    flowNumLong det = flowCount det.toTrafGenDet := by
  have few := (flowCount_le_roundSize det).trans_lt loadable.few
  have ordered := loadable.usable.ordered
  have count : flowCount det.toTrafGenDet =
    ntohl (inetAddr det.dstIpMax) - ntohl (inetAddr det.dstIpMin) + 1 := rfl
  have lowFits := ntohl_lt (inetAddr det.dstIpMin)
  have highFits := ntohl_lt (inetAddr det.dstIpMax)
  have span : (flowSpan det).toNat + 1 = flowCount det.toTrafGenDet := by
    change ntohl (inetAddr det.dstIpMin) ≤ ntohl (inetAddr det.dstIpMax) at ordered
    rw [flowSpan, count, UInt32.toNat_sub_of_le, UInt32.toNat_ofNat_of_lt' highFits,
      UInt32.toNat_ofNat_of_lt' lowFits]
    rw [UInt32.le_iff_toNat_le, UInt32.toNat_ofNat_of_lt' highFits,
      UInt32.toNat_ofNat_of_lt' lowFits]
    exact ordered
  have next : (flowSpan det + 1).toNat = flowCount det.toTrafGenDet := by
    rw [UInt32.toNat_add, UInt32.toNat_one, span]
    omega
  constructor
  · rw [flowNum, next]
    exact int32_of_range (by omega) (by omega)
  · rw [flowNumLong, ← span]
    push_cast
    exact int32_of_range (by omega) (by omega)

theorem counts_eq (loadable : Loadable det) :
    firstCount det = some (roundSize det : Int) ∧ secondCount det = some (roundSize det : Int) := by
  obtain ⟨short, long⟩ := loadable.flowNum_eq
  have few := loadable.few
  have some : 0 < flowCount det.toTrafGenDet := Nat.succ_pos _
  unfold firstCount secondCount
  unfold roundSize at few ⊢
  rw [short, long]
  split_ifs at few ⊢
  · exact ⟨double_six_fifths_mul some few, double_add_one_fifth some few⟩
  · exact ⟨rfl, rfl⟩

theorem iterationsOf_eq (loadable : Loadable det) :
    ∃ iterations, iterationsOf det = some iterations ∧
      iterations.toNat = (maxPackets det).toNat / roundSize det := by
  have few := loadable.few
  have some := roundSize_pos det
  have converted : (UInt32.ofInt (roundSize det)).toNat = roundSize det := by
    exact_mod_cast toNat_ofInt (x := roundSize det) (by omega) (by omega)
  refine ⟨maxPackets det / UInt32.ofInt (roundSize det), ?_, ?_⟩
  · rw [iterationsOf, loadable.counts_eq.1, Option.bind_eq_bind, Option.bind_some,
      if_pos (by omega)]
  · rw [UInt32.toNat_div, converted]

end Loadable

def flowAt (rand : Nat → Nat) (det : CardDet) (i : Nat) : Nat :=
  if isRandom det then rand i % flowCount det.toTrafGenDet else i

def blankProbe (det : CardDet) (flow : Nat) : Probe := probeAt det.toTrafGenDet flow 0 0 0

def roundFrames (rand : Nat → Nat) (det : CardDet) : List (List UInt8) :=
  (List.range (roundSize det)).map fun i => (blankProbe det (flowAt rand det i)).encode

theorem Loadable.flowAt_lt (rand : Nat → Nat) {i : Nat} (inside : i < roundSize det) :
    flowAt rand det i < flowCount det.toTrafGenDet := by
  unfold roundSize at inside
  unfold flowAt
  split_ifs at inside ⊢
  · exact Nat.mod_lt _ (Nat.succ_pos _)
  · exact inside

theorem Loadable.destination_eq (loadable : Loadable det) (rand : Nat → Nat) {i : Nat}
    (inside : i < roundSize det) :
    destination rand det i = htonl (blankProbe det (flowAt rand det i)).daddr := by
  have few := (flowCount_le_roundSize det).trans_lt loadable.few
  have flow := flowAt_lt rand inside
  have ordered := loadable.usable.ordered
  have highFits : highFlow det.toTrafGenDet < 2 ^ 32 := ntohl_lt _
  have lowFits : lowFlow det.toTrafGenDet < 2 ^ 32 := ntohl_lt _
  have count : flowCount det.toTrafGenDet = highFlow det.toTrafGenDet -
      lowFlow det.toTrafGenDet + 1 := rfl
  have place : (blankProbe det (flowAt rand det i)).daddr = lowFlow det.toTrafGenDet +
      flowAt rand det i :=
    congrArg (lowFlow det.toTrafGenDet + ·) (Nat.mod_eq_of_lt flow)
  have sum (x : Nat) (small : x < flowCount det.toTrafGenDet) :
      (UInt32.ofNat (lowFlow det.toTrafGenDet) + UInt32.ofNat x).toNat =
        lowFlow det.toTrafGenDet + x := by
    rw [UInt32.toNat_add, UInt32.toNat_ofNat_of_lt' lowFits,
      UInt32.toNat_ofNat_of_lt' (show x < UInt32.size by unfold UInt32.size; omega)]
    exact Nat.mod_eq_of_lt (by omega)
  rw [place, ← sum _ flow]
  unfold destination flowAt
  split_ifs
  · have drawn : (rand i : Int).tmod (flowNum det) =
        (rand i % flowCount det.toTrafGenDet : Nat) := by
      rw [loadable.flowNum_eq.1, Int.tmod_eq_emod_of_nonneg (Int.natCast_nonneg _)]
      rfl
    have converted (x : Nat) : UInt32.ofInt x = UInt32.ofNat x :=
      UInt32.toNat_inj.mp (by simp only [UInt32.ofInt, UInt32.toNat_ofNat']; omega)
    rw [drawn, converted]
    rfl
  · rfl

theorem readdress_probe {state : PktDetails} {probe : Probe} (data : state.data = probe.encode)
    (ip : state.ip = some probe.ether.length) (daddr : Nat) :
    readdress true state (htonl daddr) = some { state with
      data := { probe with daddr }.encode } := by
  have stored : leBytes 4 (htonl daddr) = beBytes 4 daddr := leBytes_swapBytes 4 daddr
  unfold readdress
  rw [ip, data, stored, Probe.encode]
  change (writeAt _ _ (beBytes 4 daddr)).bind _ = _
  rw [writeAt_part rfl (by simp)]
  change (writeAt _ _ [0, 0]).bind _ = _
  rw [writeAt_part rfl (by rw [patch_length] <;> simp)]
  exact congrArg (Option.bind · _) (writeCheck_probe { probe with daddr } _)

theorem Loadable.loadPackets_eq (loadable : Loadable det) (rand : Nat → Nat) (queue : Nat)
    {state : PktDetails} {flow i left : Nat} (data : state.data = (blankProbe det flow).encode)
    (ip : state.ip = some (headerSize det.toTrafGenDet)) (inside : i + left ≤ roundSize det) :
    ∃ after, loadPackets rand det queue true i left state =
      some ((List.range' i left).map fun i =>
        .loadPacket (blankProbe det (flowAt rand det i)).encode queue det.delay, after) := by
  induction left generalizing i state flow with
  | zero => exact ⟨state, rfl⟩
  | succ left ih =>
    have ether : (blankProbe det flow).ether.length = headerSize det.toTrafGenDet :=
      etherHeader_length loadable.usable.wellFormed
    have next : readdress true state (htonl (blankProbe det (flowAt rand det i)).daddr) =
        some { state with data := (blankProbe det (flowAt rand det i)).encode } :=
      readdress_probe data (ether ▸ ip) _
    have later : i + 1 + left ≤ roundSize det := by omega
    obtain ⟨after, rest⟩ :=
      @ih { state with data := (blankProbe det (flowAt rand det i)).encode } _ _ rfl ip later
    refine ⟨after, ?_⟩
    rw [loadPackets, loadable.destination_eq rand (by omega), next]
    change (loadPackets rand det queue true (i + 1) left _).bind _ = _
    rw [rest]
    rfl

def channelCalls (rand : Nat → Nat) (iterations : UInt32) (queue : Nat) (det : CardDet) :
    List NfCall :=
  .setNumberIterations iterations queue :: (roundFrames rand det).map fun frame =>
    .loadPacket frame queue det.delay

theorem Loadable.loadChannel_eq (loadable : Loadable det) (rand : Nat → Nat)
    {iteration : List UInt32} {queue : Nat} {iterations : UInt32}
    (counted : iteration[queue]? = some iterations) (state : PktDetails) :
    ∃ after, loadChannel rand iteration (queue + 1) state det =
      some (channelCalls rand iterations queue det, after) := by
  let fresh : PktDetails := { state with
    data := (firstProbe det.toTrafGenDet).encode
    ip := some (headerSize det.toTrafGenDet)
    ipDestMin := inetAddr det.dstIpMin
    ipDestMax := inetAddr det.dstIpMax
    pktgen := some (headerSize det.toTrafGenDet + 28) }
  have built : innitializeGeneratorPacket state det.toTrafGenDet = some (1, fresh, _) :=
    innitialize_probe state loadable.usable.buildable
  have data : fresh.data = (blankProbe det 0).encode := by
    unfold blankProbe probeAt
    rw [Nat.zero_mod, Nat.add_zero]
    rfl
  have whole : 0 + roundSize det ≤ roundSize det := by omega
  obtain ⟨after, loaded⟩ := loadable.loadPackets_eq rand queue data rfl whole
  refine ⟨after, ?_⟩
  simp only [loadChannel, if_neg (Nat.succ_ne_zero queue), Nat.add_sub_cancel, counted, built,
    loadable.counts_eq.2, Option.bind_eq_bind, Option.bind_some, Int.toNat_natCast,
    decide_true, loaded, channelCalls, roundFrames, List.map_map, List.range_eq_range',
    Function.comp_def]

end Oflops.Traffic.CardGenerator
