import Oflops.Lib.FloatRounding
import Oflops.Lib.Loop
import Oflops.NetFpga.PktGen

/-! The rate limiter of an output queue (`rate_limiter_set` of `pkt_gen_2.c`). The number of tokens
is meant to approach a whole number, but it is kept in an integer. -/

namespace Oflops.NetFpga.RateLimiter
open PktGen Lib.FloatRounding Lib.Loop

def rateLimit0CtrlReg : Nat := 0x2001140
def rateLimit0TokenIntervalReg : Nat := 0x2001144
def rateLimit0TokenIncReg : Nat := 0x2001148
def rateLimit1CtrlReg : Nat := 0x2001180

def rateLimitOffset : Nat := rateLimit1CtrlReg - rateLimit0CtrlReg

def clkFreq : ℚ := 125 * 10 ^ 6

/-- A `float`, from a literal that is a `double`. -/
def epsilon : ℚ := roundTo 24 (roundTo 53 (1 / 1000))

def maxTokens : UInt32 := 84
def bitsPerToken : Nat := 8

/-- `number_tokens - floor(number_tokens)`. -/
def fraction (numberTokens : UInt32) : ℚ := numberTokens.toNat - ⌊(numberTokens.toNat : ℚ)⌋

/-- A conversion to `uint32_t`; it is undefined outside the range. -/
def toUInt32 (q : ℚ) : Option UInt32 :=
  if 0 ≤ q ∧ q < 2 ^ 32 then some (UInt32.ofNat ⌊q⌋.toNat) else none

structure Tokens where
  clksBetweenTokens : UInt32
  numberTokens : UInt32
  minDelta : UInt32
  minDeltaClk : UInt32

/-- A turn of the loop that looks for a number of tokens close to a whole number. -/
def approach (tokenInc : UInt32) (s : Tokens) : Option (Iter Tokens Tokens) :=
  if (s.numberTokens < 1 ∨ fraction s.numberTokens > epsilon) ∧ s.numberTokens < maxTokens then
    let numberTokens := s.numberTokens + tokenInc
    let clksBetweenTokens := s.clksBetweenTokens + 1
    let delta := UInt32.ofInt ⌊fraction numberTokens⌋
    if numberTokens > 1 ∧ delta < s.minDelta then
      some (.again ⟨clksBetweenTokens, numberTokens, delta, clksBetweenTokens⟩)
    else some (.again { s with clksBetweenTokens, numberTokens })
  else some (.leave s)

/-- The return value and the register writes. Without a result the call has not returned within
`fuel` turns of the loop, or a conversion is undefined. -/
def rateLimiterSet (fuel queue : Nat) (rate : ℚ) : Option (Int × List Write) :=
  if rate < 1 then some (0, [])
  else do
    let rate := roundTo 24 (roundTo 24 (rate * 1000) / bitsPerToken)
    let tokenInc ← toUInt32 (roundTo 53 (roundTo 24 (rate * 1) / clkFreq))
    let s ← loop (approach tokenInc) fuel ⟨1, tokenInc, 1, 1⟩
    let (clksBetweenTokens, numberTokens) :=
      if fraction s.numberTokens > epsilon then (s.minDeltaClk, tokenInc * s.minDeltaClk)
      else (s.clksBetweenTokens, s.numberTokens)
    some (1, [(rateLimit0TokenIntervalReg + queue * rateLimitOffset, clksBetweenTokens),
      (rateLimit0TokenIncReg + queue * rateLimitOffset, numberTokens)])

theorem fraction_eq (numberTokens : UInt32) : fraction numberTokens = 0 := by
  have whole : ⌊(numberTokens.toNat : ℚ)⌋ = (numberTokens.toNat : ℤ) := Int.floor_natCast _
  rw [fraction, whole, Int.cast_natCast, sub_self]

theorem epsilon_pos : 0 < epsilon := by
  have small : Representable 24 ((2 : ℚ) ^ (-10 : ℤ)) :=
    ⟨1, -10, by decide, by rw [Nat.cast_one, one_mul]⟩
  have double : Representable 53 ((2 : ℚ) ^ (-10 : ℤ)) :=
    ⟨1, -10, by decide, by rw [Nat.cast_one, one_mul]⟩
  have positive : (0 : ℚ) < 2 ^ (-10 : ℤ) := zpow_pos two_pos _
  have literal := le_roundTo positive (by decide) double
    (show (2 : ℚ) ^ (-10 : ℤ) ≤ 1 / 1000 by norm_num)
  exact positive.trans_le (le_roundTo positive (by decide) small literal)

theorem not_fraction (numberTokens : UInt32) : ¬fraction numberTokens > epsilon := by
  rw [fraction_eq]
  exact not_lt.mpr epsilon_pos.le

theorem approach_leaves {tokenInc : UInt32} {s : Tokens} (some' : ¬s.numberTokens < 1) :
    approach tokenInc s = some (.leave s) := by
  rw [approach, if_neg]
  rintro ⟨none' | much, -⟩
  · exact some' none'
  · exact not_fraction _ much

theorem approach_forever {s : Tokens} (none' : s.numberTokens = 0) (fuel : Nat) :
    loop (approach 0) fuel s = none := by
  apply loop_forever (fun s => s.numberTokens = 0) _ none'
  intro s zero
  have enters : (s.numberTokens < 1 ∨ fraction s.numberTokens > epsilon) ∧
      s.numberTokens < maxTokens := by
    rw [zero]
    exact ⟨Or.inl (by decide), by decide⟩
  have still : s.numberTokens + 0 = 0 := by rw [zero, UInt32.add_zero]
  refine ⟨{ s with
    clksBetweenTokens := s.clksBetweenTokens + 1, numberTokens := s.numberTokens + 0 }, ?_, still⟩
  unfold approach
  rw [if_pos enters]
  dsimp only
  rw [if_neg (by rw [still]; exact fun more => absurd more.1 (by decide))]

section Rate

variable {rate : ℚ}

/-- `rate`, as a `float` of tokens per second. -/
def perSecond (rate : ℚ) : ℚ :=
  roundTo 24 (roundTo 24 (roundTo 24 (rate * 1000) / bitsPerToken) * 1)

def quotient (rate : ℚ) : ℚ := roundTo 53 (perSecond rate / clkFreq)

theorem kilo_lt (float : Representable 24 rate) (positive : 0 < rate) (slow : rate < 10 ^ 6) :
    roundTo 24 (rate * 1000) < 10 ^ 9 := by
  -- The largest `float` below a million is a sixteenth away, so that the product stays below the
  -- mark.
  have apart : rate ≤ 10 ^ 6 - 1 / 16 := by
    rcases float.gap 16000000 (-4) (by norm_num; linarith) with near | far
    · norm_num at near ⊢
      linarith
    · norm_num at far ⊢
      linarith
  have bound : rate * 1000 < 2 ^ ((6 : ℤ) + (24 : ℕ)) := by
    norm_num at apart ⊢
    linarith
  have rounded := roundTo_le_add (p := 24) (k := 6) (by linarith) bound
  norm_num at rounded apart ⊢
  linarith

theorem perSecond_eq (fast : 1 ≤ rate) :
    Representable 24 (perSecond rate) ∧ perSecond rate = roundTo 24 (rate * 1000) / 8 ∧
      0 < perSecond rate := by
  have thousand : Representable 24 (1000 : ℚ) := ⟨1000, 0, by decide, by norm_num⟩
  have product : (1000 : ℚ) ≤ rate * 1000 := by linarith
  have kilo := le_roundTo (by norm_num) (by decide) thousand product
  have float := representable_roundTo (p := 24) (by decide) (x := rate * 1000) (by linarith)
  have eighth : Representable 24 (roundTo 24 (rate * 1000) / 8) := by
    have scaled := float.scale (-3)
    rwa [show roundTo 24 (rate * 1000) * 2 ^ (-3 : ℤ) = roundTo 24 (rate * 1000) /
      8 by norm_num; ring] at scaled
  have positive : 0 < roundTo 24 (rate * 1000) / 8 := by linarith
  have exact' := roundTo_of_representable positive (by decide) eighth
  have same : perSecond rate = roundTo 24 (rate * 1000) / 8 := by
    unfold perSecond bitsPerToken
    rw [Nat.cast_ofNat, exact', mul_one, exact']
  rw [same]
  exact ⟨eighth, rfl, positive⟩

theorem quotient_lt_one (float : Representable 24 rate) (fast : 1 ≤ rate) (slow : rate < 10 ^ 6) :
    0 ≤ quotient rate ∧ quotient rate < 1 := by
  obtain ⟨tokens, same, positive⟩ := perSecond_eq fast
  have kilo := kilo_lt float (by linarith) slow
  have below : perSecond rate < (15625000 : ℤ) * 2 ^ (3 : ℤ) := by
    rw [same]
    norm_num at kilo ⊢
    linarith
  have apart : perSecond rate ≤ 124999992 := by
    rcases tokens.gap 15625000 3 below with near | far
    · norm_num at near ⊢
      linarith
    · norm_num at far ⊢
      linarith
  have almost : Representable 53 ((16777215 : ℚ) / 16777216) :=
    ⟨16777215, -24, by decide, by norm_num⟩
  have divided : perSecond rate / clkFreq ≤ 16777215 / 16777216 := by
    unfold clkFreq
    rw [div_le_iff₀ (by norm_num)]
    linarith
  have ratio : 0 < perSecond rate / clkFreq := div_pos positive (by unfold clkFreq; norm_num)
  have nonneg : 0 ≤ quotient rate :=
    mul_nonneg (Int.cast_nonneg
      (le_nearestEven (by rw [Int.cast_zero]; exact div_nonneg ratio.le unit_pos.le)))
      unit_pos.le
  have most := roundTo_le ratio almost divided
  exact ⟨nonneg, lt_of_le_of_lt most (by norm_num)⟩

/-- From a million on, it is a token or more. -/
theorem one_le_quotient (quick : 10 ^ 6 ≤ rate) (bounded : rate ≤ 2 ^ 51) :
    1 ≤ quotient rate ∧ quotient rate < 2 ^ 32 := by
  obtain ⟨-, same, positive⟩ := perSecond_eq (show 1 ≤ rate by linarith)
  have billion : Representable 24 ((10 : ℚ) ^ 9) := ⟨1953125, 9, by decide, by norm_num⟩
  have most : Representable 24 ((1000 : ℚ) * 2 ^ 51) := ⟨1000, 51, by decide, by norm_num⟩
  have low := le_roundTo (x := rate * 1000) (by norm_num) (by decide) billion (by linarith)
  have high := roundTo_le (x := rate * 1000) (by linarith) most (by linarith)
  have ratio : 0 < perSecond rate / clkFreq := div_pos positive (by unfold clkFreq; norm_num)
  constructor
  · apply le_roundTo one_pos (by decide) ⟨1, 0, by decide, by norm_num⟩
    unfold clkFreq
    rw [same, le_div_iff₀ (by norm_num)]
    linarith
  · have cap : Representable 53 ((3 : ℚ) * 2 ^ 30) := ⟨3, 30, by decide, by norm_num⟩
    have divided : perSecond rate / clkFreq ≤ 3 * 2 ^ 30 := by
      unfold clkFreq
      rw [same, div_le_iff₀ (by norm_num)]
      norm_num at high ⊢
      linarith
    exact lt_of_le_of_lt (roundTo_le ratio cap divided) (by norm_num)

end Rate

theorem toUInt32_lt_one {q : ℚ} (nonneg : 0 ≤ q) (less : q < 1) : toUInt32 q = some 0 := by
  have floor : ⌊q⌋ = 0 := Int.floor_eq_zero_iff.mpr ⟨nonneg, less⟩
  rw [toUInt32, if_pos ⟨nonneg, less.trans (by norm_num)⟩, floor]
  rfl

theorem toUInt32_ge_one {q : ℚ} (whole : 1 ≤ q) (small : q < 2 ^ 32) :
    ∃ tokens, toUInt32 q = some tokens ∧ 1 ≤ tokens := by
  have low : 1 ≤ ⌊q⌋ := Int.le_floor.mpr (by exact_mod_cast whole)
  have high : ⌊q⌋ < 2 ^ 32 := Int.floor_lt.mpr (by exact_mod_cast small)
  refine ⟨_, if_pos ⟨by linarith, small⟩, ?_⟩
  rw [UInt32.le_iff_toNat_le, UInt32.toNat_ofNat_of_lt' (by unfold UInt32.size; omega),
    UInt32.toNat_one]
  omega

theorem rateLimiterSet_eq {rate : ℚ} (fast : 1 ≤ rate) (fuel queue : Nat) :
    rateLimiterSet fuel queue rate = (do
      let tokenInc ← toUInt32 (quotient rate)
      let s ← loop (approach tokenInc) fuel ⟨1, tokenInc, 1, 1⟩
      some (1, [(rateLimit0TokenIntervalReg + queue * rateLimitOffset, s.clksBetweenTokens),
        (rateLimit0TokenIncReg + queue * rateLimitOffset, s.numberTokens)])) := by
  rw [rateLimiterSet, if_neg (not_lt.mpr fast)]
  simp only [not_fraction, if_false]
  rfl

theorem rateLimiterSet_hangs {rate : ℚ} (float : Representable 24 rate) (fast : 1 ≤ rate)
    (slow : rate < 10 ^ 6) (fuel queue : Nat) : rateLimiterSet fuel queue rate = none := by
  obtain ⟨nonneg, less⟩ := quotient_lt_one float fast slow
  rw [rateLimiterSet_eq fast, toUInt32_lt_one nonneg less, Option.bind_eq_bind, Option.bind_some,
    approach_forever rfl]
  rfl

theorem rateLimiterSet_quick {rate : ℚ} (quick : 10 ^ 6 ≤ rate) (bounded : rate ≤ 2 ^ 51)
    (queue : Nat) :
    ∃ tokens, 1 ≤ tokens ∧ rateLimiterSet 1 queue rate =
      some (1, [(rateLimit0TokenIntervalReg + queue * rateLimitOffset, 1),
        (rateLimit0TokenIncReg + queue * rateLimitOffset, tokens)]) := by
  obtain ⟨whole, small⟩ := one_le_quotient quick bounded
  obtain ⟨tokens, converted, some'⟩ := toUInt32_ge_one whole small
  refine ⟨tokens, some', ?_⟩
  rw [rateLimiterSet_eq (by linarith), converted, Option.bind_eq_bind, Option.bind_some,
    loop_leave (approach_leaves (UInt32.not_lt.mpr some'))]
  rfl

/-- `rate_limiter_set` returns exactly for rates below one, which it ignores, and from one million
on, which it turns into whole tokens for every clock; on the rates in between, the one `main` asks
for included, it never returns. -/
theorem rate_limiter_set_returns_iff (queue : Nat) {rate : ℚ}
    (float : 1 ≤ rate → Representable 24 rate) (bounded : rate ≤ 2 ^ 51) :
    ((∃ fuel result, rateLimiterSet fuel queue rate = some result) ↔ rate < 1 ∨ 10 ^ 6 ≤ rate) ∧
      (10 ^ 6 ≤ rate → ∃ tokens, 1 ≤ tokens ∧ rateLimiterSet 1 queue rate =
        some (1, [(rateLimit0TokenIntervalReg + queue * rateLimitOffset, 1),
          (rateLimit0TokenIncReg + queue * rateLimitOffset, tokens)])) := by
  refine ⟨⟨?_, ?_⟩, fun quick => rateLimiterSet_quick quick bounded queue⟩
  · rintro ⟨fuel, result, returned⟩
    by_contra between
    rw [not_or, not_lt, not_le] at between
    rw [rateLimiterSet_hangs (float between.1) between.1 between.2] at returned
    cases returned
  · rintro (slow | quick)
    · exact ⟨0, _, if_pos slow⟩
    · obtain ⟨tokens, -, returned⟩ := rateLimiterSet_quick quick bounded queue
      exact ⟨1, _, returned⟩

/-- The rate that `main` sets. -/
theorem rate_limiter_set_hangs_in_main :
    ¬∃ fuel result, rateLimiterSet fuel 4 200000 = some result := by
  rw [(rate_limiter_set_returns_iff 4 (fun _ => ⟨200000, 0, by decide, by norm_num⟩)
    (by norm_num)).1]
  norm_num

end Oflops.NetFpga.RateLimiter
