import Oflops.Lib.OnesComplement
import Oflops.Traffic.Packet

/-! `ip_sum_calc` makes the header's words add up to 0xFFFF in one's complement. -/

namespace Oflops.Traffic.Checksum
open Lib.Bytes Lib.OnesComplement Packet

/-- The big-endian 16-bit words of some bytes; an odd last byte is padded on the right. -/
def words : List UInt8 → List Nat
  | first :: second :: rest => beValue [first, second] :: words rest
  | [last] => [beValue [last, 0]]
  | [] => []

/-- A header is intact when its words add up to 0xFFFF. -/
def Intact (header : List UInt8) : Prop := onesSum 0xffff (words header) = 0xffff

theorem words_append {before : List UInt8} (after : List UInt8) (even : before.length % 2 = 0) :
    words (before ++ after) = words before ++ words after := by
  fun_induction words before with
  | case1 first second rest ih =>
    have shorter : rest.length % 2 = 0 := by
      rw [List.length_cons, List.length_cons] at even
      omega
    rw [List.cons_append, List.cons_append, words, ih shorter, List.cons_append]
  | case2 last => simp at even
  | case3 => rfl

theorem words_le (bytes : List UInt8) : ∀ word ∈ words bytes, word ≤ 0xffff := by
  have small : ∀ a b : UInt8, beValue [a, b] ≤ 0xffff := by
    intro a b
    have bound : beValue [a, b] < 256 ^ 2 := leValue_lt [b, a]
    omega
  fun_induction words bytes with
  | case1 first second rest ih =>
    intro word member
    rcases List.mem_cons.mp member with rfl | later
    · exact small first second
    · exact ih word later
  | case2 last =>
    intro word member
    rw [List.mem_singleton.mp member]
    exact small last 0
  | case3 =>
    intro word member
    cases member

/-- The numbers that `ip_sum_calc` adds: the words, and an odd last byte as it is. -/
def addends : List UInt8 → List Nat
  | first :: second :: rest => beValue [first, second] :: addends rest
  | [last] => [last.toNat]
  | [] => []

theorem addends_even {bytes : List UInt8} (even : bytes.length % 2 = 0) :
    addends bytes = words bytes := by
  fun_induction addends bytes with
  | case1 first second rest ih =>
    have shorter : rest.length % 2 = 0 := by
      rw [List.length_cons, List.length_cons] at even
      omega
    rw [words, ih shorter]
  | case2 last => simp at even
  | case3 => rfl

/-- No addition of the summing loop leaves the 32 bits of the sum. -/
def CarriesKept (sum : Nat) : List UInt8 → Prop
  | first :: second :: rest =>
    let next := sum + htons (leValue [first, second])
    next < 2 ^ 32 ∧ CarriesKept (if next ≥ 2 ^ 31 then foldHalves next else next) rest
  | [last] => sum + last.toNat < 2 ^ 32
  | [] => True

theorem foldHalves_modEq (sum : Nat) : foldHalves sum ≡ sum [MOD 0xffff] :=
  halves_modEq (2 ^ 16) sum (by decide)

theorem foldHalves_eq_zero (sum : Nat) : foldHalves sum = 0 ↔ sum = 0 := by
  unfold foldHalves
  omega

theorem foldCarries_spec (sum : Nat) :
    foldCarries sum ≤ 0xffff ∧ foldCarries sum ≡ sum [MOD 0xffff] ∧
      (foldCarries sum = 0 ↔ sum = 0) := by
  fun_induction foldCarries sum with
  | case1 sum done => exact ⟨by omega, Nat.ModEq.refl _, Iff.rfl⟩
  | case2 sum more ih =>
    obtain ⟨bound, same, zero⟩ := ih
    exact ⟨bound, same.trans (foldHalves_modEq sum), zero.trans (foldHalves_eq_zero sum)⟩

theorem folded_spec (sum : Nat) (small : sum < 2 ^ 31 + 2 ^ 16) :
    (if sum ≥ 2 ^ 31 then foldHalves sum else sum) < 2 ^ 31 ∧
      (if sum ≥ 2 ^ 31 then foldHalves sum else sum) ≡ sum [MOD 0xffff] ∧
      ((if sum ≥ 2 ^ 31 then foldHalves sum else sum) = 0 ↔ sum = 0) := by
  split_ifs with high
  · refine ⟨?_, foldHalves_modEq sum, foldHalves_eq_zero sum⟩
    unfold foldHalves
    omega
  · exact ⟨by omega, Nat.ModEq.refl _, Iff.rfl⟩

/-- The 32-bit sum never loses a carry, and folding keeps its value modulo 0xFFFF. -/
theorem ipSumWords_spec (bytes : List UInt8) {sum : Nat} (small : sum < 2 ^ 31) :
    CarriesKept sum bytes ∧ ipSumWords sum bytes ≡ sum + (addends bytes).sum [MOD 0xffff] ∧
      (ipSumWords sum bytes = 0 ↔ sum + (addends bytes).sum = 0) := by
  fun_induction ipSumWords sum bytes with
  | case1 sum first second rest next ih =>
    have word := words_le [first, second] _ List.mem_cons_self
    have loaded : htons (leValue [first, second]) = beValue [first, second] :=
      swapBytes_leValue [first, second]
    have added : next = sum + beValue [first, second] := by
      change (sum + htons (leValue [first, second])) % 2 ^ 32 = _
      rw [loaded]
      exact Nat.mod_eq_of_lt (by omega)
    obtain ⟨bound, folded, zero⟩ := folded_spec next (by omega)
    obtain ⟨kept, same, empty⟩ := ih bound
    rw [added] at bound folded zero kept same empty
    rw [CarriesKept, loaded, addends, List.sum_cons, ← Nat.add_assoc, added]
    exact ⟨⟨by omega, kept⟩, same.trans (folded.add_right _), by omega⟩
  | case2 sum last =>
    have byte := last.toNat_lt
    have fits : sum + last.toNat < 2 ^ 32 := by omega
    rw [Nat.mod_eq_of_lt fits, addends, List.sum_singleton]
    exact ⟨fits, Nat.ModEq.refl _, Iff.rfl⟩
  | case3 sum => exact ⟨trivial, Nat.ModEq.refl _, Iff.rfl⟩

theorem ipSumCalc_le (bytes : List UInt8) : ipSumCalc bytes ≤ 0xffff := Nat.sub_le _ _

/-- The checksum completes the sum of the words to a multiple of 0xFFFF. -/
theorem ipSumCalc_dvd (bytes : List UInt8) (even : bytes.length % 2 = 0) :
    0xffff ∣ ipSumCalc bytes + (words bytes).sum := by
  obtain ⟨bound, same, -⟩ := foldCarries_spec (ipSumWords 0 bytes)
  obtain ⟨-, total, -⟩ := ipSumWords_spec bytes (Nat.two_pow_pos 31)
  rw [Nat.zero_add, addends_even even] at total
  have calc' : ipSumCalc bytes + foldCarries (ipSumWords 0 bytes) = 0xffff := by
    unfold ipSumCalc
    omega
  have congr := (same.trans total).add_left (ipSumCalc bytes)
  rw [calc'] at congr
  exact (Nat.ModEq.dvd_iff congr (dvd_refl _)).mp (dvd_refl _)

theorem intact_of_checksum (before after : List UInt8) (evenBefore : before.length % 2 = 0)
    (evenAfter : after.length % 2 = 0) (some' : 0 < (words before).sum) :
    Intact (before ++ (leBytes 2 (htons (ipSumCalc (before ++ ([0, 0] ++ after)))) ++ after)) := by
  have stored : leBytes 2 (htons (ipSumCalc (before ++ ([0, 0] ++ after)))) =
      beBytes 2 (ipSumCalc (before ++ ([0, 0] ++ after))) := leBytes_swapBytes 2 _
  have word : ∀ x, x ≤ 0xffff → words (beBytes 2 x) = [x] := by
    intro x small
    have value := beValue_beBytes 2 x
    rw [Nat.mod_eq_of_lt (by omega)] at value
    change [beValue (beBytes 2 x)] = [x]
    rw [value]
  have sum : ∀ x, x ≤ 0xffff → (words (before ++ (beBytes 2 x ++ after))).sum =
      x + ((words before).sum + (words after).sum) := by
    intro x small
    rw [words_append _ evenBefore, words_append after (by simp), word x small, List.sum_append,
      List.sum_append, List.sum_singleton]
    omega
  have zero := sum 0 (by decide)
  change (words (before ++ ([0, 0] ++ after))).sum = _ at zero
  have divides := ipSumCalc_dvd (before ++ ([0, 0] ++ after))
    (by simp only [List.length_append, List.length_cons, List.length_nil]; omega)
  rw [Intact, stored]
  apply onesSum_eq_top (words_le _)
  · rw [sum _ (ipSumCalc_le _)]
    rwa [zero, Nat.zero_add] at divides
  · rw [sum _ (ipSumCalc_le _)]
    omega

/-! ### The Internet checksum -/

/-- The checksum of RFC 1071. -/
def internetChecksum (bytes : List UInt8) : Nat := 0xffff - onesSum 0xffff (words bytes)

/-- Bytes whose number fits into the `uint16_t len`. -/
structure Block where
  bytes : List UInt8
  short : bytes.length ≤ 65535

def IsInternetChecksum (block : Block) : Prop :=
  ipSumCalc block.bytes = internetChecksum block.bytes ∧ CarriesKept 0 block.bytes

/-- The byte without a partner, 0 if there is none. -/
def oddByte : List UInt8 → Nat
  | _ :: _ :: rest => oddByte rest
  | [last] => last.toNat
  | [] => 0

theorem oddByte_eq_zero_iff (bytes : List UInt8) :
    oddByte bytes = 0 ↔ bytes.length % 2 = 0 ∨ bytes.getLast? = some 0 := by
  fun_induction oddByte bytes with
  | case1 first second rest ih =>
    have pair : (first :: second :: rest).length % 2 = rest.length % 2 := Nat.add_mod_right _ 2
    rw [ih, pair]
    cases rest with
    | nil => simp
    | cons third rest => rw [List.getLast?_cons_cons, List.getLast?_cons_cons]
  | case2 last => simp [← UInt8.toNat_inj]
  | case3 => simp

theorem oddByte_lt (bytes : List UInt8) : oddByte bytes < 256 := by
  fun_induction oddByte bytes with
  | case1 first second rest ih => exact ih
  | case2 last => exact last.toNat_lt
  | case3 => exact Nat.succ_pos 255

theorem words_sum (bytes : List UInt8) :
    (words bytes).sum = (addends bytes).sum + 255 * oddByte bytes := by
  -- padding multiplies the last byte by 256
  fun_induction oddByte bytes with
  | case1 first second rest ih =>
    rw [words, addends, List.sum_cons, List.sum_cons, ih, Nat.add_assoc]
  | case2 last =>
    have padded : beValue [last, 0] = last.toNat * 256 := by simp [beValue_eq_foldl]
    rw [words, addends, List.sum_singleton, List.sum_singleton, padded]
    omega
  | case3 => rfl

/-- The result is the Internet checksum exactly if no byte other than 0 is left over. -/
theorem isInternetChecksum_iff (block : Block) :
    IsInternetChecksum block ↔ block.bytes.length % 2 = 0 ∨ block.bytes.getLast? = some 0 := by
  obtain ⟨kept, added, empty⟩ := ipSumWords_spec block.bytes (Nat.two_pow_pos 31)
  obtain ⟨bound, folded, zero⟩ := foldCarries_spec (ipSumWords 0 block.bytes)
  obtain ⟨high, summed, none'⟩ := onesSum_spec (words_le block.bytes)
  have padding := words_sum block.bytes
  have byte := oddByte_lt block.bytes
  have same : ipSumCalc block.bytes = internetChecksum block.bytes ↔
      foldCarries (ipSumWords 0 block.bytes) = onesSum 0xffff (words block.bytes) := by
    unfold ipSumCalc internetChecksum
    omega
  rw [Nat.zero_add] at added empty
  rw [IsInternetChecksum, and_iff_left kept, same, ← oddByte_eq_zero_iff]
  constructor
  · intro equal
    rw [equal] at folded
    have shifted : (addends block.bytes).sum ≡
        (addends block.bytes).sum + 255 * oddByte block.bytes [MOD 0xffff] := by
      rw [← padding]
      exact (folded.trans added).symm.trans summed
    have divides := (Nat.modEq_iff_dvd' (Nat.le_add_right _ _)).mp shifted
    rw [Nat.add_sub_cancel_left] at divides
    omega
  · intro nothing
    rw [nothing] at padding
    apply eq_of_modEq bound high
    · rw [padding] at summed
      exact folded.trans (added.trans summed.symm)
    · omega

/-- A single byte 1 is added as the number 1, and not as 256. -/
theorem one_byte_unpadded : ¬ IsInternetChecksum ⟨[1], by decide⟩ := by
  intro checksum
  have equal := checksum.1
  rw [ipSumCalc, show ipSumWords 0 [1] = 1 from rfl, foldCarries, if_pos (by decide)] at equal
  exact absurd equal (by decide)

end Oflops.Traffic.Checksum
