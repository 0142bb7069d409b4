import Mathlib.Algebra.Group.Nat.Defs
import Mathlib.Data.List.Basic

/-! Numbers as fixed-width byte strings in both byte orders, and the conversions between
network order and a little-endian host. -/

namespace Oflops.Lib.Bytes

/-- The `n` low bytes of a number, least significant first: how a little-endian host
stores it. -/
def leBytes : Nat → Nat → List UInt8
  | 0, _ => []
  | n + 1, x => UInt8.ofNat x :: leBytes n (x / 256)

def leValue : List UInt8 → Nat
  | [] => 0
  | byte :: bytes => byte.toNat + 256 * leValue bytes

def beBytes (n x : Nat) : List UInt8 := (leBytes n x).reverse

def beValue (bytes : List UInt8) : Nat := leValue bytes.reverse

/-- The number whose little-endian bytes are the big-endian bytes of `x`. -/
def swapBytes (n x : Nat) : Nat := leValue (beBytes n x)

def htons (x : Nat) : Nat := swapBytes 2 x

def htonl (x : Nat) : Nat := swapBytes 4 x

def ntohs (x : Nat) : Nat := swapBytes 2 x

def ntohl (x : Nat) : Nat := swapBytes 4 x

@[simp] theorem leBytes_length (n x : Nat) : (leBytes n x).length = n := by
  induction n generalizing x with
  | zero => rfl
  | succ n ih => rw [leBytes, List.length_cons, ih]

@[simp] theorem beBytes_length (n x : Nat) : (beBytes n x).length = n := by
  rw [beBytes, List.length_reverse, leBytes_length]

theorem leValue_leBytes (n x : Nat) : leValue (leBytes n x) = x % 256 ^ n := by
  induction n generalizing x with
  | zero => rw [leBytes, leValue, Nat.pow_zero, Nat.mod_one]
  | succ n ih =>
    have width : 256 ^ (n + 1) = 256 * 256 ^ n := Nat.pow_succ'
    rw [leBytes, leValue, ih, UInt8.toNat_ofNat', width, Nat.mod_mul]

theorem leBytes_inj {n x y : Nat} (first : x < 256 ^ n) (second : y < 256 ^ n)
    (same : leBytes n x = leBytes n y) : x = y := by
  have values := congrArg leValue same
  rwa [leValue_leBytes, leValue_leBytes, Nat.mod_eq_of_lt first, Nat.mod_eq_of_lt second] at values

theorem forall_byte {p : UInt8 → Prop} (all : ∀ n : Fin 256, p (UInt8.ofNat n)) (byte : UInt8) :
    p byte := by
  have found := all ⟨byte.toNat, byte.toNat_lt⟩
  rwa [UInt8.ofNat_toNat] at found

theorem leBytes_leValue (bytes : List UInt8) : leBytes bytes.length (leValue bytes) = bytes := by
  induction bytes with
  | nil => rfl
  | cons byte bytes ih =>
    have small := byte.toNat_lt
    have quotient : (byte.toNat + 256 * leValue bytes) / 256 = leValue bytes := by omega
    have head : UInt8.ofNat (byte.toNat + 256 * leValue bytes) = byte := by
      apply UInt8.toNat_inj.mp
      rw [UInt8.toNat_ofNat']
      omega
    rw [List.length_cons, leBytes, leValue, quotient, ih, head]

theorem leValue_lt (bytes : List UInt8) : leValue bytes < 256 ^ bytes.length := by
  have value := leValue_leBytes bytes.length (leValue bytes)
  rw [leBytes_leValue] at value
  rw [value]
  exact Nat.mod_lt _ (Nat.pow_pos (by decide))

theorem beValue_beBytes (n x : Nat) : beValue (beBytes n x) = x % 256 ^ n := by
  rw [beValue, beBytes, List.reverse_reverse, leValue_leBytes]

theorem beValue_beBytes_of_lt {n x : Nat} (small : x < 256 ^ n) : beValue (beBytes n x) = x := by
  rw [beValue_beBytes, Nat.mod_eq_of_lt small]

theorem beBytes_beValue (bytes : List UInt8) : beBytes bytes.length (beValue bytes) = bytes := by
  have reversed := leBytes_leValue bytes.reverse
  rw [List.length_reverse] at reversed
  rw [beBytes, beValue, reversed, List.reverse_reverse]

theorem beValue_inj {first second : List UInt8} (length : first.length = second.length)
    (same : beValue first = beValue second) : first = second := by
  rw [← beBytes_beValue first, ← beBytes_beValue second, length, same]

theorem beValue_eq_foldl (bytes : List UInt8) :
    beValue bytes = bytes.foldl (fun value byte => value * 256 + byte.toNat) 0 := by
  have folded : ∀ low : List UInt8,
      leValue low = low.foldr (fun byte value => value * 256 + byte.toNat) 0 := by
    intro low
    induction low with
    | nil => rfl
    | cons byte low ih => rw [leValue, List.foldr_cons, ih, Nat.add_comm, Nat.mul_comm]
  rw [beValue, folded, List.foldr_reverse]

/-- Storing a converted number on a little-endian host writes it in network order. -/
theorem leBytes_swapBytes (n x : Nat) : leBytes n (swapBytes n x) = beBytes n x := by
  have stored := leBytes_leValue (beBytes n x)
  rwa [beBytes_length] at stored

theorem beBytes_swapBytes (n x : Nat) : beBytes n (swapBytes n x) = leBytes n x := by
  rw [beBytes, leBytes_swapBytes, beBytes, List.reverse_reverse]

theorem swapBytes_lt (n x : Nat) : swapBytes n x < 256 ^ n := by
  have bound := leValue_lt (beBytes n x)
  rwa [beBytes_length] at bound

theorem htonl_lt (x : Nat) : htonl x < 2 ^ 32 := swapBytes_lt 4 x

theorem ntohl_lt (x : Nat) : ntohl x < 2 ^ 32 := swapBytes_lt 4 x

/-- Converting what a little-endian host loads reads the bytes in network order. -/
theorem swapBytes_leValue (bytes : List UInt8) :
    swapBytes bytes.length (leValue bytes) = beValue bytes := by
  rw [swapBytes, beBytes, leBytes_leValue, beValue]

theorem swapBytes_swapBytes (n x : Nat) : swapBytes n (swapBytes n x) = x % 256 ^ n := by
  rw [swapBytes, beBytes, leBytes_swapBytes, beBytes, List.reverse_reverse, leValue_leBytes]

theorem swapBytes_two (x : Nat) : swapBytes 2 x = x / 256 % 256 + 256 * (x % 256) := by
  change (UInt8.ofNat (x / 256)).toNat + 256 * ((UInt8.ofNat x).toNat + 256 * 0) = _
  rw [UInt8.toNat_ofNat', UInt8.toNat_ofNat', Nat.mul_zero, Nat.add_zero]

theorem swapBytes_four (x : Nat) :
    swapBytes 4 x = x / 256 / 256 / 256 % 256 + 256 * (x / 256 / 256 % 256 +
      256 * (x / 256 % 256 + 256 * (x % 256))) := by
  change (UInt8.ofNat (x / 256 / 256 / 256)).toNat + 256 * ((UInt8.ofNat (x / 256 / 256)).toNat +
    256 * ((UInt8.ofNat (x / 256)).toNat + 256 * ((UInt8.ofNat x).toNat + 256 * 0))) = _
  simp only [UInt8.toNat_ofNat', Nat.mul_zero, Nat.add_zero]

theorem swapBytes_inj {n x y : Nat} (first : x < 256 ^ n) (second : y < 256 ^ n) :
    swapBytes n x = swapBytes n y ↔ x = y := by
  constructor
  · intro same
    have twice := congrArg (swapBytes n) same
    rwa [swapBytes_swapBytes, swapBytes_swapBytes, Nat.mod_eq_of_lt first,
      Nat.mod_eq_of_lt second] at twice
  · intro same
    rw [same]

theorem leValue_eq_swapBytes_iff (bytes : List UInt8) {x : Nat} (small : x < 256 ^ bytes.length) :
    leValue bytes = swapBytes bytes.length x ↔ beValue bytes = x := by
  constructor
  · intro same
    rw [← swapBytes_leValue, same, swapBytes_swapBytes, Nat.mod_eq_of_lt small]
  · intro same
    rw [← same, swapBytes, beBytes_beValue]

end Oflops.Lib.Bytes
