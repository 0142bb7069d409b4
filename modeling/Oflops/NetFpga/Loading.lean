import Oflops.NetFpga.Accounting

/-! Copying the images into the memory of the card (`load_queues` and the loading part of `main`
in `pkt_gen_2.c`). A word of the memory has three registers: its control byte and two halves of
its data. -/

namespace Oflops.NetFpga.Loading
open PktGen NetFpga.Partition Accounting Lib.Bytes Lib.MachineInt Lib.Segments

def sramBaseAddr : Nat := 0x1000000

structure SramWord where
  ctrl : UInt8
  high : UInt32
  low : UInt32

def SramWord.bytes (word : SramWord) : List UInt8 :=
  word.ctrl :: beBytes 4 word.high.toNat ++ beBytes 4 word.low.toNat

def SramWord.cells (word : SramWord) : List (Nat × UInt32) :=
  [(0x4, word.ctrl.toUInt32), (0x8, word.high), (0xc, word.low)]

def wordAddr (word : Nat) : Nat := sramBaseAddr + 16 * word

/-- The memory holds these words: those of a port from the start of its transmit queue on, within
that queue, each register written once, and nothing else written. -/
structure Holds (images : Port → List SramWord) (writes : List Write) (lo hi : Fin 12 → UInt32) :
    Prop where
  fits : ∀ port, (lo (transmitQueue port)).toNat + (images port).length ≤
    (hi (transmitQueue port)).toNat + 1
  stored : ∀ port k word, (images port)[k]? = some word → ∀ cell ∈ word.cells,
    written (wordAddr ((lo (transmitQueue port)).toNat + k) + cell.1) writes = [cell.2]
  only : ∀ write ∈ writes, ∃ port k, k < (images port).length ∧
    wordAddr ((lo (transmitQueue port)).toNat + k) ≤ write.1 ∧
      write.1 < wordAddr ((lo (transmitQueue port)).toNat + k + 1)

def store : Nat → List SramWord → List Write
  | _, [] => []
  | at', word :: words =>
    (word.cells.map fun cell => (wordAddr at' + cell.1, cell.2)) ++ store (at' + 1) words

theorem written_eq_nil {addr : Nat} {writes : List Write}
    (other : ∀ write ∈ writes, write.1 ≠ addr) : written addr writes = [] := by
  unfold written
  rw [List.filter_eq_nil_iff.mpr fun write member => by simpa using other write member,
    List.map_nil]

section Main

variable (calls : List Call)

def laidOut : Globals × List Write := queueReorganize (loadPcaps calls).globals

variable {calls} {lo hi : Fin 12 → UInt32} {registers : List Write}

theorem hi_lt (divides : Divides (laidOut calls).1 registers lo hi) (q : Fin 12) :
    (hi q).toNat < memSize := by
  have inside : (hi q).toNat ∈ ⋃ q, range (lo q) (hi q) :=
    Set.mem_iUnion.mpr ⟨q, Set.nonempty_Icc.mp (divides.nonempty q), Nat.le_refl _⟩
  rwa [divides.covers, Set.mem_Iio] at inside

theorem Holds.divides {images : Port → List SramWord} {writes : List Write}
    (holds : Holds images writes lo hi)
    (divides : Divides (laidOut calls).1 registers lo hi) :
    Divides (laidOut calls).1 (registers ++ writes) lo hi := by
  have below : ∀ write ∈ writes, write.1 < oqQueue0CtrlReg := by
    intro write member
    obtain ⟨port, k, inside, -, high⟩ := holds.only write member
    have fits := holds.fits port
    have last := hi_lt divides (transmitQueue port)
    unfold wordAddr sramBaseAddr at high
    unfold memSize at last
    unfold oqQueue0CtrlReg
    omega
  have silent {addr : Nat} (above : oqQueue0CtrlReg ≤ addr) : written addr writes = [] :=
    written_eq_nil fun write member same => absurd (below write member) (by omega)
  refine ⟨?_, ?_, divides.nonempty, divides.disjoint, divides.covers, divides.receive,
    divides.transmit, divides.base⟩
  · intro q
    rw [written_append, divides.lo_written, silent, List.append_nil]
    unfold addrLoReg oqQueue0AddrLoReg oqQueue0CtrlReg
    omega
  · intro q
    rw [written_append, divides.hi_written, silent, List.append_nil]
    unfold addrHiReg oqQueue0AddrHiReg oqQueue0CtrlReg
    omega

theorem Holds.length_le {images others : Port → List SramWord} {writes : List Write}
    (holds : Holds images writes lo hi) (holds' : Holds others writes lo hi)
    (divides : Divides (laidOut calls).1 registers lo hi) (port : Port) :
    (others port).length ≤ (images port).length := by
  by_contra more
  set k := (images port).length with first
  obtain ⟨word, there⟩ : ∃ word, (others port)[k]? = some word :=
    ⟨_, List.getElem?_eq_getElem (Nat.lt_of_not_le more)⟩
  have found := holds'.stored port k word there (0x4, word.ctrl.toUInt32) List.mem_cons_self
  have some' : ∃ write ∈ writes, write.1 = wordAddr ((lo (transmitQueue port)).toNat + k) + 4 := by
    by_contra none'
    rw [written_eq_nil fun write member same => none' ⟨write, member, same⟩] at found
    cases found
  obtain ⟨write, member, address⟩ := some'
  obtain ⟨port', k', inside, low, high⟩ := holds.only write member
  have same : (lo (transmitQueue port)).toNat + k = (lo (transmitQueue port')).toNat + k' := by
    unfold wordAddr at low high address
    omega
  have own := holds'.fits port
  have theirs := holds.fits port'
  by_cases here : port = port'
  · subst here
    omega
  · have apart := divides.disjoint (transmitQueue port) (transmitQueue port')
      (fun equal => here (Fin.ext (by simpa [transmitQueue] using congrArg Fin.val equal)))
    rw [Set.disjoint_left] at apart
    exact apart (a := (lo (transmitQueue port)).toNat + k) ⟨by omega, by omega⟩ ⟨by omega, by omega⟩

end Main

section Cut

variable {calls : List Call} {port : Port}

end Cut

end Oflops.NetFpga.Loading
