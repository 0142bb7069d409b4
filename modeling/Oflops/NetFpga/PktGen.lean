import Mathlib.Data.Fintype.Basic
import Mathlib.Logic.Function.Basic
import Oflops.Lib.Bytes
import Oflops.Lib.Float32
import Oflops.Time

/-! Loading packets into the NetFPGA packet generator and dividing its memory between the
queues (`pkt_gen_2.c`), on a little-endian host. -/

namespace Oflops.NetFpga.PktGen
open Lib.Bytes Lib.Float32 Lib.MachineInt Time

def memSize : Nat := 0x80000
def numPorts : Nat := 4
def xmitQueueSize : Nat := 4096
def minRxQueueSize : Nat := memSize / (2 * numPorts) / 2
def minTxQueueSize : Nat := 4
def maxTxQueueSize : Nat := memSize - numPorts * (minRxQueueSize + xmitQueueSize + minTxQueueSize)

def ioQueueStageNum : UInt8 := 0xff
def padCtrlVal : UInt8 := 0xfd

abbrev Port := Fin 4

/-- In the order in which the loops visit them. -/
def ports : List Port := [0, 1, 2, 3]

/-- The globals of the loader. The length of the image of a queue is kept by `queue_data`
itself. -/
structure Globals where
  totalWords : Int
  queueWords : Port → UInt32
  queueBytes : Port → UInt32
  queuePkts : Port → UInt32
  queueBaseAddr : Port → Int
  secCurrent : Port → UInt32
  usecCurrent : Port → UInt32
  queueData : Port → List UInt8

def initial : Globals where
  totalWords := 0
  queueWords _ := 0
  queueBytes _ := 0
  queuePkts _ := 0
  queueBaseAddr _ := 0
  secCurrent _ := 0
  usecCurrent _ := 0
  queueData _ := []

/-- `USEC_PER_BYTE` is `0.008`, stored in an array of integers. -/
def usecPerByte : UInt32 := 0

/-- `ceil(((float)len)/8)`. -/
def wordLen (len : UInt32) : UInt32 := UInt32.ofNat ((toFloat len.toNat + 7) / 8)

/-- The delay that `-1` stands for: the time since the previous packet of the port. -/
def pcapDelay (globals : Globals) (port : Port) (sec usec : UInt32) : Int :=
  let delay := int32 (sec - globals.secCurrent port).toNat
  let delay := int32 (delay * 1000000)
  let delay := int32 (usec + UInt32.ofInt delay - globals.usecCurrent port).toNat
  int32 (delay * 1000)

/-- The loop that carries microseconds over into seconds. -/
def carry (sec usec : UInt32) : UInt32 × UInt32 :=
  if 1000000 < usec then carry (sec + 1) (usec - 1000000) else (sec, usec)
termination_by usec.toNat
decreasing_by
  rename_i more
  have late : 1000000 < usec.toNat := more
  rw [UInt32.toNat_sub_of_le _ _ (UInt32.le_of_lt more)]
  exact Nat.sub_lt (by omega) (by decide)

/-- A control word: its tag, the word count with the destination port, the byte count. -/
def header (tag : UInt8) (words len : UInt32) (port : Port) : List UInt8 :=
  let dstPort : UInt32 := 0x100 <<< UInt32.ofNat port
  let srcPort : UInt32 := 0
  tag :: leBytes 4 (ntohl (words ||| dstPort <<< 16).toNat) ++
    leBytes 4 (ntohl (len ||| srcPort <<< 16).toNat)

def ctrl (words len i : UInt32) : UInt8 :=
  if i / 8 = words - 1 then
    let ctrl : UInt16 := 0x100 >>> (len % 8).toUInt16
    UInt8.ofNat ((ctrl &&& 0xff) ||| (if ctrl = 0x100 then 1 else 0)).toNat
  else 0

/-- The words of the packet, eight bytes of `data` each. -/
def body (data : Nat → UInt8) (words len count : UInt32) : List UInt8 :=
  (List.range ((count.toNat + 7) / 8)).flatMap fun k =>
    ctrl words len (UInt32.ofNat (8 * k)) :: (List.range 8).map fun j => data (8 * k + j)

/-- A call of `load_packet`. The global `pad` is a parameter of the call, and `data` is the
memory from the packet on. -/
structure Load where
  pad : Bool
  h : PcapPkthdr
  data : Nat → UInt8
  port : Port
  delay : Int

/-- `write_pad`. -/
def Load.padded (load : Load) : Bool := load.pad ∧ 64 < load.h.len

def Load.nonPadLen (load : Load) : UInt32 := if load.padded then 64 else load.h.len

def Load.nonPadWordLen (load : Load) : UInt32 := if load.padded then 8 else wordLen load.h.len

/-- `sec` and `usec`. -/
def Load.sec (load : Load) : UInt32 := UInt32.ofInt load.h.ts.tvSec
def Load.usec (load : Load) : UInt32 := UInt32.ofInt load.h.ts.tvUsec

/-- `packet_words`: room for the packet, its header, a delay and the padding. -/
def packetWords (globals : Globals) (load : Load) : UInt32 :=
  let delay := if load.delay = -1 then pcapDelay globals load.port load.sec load.usec
    else load.delay
  load.nonPadWordLen + 1 + (if 0 < delay then 1 else 0) + (if load.padded then 1 else 0)

/-- What is appended to the image of the queue; a delay is counted but not stored. -/
def image (load : Load) : List UInt8 :=
  header ioQueueStageNum load.nonPadWordLen load.nonPadLen load.port ++
    (if load.padded then header padCtrlVal (wordLen load.h.len) load.h.len load.port else []) ++
    body load.data load.nonPadWordLen load.nonPadLen
      (if load.pad then load.nonPadWordLen else load.h.len)

/-- The return value and the globals afterwards. -/
def loadPacket (globals : Globals) (load : Load) : Int × Globals :=
  let words := packetWords globals load
  let port := load.port
  if words + UInt32.ofInt globals.totalWords > UInt32.ofNat maxTxQueueSize then (0, globals)
  else
    let (sec, usec) := carry load.sec (load.usec + (load.h.len + 4) * usecPerByte)
    (0,
      { globals with
        totalWords := int32 (UInt32.ofInt globals.totalWords + words).toNat
        queueWords := Function.update globals.queueWords port (globals.queueWords port + words)
        queueBytes := Function.update globals.queueBytes port
          (globals.queueBytes port + load.h.len)
        queuePkts := Function.update globals.queuePkts port (globals.queuePkts port + 1)
        secCurrent := Function.update globals.secCurrent port sec
        usecCurrent := Function.update globals.usecCurrent port usec
        queueData := Function.update globals.queueData port
          (globals.queueData port ++ image load) })

def loadAll (globals : Globals) (loads : List Load) : Globals :=
  loads.foldl (fun globals load => (loadPacket globals load).2) globals

abbrev Write := Nat × UInt32

def oqQueue0CtrlReg : Nat := 0x2000000
def oqQueue0AddrLoReg : Nat := 0x2000020
def oqQueue0AddrHiReg : Nat := 0x2000024
def oqQueue1AddrLoReg : Nat := 0x2000120

def queueAddrOffset : Nat := oqQueue1AddrLoReg - oqQueue0AddrLoReg

def ctrlReg (queue : Nat) : Nat := oqQueue0CtrlReg + queue * queueAddrOffset
def addrLoReg (queue : Nat) : Nat := oqQueue0AddrLoReg + queue * queueAddrOffset
def addrHiReg (queue : Nat) : Nat := oqQueue0AddrHiReg + queue * queueAddrOffset

def getQueueSize (globals : Globals) (port : Port) : Int :=
  if globals.queueWords port < UInt32.ofNat minTxQueueSize then minTxQueueSize
  else int32 (globals.queueWords port).toNat

/-- What the receive queues share. -/
def queueFree (globals : Globals) : UInt32 :=
  ports.foldl
    (fun free port => free - UInt32.ofInt (getQueueSize globals port))
    (UInt32.ofNat (memSize - numPorts * xmitQueueSize))

/-- `floor(((float)queue_free) / NUM_PORTS)`, and for the first queue what is left. -/
def rxQueueSize (globals : Globals) (port : Port) : UInt32 :=
  let free := queueFree globals
  let share := UInt32.ofNat (toFloat free.toNat / numPorts)
  if port = 0 then share + (free - UInt32.ofNat numPorts * share) else share

/-- The bounds of one queue, and its initialisation. -/
def setQueue (queue : Nat) (currAddr size : UInt32) : List Write :=
  [(addrLoReg queue, currAddr), (addrHiReg queue, currAddr + size - 1), (ctrlReg queue, 2)]

/-- The state of the loops of `queue_reorganize`. -/
structure Resizing where
  currAddr : UInt32
  queueBaseAddr : Port → Int
  writes : List Write

def Resizing.place (r : Resizing) (queue : Nat) (size : UInt32) : Resizing :=
  { r with
    currAddr := r.currAddr + size
    writes := r.writes ++ setQueue queue r.currAddr size }

/-- One turn of the first loop: the queue for transmission during setup and the receive
queue. -/
def Resizing.receive (globals : Globals) (r : Resizing) (port : Port) : Resizing :=
  (r.place (port * 2) (UInt32.ofNat xmitQueueSize)).place (port * 2 + 1)
    (rxQueueSize globals port)

/-- One turn of the second loop: the transmit queue. -/
def Resizing.transmit (globals : Globals) (r : Resizing) (port : Port) : Resizing :=
  { r.place (port + 2 * numPorts) (UInt32.ofInt (getQueueSize globals port)) with
    queueBaseAddr := Function.update r.queueBaseAddr port (int32 r.currAddr.toNat) }

/-- The globals afterwards and the register writes in their order. -/
def queueReorganize (globals : Globals) : Globals × List Write :=
  let disable := (List.range (3 * numPorts)).map fun queue => (ctrlReg queue, 0)
  let r : Resizing := ⟨0, globals.queueBaseAddr, disable⟩
  let r := ports.foldl (Resizing.receive globals) r
  let r := ports.foldl (Resizing.transmit globals) r
  let enable := (List.range (2 * numPorts)).map fun queue => (ctrlReg queue, 1)
  ({ globals with queueBaseAddr := r.queueBaseAddr }, r.writes ++ enable)

end Oflops.NetFpga.PktGen
