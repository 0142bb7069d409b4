import Oflops.Lib.Bytes
import Oflops.Lib.Record
import Oflops.Time

/-! Building and patching the packet of one user-space generator (`traffic_generator.c`), on a
little-endian host. An access outside the packet, or through a pointer that is still `NULL`,
has no result. -/

namespace Oflops.Traffic.Packet
open Lib.Bytes Lib.MachineInt Lib.Record Time

/-- The fields of `struct traf_gen_det` that the user-space generator reads; strings are given
up to their terminating NUL. -/
structure TrafGenDet where
  srcIp : List Char
  dstIpMax : List Char
  dstIpMin : List Char
  macDst : List Char
  macSrc : List Char
  udpSrcPort : UInt16
  udpDstPort : UInt16
  pktSize : UInt32
  vlan : UInt16
  delay : UInt32

def hexDigit (c : Char) : Option Nat :=
  if '0' ≤ c ∧ c ≤ '9' then some (c.toNat - '0'.toNat)
  else if 'a' ≤ c ∧ c ≤ 'f' then some (c.toNat - 'a'.toNat + 10)
  else if 'A' ≤ c ∧ c ≤ 'F' then some (c.toNat - 'A'.toNat + 10)
  else none

/-- The digits of a base up to the first character that is none, and what follows. -/
def digits (base : Nat) (acc : Nat) : List Char → Nat × List Char
  | [] => (acc, [])
  | c :: rest =>
    match hexDigit c with
    | some d => if d < base then digits base (acc * base + d) rest else (acc, c :: rest)
    | none => (acc, c :: rest)

def isSpace (c : Char) : Bool := c = ' ' ∨ ('\t' ≤ c ∧ c ≤ '\r')

theorem isDigit_apart {c : Char} (decimal : c.isDigit = true) :
    isSpace c = false ∧ c ≠ '-' ∧ c ≠ '+' := by
  obtain ⟨low, -⟩ := Char.isDigit_iff_toNat.mp decimal
  refine ⟨decide_eq_false ?_, ?_, ?_⟩
  · rintro (blank | ⟨-, control⟩)
    · rw [blank] at low
      exact absurd low (by decide)
    · exact absurd (Nat.le_trans low control) (by decide)
  · intro minus
    rw [minus] at low
    exact absurd low (by decide)
  · intro plus
    rw [plus] at low
    exact absurd low (by decide)

/-- `strtol(s, NULL, 16)`: blanks, a sign and `0x` may precede the digits; values out of range
are clamped. -/
def strtol16 (s : List Char) : Int :=
  let magnitude : List Char → Int
    | '0' :: 'x' :: rest => (digits 16 0 rest).1
    | '0' :: 'X' :: rest => (digits 16 0 rest).1
    | rest => (digits 16 0 rest).1
  let value := match s.dropWhile isSpace with
    | '-' :: rest => - magnitude rest
    | '+' :: rest => magnitude rest
    | rest => magnitude rest
  max (-2 ^ 63) (min value (2 ^ 63 - 1))

/-- `strtol(s, NULL, 10)`. -/
def strtol10 (s : List Char) : Int :=
  let value : Int := match s.dropWhile isSpace with
    | '-' :: rest => - ((digits 10 0 rest).1 : Int)
    | '+' :: rest => (digits 10 0 rest).1
    | rest => (digits 10 0 rest).1
  max (-2 ^ 63) (min value (2 ^ 63 - 1))

/-- One number of an address: decimal, octal with a leading `0`, hexadecimal with `0x`. -/
def inetNumber (s : List Char) : Option Nat :=
  let (value, rest) := match s with
    | '0' :: 'x' :: c :: rest => digits 16 0 (c :: rest)
    | '0' :: 'X' :: c :: rest => digits 16 0 (c :: rest)
    | '0' :: c :: rest => digits 8 0 (c :: rest)
    | _ => digits 10 0 s
  if s ≠ [] ∧ rest = [] then some value else none

/-- `a`, `a.b`, `a.b.c` or `a.b.c.d` as one 32-bit number; the last part fills the rest. What
follows a blank is not read. -/
def inetHost (s : List Char) : Option Nat := do
  let parts ← ((s.takeWhile fun c => !isSpace c).splitOn '.').mapM inetNumber
  let leading := parts.dropLast
  let last ← parts.getLast?
  if leading.length ≤ 3 ∧ (∀ part ∈ leading, part < 256) ∧ last < 256 ^ (4 - leading.length) then
    some (leading.foldl (fun value part => value * 256 + part) 0 * 256 ^
      (4 - leading.length) + last)
  else none

/-- In network byte order; `INADDR_NONE` for a malformed string. -/
def inetAddr (s : List Char) : Nat :=
  match inetHost s with
  | some host => htonl host
  | none => 2 ^ 32 - 1

/-- The octets written to consecutive bytes of `addr`, and the string afterwards: the colons
have become NUL characters. -/
def readMacAddr (str : List Char) : List UInt8 × List Char :=
  let parts := str.splitOn ':'
  (parts.map (fun part => UInt8.ofNat (strtol16 part % 256).toNat), parts.headD [])

def foldHalves (sum : Nat) : Nat := sum % 2 ^ 16 + sum / 2 ^ 16

/-- The summing loop of `ip_sum_calc`, with its 32-bit sum. -/
def ipSumWords (sum : Nat) : List UInt8 → Nat
  | first :: second :: rest =>
    let sum := (sum + htons (leValue [first, second])) % 2 ^ 32
    ipSumWords (if sum ≥ 2 ^ 31 then foldHalves sum else sum) rest
  | [last] => (sum + last.toNat) % 2 ^ 32
  | [] => sum

def foldCarries (sum : Nat) : Nat :=
  if sum / 2 ^ 16 = 0 then sum else foldCarries (foldHalves sum)
termination_by sum
decreasing_by
  unfold foldHalves
  omega

def ipSumCalc (ip : List UInt8) : Nat := 2 ^ 16 - 1 - foldCarries (ipSumWords 0 ip) % 2 ^ 16

/-- The state of a generator. Pointers into the packet are offsets from `data`. -/
structure PktDetails where
  trafficGen : Nat
  seqNum : UInt32
  timestamp : Timespec
  ip : Option Nat
  data : List UInt8
  ipDestMin : Nat
  ipDestMax : Nat
  pktgen : Option Nat

def etherHeaderSize : Nat := 14
def etherVlanHeaderSize : Nat := 18
def iphdrSize : Nat := 20
def udphdrSize : Nat := 8
def tcphdrSize : Nat := 20

/-- Assign the low or the high four bits of a byte. -/
def setLowNibble (byte : UInt8) (value : Nat) : UInt8 := UInt8.ofNat (byte.toNat / 16 * 16 + value)
def setHighNibble (byte : UInt8) (value : Nat) : UInt8 := UInt8.ofNat (value * 16 + byte.toNat % 16)

/-- Assign `vid`, bits 4 to 15 of the 16-bit unit at an offset. -/
def setVid (data : List UInt8) (offset value : Nat) : Option (List UInt8) := do
  let unit ← readAt data offset 2
  writeAt data offset (leBytes 2 (leValue unit % 16 + value % 2 ^ 12 * 16))

def isTagged (det : TrafGenDet) : Bool := det.vlan ≠ 0 ∧ det.vlan ≠ 0xffff

/-- The Ethernet header: the tag and the type, after the addresses. -/
def writeEtherType (data : List UInt8) (det : TrafGenDet) : Option (List UInt8) :=
  if isTagged det then do
    let data ← writeAt data 12 (leBytes 2 (htons 0x8100))
    let data ← setVid data 14 (htons det.vlan.toNat / 2 ^ 4)
    writeAt data 16 (leBytes 2 (htons 0x0800))
  else writeAt data 12 (leBytes 2 (htons 0x0800))

def writeIp (data : List UInt8) (ip : Nat) (det : TrafGenDet) : Option (List UInt8) := do
  let data ← writeAt data (ip + 2) (leBytes 2 (htons (data.length - ip)))
  let byte ← readAt data ip 1
  let data ← writeAt data ip (byte.map (fun byte => setHighNibble (setLowNibble byte 5) 4))
  let data ← writeAt data (ip + 8) [100]
  let data ← writeAt data (ip + 9) [17]
  let data ← writeAt data (ip + 12) (leBytes 4 (inetAddr det.srcIp))
  writeAt data (ip + 16) (leBytes 4 (inetAddr det.dstIpMin))

/-- `ip->check = htons(ip_sum_calc(20, ip))`. -/
def writeCheck (data : List UInt8) (ip : Nat) : Option (List UInt8) := do
  let header ← readAt data ip iphdrSize
  writeAt data (ip + 10) (leBytes 2 (htons (ipSumCalc header)))

def writeUdp (data : List UInt8) (ip : Nat) (det : TrafGenDet) : Option (List UInt8) := do
  let udp := ip + iphdrSize
  let data ← writeAt data udp (leBytes 2 (htons det.udpSrcPort.toNat))
  let data ← writeAt data (udp + 2) (leBytes 2 (htons det.udpDstPort.toNat))
  let data ← writeAt data (udp + 4) (leBytes 2 (htons (data.length - ip - iphdrSize)))
  writeAt data (udp + udphdrSize) (leBytes 4 (htonl 0xbe9be955))

/-- The return value, the generator and the details with their used up address strings. The
length is kept in an `int`, and `memset` does not survive a negative one. -/
def innitializeGeneratorPacket (state : PktDetails) (det : TrafGenDet) :
    Option (Nat × PktDetails × TrafGenDet) :=
  let dataLen := int32 det.pktSize.toNat
  if dataLen < 0 then none
  else
    let data := List.replicate dataLen.toNat 0
    if data.length < etherVlanHeaderSize + iphdrSize + tcphdrSize then
      some (0, { state with data }, det)
    else do
      let (dst, macDst) := readMacAddr det.macDst
      let data ← writeAt data 0 dst
      let (src, macSrc) := readMacAddr det.macSrc
      let data ← writeAt data 6 src
      let data ← writeEtherType data det
      let ip := if isTagged det then etherVlanHeaderSize else etherHeaderSize
      let data ← writeIp data ip det
      let data ← writeCheck data ip
      let data ← writeUdp data ip det
      some (1,
        { state with
          data
          ip := some ip
          ipDestMin := inetAddr det.dstIpMin
          ipDestMax := inetAddr det.dstIpMax
          pktgen := some (ip + iphdrSize + udphdrSize) },
        { det with macDst, macSrc })

def nextDest (state : PktDetails) (daddr : Nat) : Nat :=
  if daddr = state.ipDestMax then state.ipDestMin else htonl ((ntohl daddr + 1) % 2 ^ 32)

/-- The flow part of `send_pkt`: a new destination and the checksum that goes with it. -/
def rotateDest (state : PktDetails) (data : List UInt8) : Option (List UInt8) :=
  if state.ipDestMin ≠ state.ipDestMax then do
    let ip ← state.ip
    let daddr ← readAt data (ip + 16) 4
    let data ← writeAt data (ip + 16) (leBytes 4 (nextDest state (leValue daddr)))
    let data ← writeAt data (ip + 10) [0, 0]
    writeCheck data ip
  else some data

/-- The bytes handed to `oflops_send_raw_mesg` and the generator afterwards; `delay` is that of
the generator's channel. -/
def sendPkt (state : PktDetails) (delay : UInt32) (now : Timeval) :
    Option (List UInt8 × PktDetails) := do
  let pktgen ← state.pktgen
  let data ← writeAt state.data (pktgen + 4) (leBytes 4 (htonl state.seqNum.toNat))
  let data ← writeAt data (pktgen + 8) (leBytes 4 (htonl (now.tvSec % 2 ^ 32).toNat))
  let data ← writeAt data (pktgen + 12) (leBytes 4 (htonl (now.tvUsec % 2 ^ 32).toNat))
  let data ← rotateDest state data
  some (data,
    { state with
      seqNum := state.seqNum + 1
      data
      timestamp := addTimespec state.timestamp 0 delay.toNat })

theorem writeCheck_length {data after : List UInt8} {ip : Nat}
    (done : writeCheck data ip = some after) : after.length = data.length := by
  obtain ⟨_, -, written⟩ := Option.bind_eq_some_iff.mp done
  exact (writeAt_some written).2

theorem rotateDest_length {state : PktDetails} {data after : List UInt8}
    (done : rotateDest state data = some after) : after.length = data.length := by
  unfold rotateDest at done
  split_ifs at done
  · obtain ⟨_, -, done⟩ := Option.bind_eq_some_iff.mp done
    obtain ⟨_, -, done⟩ := Option.bind_eq_some_iff.mp done
    obtain ⟨_, daddr, done⟩ := Option.bind_eq_some_iff.mp done
    obtain ⟨_, zero, check⟩ := Option.bind_eq_some_iff.mp done
    rw [writeCheck_length check, (writeAt_some zero).2, (writeAt_some daddr).2]
  · cases done
    rfl

theorem sendPkt_cases {state after : PktDetails} {delay : UInt32} {now : Timeval}
    {frame : List UInt8} (done : sendPkt state delay now = some (frame, after)) :
    ∃ pktgen, state.pktgen = some pktgen ∧ pktgen + 16 ≤ state.data.length ∧
      frame.length = state.data.length ∧
      after = { state with
        seqNum := state.seqNum + 1
        data := frame
        timestamp := addTimespec state.timestamp 0 delay.toNat } := by
  obtain ⟨pktgen, set, done⟩ := Option.bind_eq_some_iff.mp done
  obtain ⟨_, seqNum, done⟩ := Option.bind_eq_some_iff.mp done
  obtain ⟨_, tvSec, done⟩ := Option.bind_eq_some_iff.mp done
  obtain ⟨_, tvUsec, done⟩ := Option.bind_eq_some_iff.mp done
  obtain ⟨_, rotated, done⟩ := Option.bind_eq_some_iff.mp done
  cases done
  obtain ⟨inside, size⟩ := writeAt_some tvUsec
  rw [(writeAt_some tvSec).2, (writeAt_some seqNum).2] at inside size
  rw [leBytes_length] at inside
  exact ⟨pktgen, set, by omega, (rotateDest_length rotated).trans size, rfl⟩

theorem writeCheck_fits {data : List UInt8} {ip : Nat} (room : ip + 20 ≤ data.length) :
    ∃ after, writeCheck data ip = some after := by
  have header : readAt data ip iphdrSize = some (slice data ip iphdrSize) := readAt_inside room
  obtain ⟨after, written, -⟩ := writeAt_fits data (ip + 10)
    (leBytes 2 (htons (ipSumCalc (slice data ip iphdrSize)))) (by rw [leBytes_length]; omega)
  exact ⟨after, by rw [writeCheck, header, Option.bind_eq_bind, Option.bind_some, written]⟩

theorem rotateDest_fits {state : PktDetails} {data : List UInt8} {base : Nat}
    (ip : state.ip = some base) (room : base + 20 ≤ data.length) :
    ∃ after, rotateDest state data = some after := by
  unfold rotateDest
  split_ifs
  · have daddr : readAt data (base + 16) 4 = some (slice data (base + 16) 4) :=
      readAt_inside (by omega)
    obtain ⟨first, moved, size⟩ := writeAt_fits data (base + 16)
      (leBytes 4 (nextDest state (leValue (slice data (base + 16) 4))))
      (by rw [leBytes_length]; omega)
    obtain ⟨second, zero, size'⟩ := writeAt_fits first (base + 10) [0, 0]
      (by rw [List.length_cons, List.length_singleton]; omega)
    have room' : base + 20 ≤ second.length := by omega
    obtain ⟨after, check⟩ := writeCheck_fits room'
    exact ⟨after, by simp only [ip, daddr, moved, zero, check, Option.bind_eq_bind,
      Option.bind_some]⟩
  · exact ⟨data, rfl⟩

theorem sendPkt_fits {state : PktDetails} {base : Nat} (ip : state.ip = some base)
    (pktgen : state.pktgen = some (base + 28)) (room : base + 44 ≤ state.data.length)
    (wait : UInt32) (now : Timeval) : (sendPkt state wait now).isSome := by
  have fits (data : List UInt8) (offset value : Nat) (inside : offset + 4 ≤ data.length) :
      ∃ after, writeAt data offset (leBytes 4 value) = some after ∧ after.length = data.length := by
    apply writeAt_fits
    rwa [leBytes_length]
  obtain ⟨first, seqNum, size⟩ :=
    fits state.data (base + 28 + 4) (htonl state.seqNum.toNat) (by omega)
  obtain ⟨second, tvSec, size'⟩ :=
    fits first (base + 28 + 8) (htonl (now.tvSec % 2 ^ 32).toNat) (by omega)
  obtain ⟨third, tvUsec, size''⟩ :=
    fits second (base + 28 + 12) (htonl (now.tvUsec % 2 ^ 32).toNat) (by omega)
  have room' : base + 20 ≤ third.length := by omega
  obtain ⟨frame, rotated⟩ := rotateDest_fits ip room'
  simp only [sendPkt, pktgen, seqNum, tvSec, tvUsec, rotated, Option.bind_eq_bind, Option.bind_some,
    Option.isSome_some]

end Oflops.Traffic.Packet
