import Oflops.Cbench.Protocol
import Oflops.Lib.Loop
import Oflops.Lib.RingBuffer
import Oflops.Traffic.Decode

/-! `pcap_track.c`: the list of captured OpenFlow messages with their libpcap headers, a ring of
256 entries. An access outside the captured bytes, or outside the entries, has no result. -/

namespace Oflops.Track.Tracker
open Lib.Bytes Lib.Loop Lib.Record Lib.RingBuffer Time Traffic.Decode

def ptrackMaxLen : Nat := 256

structure PtrackEntry where
  data : List UInt8
  len : Nat
  hdr : PcapPkthdr
  deriving DecidableEq, Repr

structure PtrackList where
  entries : Nat → PtrackEntry
  count : Int
  head : Int

def ptrackNew : PtrackList where
  entries := fun _ => ⟨[], 0, ⟨⟨0, 0⟩, 0, 0⟩⟩
  count := 0
  head := 0

/-- `INT_MAX`, for frames that carry no TCP. -/
def noPayload : Int := 2 ^ 31 - 1

/-- Where the payload of a frame of `data.length` bytes starts. -/
def tcpPayloadOffset (data : List UInt8) : Option Int := do
  let etherType ← loadAt data 12 2
  let offset := if etherType = htons 0x8100 then 4 else 0
  if offset ≥ data.length then some noPayload
  else do
    let etherType ← loadAt data (offset + 12) 2
    if etherType ≠ htons 0x0800 then some noPayload
    else
      let offset := offset + 14
      if offset ≥ data.length then some noPayload
      else do
        let protocol ← loadAt data (offset + 9) 1
        if protocol ≠ 6 then some noPayload
        else do
          let first ← loadAt data offset 1
          let offset := offset + first % 16 * 4
          let doff ← loadAt data (offset + 12) 1
          some (offset + doff / 16 * 4 : Nat)

def entryAt (ptl : PtrackList) (idx : Int) : Option PtrackEntry :=
  if 0 ≤ idx ∧ idx < ptrackMaxLen then some (ptl.entries idx.toNat) else none

def track (ptl : PtrackList) (message : List UInt8) (hdr : PcapPkthdr) : Option PtrackList := do
  let _ ← entryAt ptl ptl.head
  let head := ptl.head + 1
  some
    { entries := Function.update ptl.entries ptl.head.toNat ⟨message, message.length, hdr⟩
      head := if head ≥ ptrackMaxLen then 0 else head
      count := if ptl.count < ptrackMaxLen then ptl.count + 1 else ptl.count }

/-- The variables of the loop of `ptrack_add_of_entry`; `data` is what is left of the payload. -/
structure Adding where
  ptl : PtrackList
  data : List UInt8
  addCount : Nat

def addBody (hdr : PcapPkthdr) (state : Adding) : Option (Iter Adding (Nat × PtrackList)) :=
  if state.data.length > 0 then do
    let length ← loadAt state.data 2 2
    let addLen := ntohs length
    if addLen > state.data.length then some (.leave (state.addCount, state.ptl))
    else do
      let ptl ← track state.ptl (state.data.take addLen) hdr
      some (.again ⟨ptl, state.data.drop addLen, state.addCount + 1⟩)
  else some (.leave (state.addCount, state.ptl))

/-- The number of messages added and the list afterwards. A loop that ends takes a byte off the
payload in every turn but the last. -/
def ptrackAddOfEntry (ptl : PtrackList) (data : List UInt8) (hdr : PcapPkthdr) :
    Option (Nat × PtrackList) := do
  let offset ← tcpPayloadOffset data
  if offset ≥ data.length then some (0, ptl)
  else loop (addBody hdr) (data.length + 1) ⟨ptl, data.drop offset.toNat, 0⟩

/-- The index that `ptrack_lookup` looks at, in every turn of its loop. -/
def lookupIndex (ptl : PtrackList) : Int :=
  let idx := ptl.head - 1 - ptl.count
  if idx < 0 then idx + ptrackMaxLen else idx

/-- The comparison with an entry; `len` is the length of `data`. -/
def matchesEntry (data : List UInt8) (ent : PtrackEntry) : Bool :=
  data.length ≤ ent.len ∧ data.take (min data.length ent.len) =
    ent.data.take (min data.length ent.len)

/-- The loop of `ptrack_lookup` with so many turns to go: the header written, if any, and the list
afterwards. -/
def lookupLoop (ptl : PtrackList) (data : List UInt8) :
    Nat → Option (Option PcapPkthdr × PtrackList)
  | 0 => some (none, ptl)
  | turns + 1 => do
    let ent ← entryAt ptl (lookupIndex ptl)
    if matchesEntry data ent then
      let head := ptl.head - 1
      some (some ent.hdr,
        { ptl with
          head := if head < 0 then head + ptrackMaxLen else head
          count := ptl.count - 1 })
    else lookupLoop ptl data turns

def ptrackLookup (ptl : PtrackList) (data : List UInt8) : Option (Option PcapPkthdr × PtrackList) :=
  lookupLoop ptl data ptl.count.toNat

end Oflops.Track.Tracker
