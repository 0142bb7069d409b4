import Oflops.Lib.Bytes
import Oflops.Lib.Framing
import Oflops.Lib.MachineInt
import Oflops.Lib.Record

/-! The part of OpenFlow 1.0 that cbench speaks: how the byte stream is cut into messages,
the messages the switch looks into and the ones it makes. -/

namespace Oflops.Cbench.Protocol
open Lib.Bytes Lib.Framing Lib.MachineInt Lib.Record

def ofpVersion : UInt8 := 1

/-- The message types that `fakeswitch_handle_read` tells apart. -/
inductive OfpType where
  | hello
  | echoRequest
  | vendor
  | featuresRequest
  | setConfig
  | packetOut
  | flowMod
  | statsRequest
  | other
  deriving DecidableEq, Repr

def OfpType.ofByte (code : UInt8) : OfpType :=
  match code.toNat with
  | 0 => .hello
  | 2 => .echoRequest
  | 4 => .vendor
  | 5 => .featuresRequest
  | 9 => .setConfig
  | 13 => .packetOut
  | 14 => .flowMod
  | 16 => .statsRequest
  | _ => .other

def ofptHello : UInt8 := 0
def ofptError : UInt8 := 1
def ofptEchoReply : UInt8 := 3
def ofptFeaturesReply : UInt8 := 6
def ofptPacketIn : UInt8 := 10

def ofpfcAdd : Nat := 0
def ofpfcModifyStrict : Nat := 2

def ofpetBadRequest : Nat := 1
def ofpbrcBadVendor : Nat := 3

def ofpHeaderSize : Nat := 8

/-- Messages announce their size in bytes 2 and 3, in network order. -/
def announcedSize (message : List UInt8) : Nat := beValue ((message.drop 2).take 2)

theorem announcedSize_append {message : List UInt8} (rest : List UInt8)
    (arrived : 4 ≤ message.length) : announcedSize (message ++ rest) = announcedSize message :=
  congrArg beValue (slice_append_left rest arrived)

def openflow : Layout UInt8 where
  header := ofpHeaderSize
  size := announcedSize
  positive := by decide
  size_append _ rest header := announcedSize_append rest (Nat.le_trans (by decide) header)

/-- A well-formed message: the announced size is the real one, and a flow modification is
long enough to hold its fixed part. -/
structure Message where
  bytes : List UInt8
  framed : openflow.Frame bytes
  flowMod : OfpType.ofByte (bytes.getD 1 0) = .flowMod → 72 ≤ bytes.length

namespace Message

theorem framed_map (messages : List Message) :
    ∀ frame ∈ messages.map Message.bytes, openflow.Frame frame :=
  List.forall_mem_map.mpr fun message _ => message.framed

def type (message : Message) : OfpType := OfpType.ofByte (message.bytes.getD 1 0)

def xid (message : Message) : Nat := leValue ((message.bytes.drop 4).take 4)

def command (message : Message) : Nat := beValue ((message.bytes.drop 56).take 2)

end Message

def htonll (n : Nat) : Nat := htonl (n % 2 ^ 32) * 2 ^ 32 + htonl (n / 2 ^ 32)

def fakeFeatures : List UInt8 :=
  [ 0x97, 0x06, 0x00, 0xe0, 0x04, 0x01, 0x00, 0x00, 0x00, 0x00, 0x76, 0xa9, 0xd4, 0x0d, 0x25, 0x48,
    0x00, 0x00, 0x01, 0x00, 0x02, 0x00, 0x00, 0x00, 0x00, 0x00, 0x00, 0x1f, 0x00, 0x00, 0x03, 0xff,
    0x00, 0x00, 0x1a, 0xc1, 0x51, 0xff, 0xef, 0x8a, 0x76, 0x65, 0x74, 0x68, 0x31, 0x00, 0x00, 0x00,
    0x00, 0x00, 0x00, 0x00, 0x00, 0x00, 0x00, 0x00, 0x00, 0x00, 0x00, 0x00, 0x00, 0x00, 0x00, 0x00,
    0x00, 0x00, 0x00, 0xc0, 0x00, 0x00, 0x00, 0x00, 0x00, 0x00, 0x00, 0x00, 0x00, 0x00, 0x00, 0x00,
    0x00, 0x01, 0xce, 0x2f, 0xa2, 0x87, 0xf6, 0x70, 0x76, 0x65, 0x74, 0x68, 0x33, 0x00, 0x00, 0x00,
    0x00, 0x00, 0x00, 0x00, 0x00, 0x00, 0x00, 0x00, 0x00, 0x00, 0x00, 0x00, 0x00, 0x00, 0x00, 0x00,
    0x00, 0x00, 0x00, 0xc0, 0x00, 0x00, 0x00, 0x00, 0x00, 0x00, 0x00, 0x00, 0x00, 0x00, 0x00, 0x00,
    0x00, 0x02, 0xca, 0x8a, 0x1e, 0xf3, 0x77, 0xef, 0x76, 0x65, 0x74, 0x68, 0x35, 0x00, 0x00, 0x00,
    0x00, 0x00, 0x00, 0x00, 0x00, 0x00, 0x00, 0x00, 0x00, 0x00, 0x00, 0x00, 0x00, 0x00, 0x00, 0x00,
    0x00, 0x00, 0x00, 0xc0, 0x00, 0x00, 0x00, 0x00, 0x00, 0x00, 0x00, 0x00, 0x00, 0x00, 0x00, 0x00,
    0x00, 0x03, 0xfa, 0xbc, 0x77, 0x8d, 0x7e, 0x0b, 0x76, 0x65, 0x74, 0x68, 0x37, 0x00, 0x00, 0x00,
    0x00, 0x00, 0x00, 0x00, 0x00, 0x00, 0x00, 0x00, 0x00, 0x00, 0x00, 0x00, 0x00, 0x00, 0x00, 0x00,
    0x00, 0x00, 0x00, 0xc0, 0x00, 0x00, 0x00, 0x00, 0x00, 0x00, 0x00, 0x00, 0x00, 0x00, 0x00, 0x00]

def makeFeaturesReply (id : Int) (xid : Nat) : List UInt8 :=
  let buf := patch fakeFeatures 0 [ofpVersion]
  let buf := patch buf 4 (leBytes 4 xid)
  patch buf 8 (leBytes 8 (htonll (uint64 id).toNat))

def makeVendorReply (xid : Nat) : List UInt8 :=
  [ofpVersion, ofptError] ++ leBytes 2 (htons 12) ++ leBytes 4 xid ++
    leBytes 2 (htons ofpetBadRequest) ++ leBytes 2 (htons ofpbrcBadVendor)

/-- The header alone, as `fakeswitch_handle_read` fills `echo` in. -/
def makeEchoReply (xid : Nat) : List UInt8 :=
  [ofpVersion, ofptEchoReply] ++ leBytes 2 (htons ofpHeaderSize) ++ leBytes 4 xid

/-- The header that `fakeswitch_init` sends. -/
def makeHello : List UInt8 :=
  [ofpVersion, ofptHello] ++ leBytes 2 (htons ofpHeaderSize) ++ leBytes 4 (htonl 1)

def fakePacketIn : List UInt8 :=
  [ 0x97, 0x0a, 0x00, 0x52, 0x00, 0x00, 0x00, 0x00, 0x00, 0x00, 0x01, 0x01, 0x00, 0x40, 0x00, 0x00,
    0x00, 0x00, 0x80, 0x00, 0x00, 0x00, 0x00, 0x01, 0x00, 0x00, 0x00, 0x00, 0x00, 0x02, 0x08, 0x00,
    0x45, 0x00, 0x00, 0x32, 0x00, 0x00, 0x00, 0x00, 0x40, 0xff, 0xf7, 0x2c, 0xc0, 0xa8, 0x00, 0x28,
    0xc0, 0xa8, 0x01, 0x28, 0x7a, 0x18, 0x58, 0x6b, 0x11, 0x08, 0x97, 0xf5, 0x19, 0xe2, 0x65, 0x7e,
    0x07, 0xcc, 0x31, 0xc3, 0x11, 0xc7, 0xc4, 0x0c, 0x8b, 0x95, 0x51, 0x51, 0x33, 0x54, 0x51, 0xd5,
    0x00, 0x36]

def makePacketIn (switchId : Int) (bufferId : Nat) (macAddress : Int) : List UInt8 :=
  let buf := patch fakePacketIn 0 [ofpVersion]
  let buf := patch buf 8 (leBytes 4 (htonl bufferId))
  let buf := patch buf 25 (leBytes 4 (macAddress % 2 ^ 32).toNat)
  let buf := patch buf 23 (leBytes 1 (switchId % 256).toNat)
  patch buf 29 (leBytes 1 (switchId % 256).toNat)

def messageType (message : List UInt8) : UInt8 := message.getD 1 0

def messageXid (message : List UInt8) : Nat := leValue ((message.drop 4).take 4)

/-- A message with a correct header, as the five functions above make it. -/
def wellFormed (type : UInt8) (xid : Nat) (body : List UInt8) : List UInt8 :=
  [ofpVersion, type] ++ leBytes 2 (htons (ofpHeaderSize + body.length)) ++ leBytes 4 xid ++ body

theorem wellFormed_framed (type : UInt8) (xid : Nat) {body : List UInt8}
    (small : body.length < 2 ^ 16 - ofpHeaderSize) : openflow.Frame (wellFormed type xid body) := by
  have total : (wellFormed type xid body).length = ofpHeaderSize + body.length := by
    simp [wellFormed, ofpHeaderSize]
    omega
  have field : ((wellFormed type xid body).drop 2).take 2 =
      leBytes 2 (htons (ofpHeaderSize + body.length)) := rfl
  constructor
  · rw [total]
    exact Nat.le_add_right _ _
  · change beValue _ = _
    rw [total, field, htons, leBytes_swapBytes,
      beValue_beBytes_of_lt (by unfold ofpHeaderSize at *; omega)]

@[simp] theorem wellFormed_type (type : UInt8) (xid : Nat) (body : List UInt8) :
    messageType (wellFormed type xid body) = type := rfl

theorem wellFormed_xid (type : UInt8) {xid : Nat} (body : List UInt8) (fits : xid < 2 ^ 32) :
    messageXid (wellFormed type xid body) = xid :=
  (leValue_leBytes 4 xid).trans (Nat.mod_eq_of_lt fits)

theorem makeHello_eq : makeHello = wellFormed ofptHello (htonl 1) [] := rfl

theorem makeFeaturesReply_eq (id : Int) (xid : Nat) :
    ∃ body, body.length = 216 ∧
      makeFeaturesReply id xid = wellFormed ofptFeaturesReply xid body := by
  have first : patch fakeFeatures 0 [ofpVersion] = [1, 6, 0, 0xe0] ++ fakeFeatures.drop 4 := by
    decide +kernel
  have second := patch_start (show ([1, 6, 0, 0xe0] : List UInt8).length = 4 from rfl)
    (fakeFeatures.drop 4) (leBytes 4 xid)
  have third := patch_start
    (show ([1, 6, 0, 0xe0] ++ leBytes 4 xid : List UInt8).length = 8 by simp)
    (fakeFeatures.drop 8) (leBytes 8 (htonll (uint64 id).toNat))
  rw [leBytes_length, List.drop_drop, ← List.append_assoc] at second
  rw [leBytes_length, List.drop_drop] at third
  have length : (leBytes 8 (htonll (uint64 id).toNat) ++ fakeFeatures.drop 16).length = 216 := by
    rw [List.length_append, leBytes_length,
      show (fakeFeatures.drop 16).length = 208 by decide +kernel]
  refine ⟨_, length, ?_⟩
  unfold makeFeaturesReply wellFormed
  dsimp only
  rw [first, second, third, length]
  rfl

theorem makeVendorReply_eq (xid : Nat) :
    makeVendorReply xid = wellFormed ofptError xid
      (leBytes 2 (htons ofpetBadRequest) ++ leBytes 2 (htons ofpbrcBadVendor)) := rfl

theorem makeEchoReply_eq (xid : Nat) : makeEchoReply xid = wellFormed ofptEchoReply xid [] := rfl

theorem makePacketIn_eq (switchId : Int) (bufferId : Nat) (macAddress : Int) :
    ∃ body, body.length = 74 ∧
      makePacketIn switchId bufferId macAddress = wellFormed ofptPacketIn 0 body := by
  have header : patch fakePacketIn 0 [ofpVersion] =
      [1, 10, 0, 0x52, 0, 0, 0, 0] ++ fakePacketIn.drop 8 := by decide +kernel
  -- the fields behind the header are filled in without moving anything
  have behind : ∀ (body field : List UInt8) (offset : Nat), body.length = 74 → 8 ≤ offset →
      offset + field.length ≤ 82 → ∃ body' : List UInt8, body'.length = 74 ∧
        patch ([1, 10, 0, 0x52, 0, 0, 0, 0] ++ body) offset field =
          [1, 10, 0, 0x52, 0, 0, 0, 0] ++ body' := by
    intro body field offset length low high
    exact ⟨_, (patch_length (by simp; omega)).trans length, patch_append_right low⟩
  obtain ⟨body₁, length₁, buffer⟩ := behind (fakePacketIn.drop 8) (leBytes 4 (htonl bufferId)) 8
    (by decide +kernel) (by decide) (by simp)
  obtain ⟨body₂, length₂, mac⟩ := behind body₁ (leBytes 4 (macAddress % 2 ^ 32).toNat) 25 length₁
    (by decide) (by simp)
  obtain ⟨body₃, length₃, dhost⟩ := behind body₂ (leBytes 1 (switchId % 256).toNat) 23 length₂
    (by decide) (by simp)
  obtain ⟨body₄, length₄, shost⟩ := behind body₃ (leBytes 1 (switchId % 256).toNat) 29 length₃
    (by decide) (by simp)
  refine ⟨body₄, length₄, ?_⟩
  unfold makePacketIn wellFormed
  dsimp only
  rw [header, buffer, mac, dhost, shost, length₄]
  rfl

end Oflops.Cbench.Protocol
