import Oflops.Track.Lookup

/-! Splitting a captured frame of any content into OpenFlow messages. `ptrack_add_of_entry` trusts
the frame: it reads the header fields and the length fields without asking whether they were
captured, and takes a message of any announced length off the payload. -/

namespace Oflops.Track.Splitting
open Lib.Bytes Lib.Loop Lib.Record Time Traffic.Decode Cbench.Protocol Tracker Lookup

/-- The captured bytes; their number is an `int`. -/
structure Frame where
  bytes : List UInt8
  fits : bytes.length < 2 ^ 31

namespace Frame

variable (frame : Frame)

/-- The length of the Ethernet header, with its tag where there is one. -/
def link : Nat := if beValue (slice frame.bytes 12 2) = 0x8100 then 18 else 14

def etherType : Nat := beValue (slice frame.bytes (frame.link - 2) 2)

def protocol : Nat := (frame.bytes.getD (frame.link + 9) 0).toNat

def transport : Nat := frame.link + (frame.bytes.getD frame.link 0).toNat % 16 * 4

/-- The length of all the headers, as they say themselves. -/
def headers : Nat := frame.transport + (frame.bytes.getD (frame.transport + 12) 0).toNat / 16 * 4

/-- The TCP payload, as far as it was captured. -/
def payload : List UInt8 :=
  if frame.etherType = 0x0800 ∧ frame.protocol = 6 then frame.bytes.drop frame.headers else []

/-- The leading messages of the payload: at least as long as a header, and all there. -/
def messages : List (List UInt8) := (openflow.leading frame.payload.length frame.payload).1

def rest : List UInt8 := (openflow.leading frame.payload.length frame.payload).2

/-- The header fields that decide where the payload starts were captured. -/
def HeadersInside : Prop :=
  frame.link ≤ frame.bytes.length ∧
    (frame.etherType = 0x0800 → frame.link < frame.bytes.length →
      frame.link + 10 ≤ frame.bytes.length ∧
        (frame.protocol = 6 → frame.transport + 13 ≤ frame.bytes.length))

/-- Nothing follows the messages but the beginning of one more, its length field included. -/
def Ends : Prop :=
  frame.rest = [] ∨ 4 ≤ frame.rest.length ∧ frame.rest.length < announcedSize frame.rest

instance : Decidable frame.HeadersInside := inferInstanceAs (Decidable (_ ∧ (_ → _ → _ ∧ (_ → _))))

instance : Decidable frame.Ends := inferInstanceAs (Decidable (_ ∨ _ ∧ _))

end Frame

/-- The call returns, has read nothing but captured bytes, and has added the messages of the frame
to the list, in their order and with the header of the capture. -/
def Splits (ptl : PtrackList) (frame : Frame) (hdr : PcapPkthdr) : Prop :=
  ∃ after, ptrackAddOfEntry ptl frame.bytes hdr = some (frame.messages.length, after) ∧
    Valid after ∧
    pending after = latest (pending ptl ++ frame.messages.map (entryOf hdr))

/-! The headers. -/

theorem type_eq_iff {b : List UInt8} {i x : Nat} (inside : i + 2 ≤ b.length) (small : x < 256 ^ 2) :
    leValue (slice b i 2) = htons x ↔ beValue (slice b i 2) = x := by
  have length := slice_length inside
  have compare : leValue (slice b i 2) = swapBytes (slice b i 2).length x ↔ _ :=
    leValue_eq_swapBytes_iff (slice b i 2) (by rwa [length])
  rwa [length] at compare

theorem loadAt_getD {b : List UInt8} {i : Nat} (inside : i < b.length) :
    loadAt b i 1 = some (b.getD i 0).toNat := by
  have read : loadAt ([] ++ (b ++ [])) (0 + i) 1 = _ := loadAt_byte rfl inside
  rwa [List.nil_append, List.append_nil, Nat.zero_add] at read

section Offset

variable {frame : Frame}

theorem link_cases (frame : Frame) : frame.link = 14 ∨ frame.link = 18 := by
  unfold Frame.link
  split_ifs
  · exact Or.inr rfl
  · exact Or.inl rfl

theorem offset_network (captured : frame.link ≤ frame.bytes.length) :
    tcpPayloadOffset frame.bytes =
      if frame.etherType = 0x0800 then
        if frame.bytes.length ≤ frame.link then some noPayload
        else do
          let protocol ← loadAt frame.bytes (frame.link + 9) 1
          if protocol ≠ 6 then some noPayload
          else do
            let first ← loadAt frame.bytes frame.link 1
            let offset := frame.link + first % 16 * 4
            let doff ← loadAt frame.bytes (offset + 12) 1
            some (offset + doff / 16 * 4 : Nat)
      else some noPayload := by
  have least : 14 ≤ frame.bytes.length := by
    rcases link_cases frame with short | long <;> omega
  have place : (if leValue (slice frame.bytes 12 2) = htons 0x8100 then 4 else 0) + 14 =
      frame.link := by
    rw [Frame.link, if_congr (type_eq_iff least (by decide)) rfl rfl]
    split_ifs <;> rfl
  unfold tcpPayloadOffset
  simp only [loadAt_inside (show 12 + 2 ≤ frame.bytes.length from least), Option.bind_eq_bind,
    Option.bind_some]
  generalize (if leValue (slice frame.bytes 12 2) = htons 0x8100 then 4 else 0) = tag at place ⊢
  have type : tag + 12 + 2 ≤ frame.bytes.length := by omega
  have field : slice frame.bytes (tag + 12) 2 = slice frame.bytes (frame.link - 2) 2 := by
    rw [show tag + 12 = frame.link - 2 by omega]
  rw [if_neg (by omega), loadAt_inside type, Option.bind_some, place]
  by_cases ip : frame.etherType = 0x0800
  · have same : leValue (slice frame.bytes (tag + 12) 2) = htons 0x0800 :=
      (type_eq_iff type (by decide)).mpr (by rwa [field])
    rw [if_neg (by rwa [not_not]), if_pos ip]
  · have other : leValue (slice frame.bytes (tag + 12) 2) ≠ htons 0x0800 := by
      intro same
      exact ip (by rwa [type_eq_iff type (by decide), field] at same)
    rw [if_pos other, if_neg ip]

theorem offset_inside (inside : frame.HeadersInside) : tcpPayloadOffset frame.bytes =
    some (if frame.etherType = 0x0800 ∧ frame.protocol = 6 then (frame.headers : Int)
      else noPayload) := by
  obtain ⟨captured, fields⟩ := inside
  rw [offset_network captured]
  by_cases ip : frame.etherType = 0x0800
  · rw [if_pos ip]
    by_cases more : frame.link < frame.bytes.length
    · obtain ⟨network, transport⟩ := fields ip more
      rw [if_neg (by omega), loadAt_getD (show frame.link + 9 < _ by omega), Option.bind_eq_bind,
        Option.bind_some]
      change (if frame.protocol ≠ 6 then some noPayload else _) = _
      by_cases tcp : frame.protocol = 6
      · have captured' := transport tcp
        rw [if_neg (by rwa [not_not]), loadAt_getD more, Option.bind_some]
        change ((loadAt frame.bytes (frame.transport + 12) 1).bind fun doff =>
          some ((frame.transport + doff / 16 * 4 : Nat) : Int)) = _
        rw [loadAt_getD (by omega), Option.bind_some, if_pos ⟨ip, tcp⟩]
        rfl
      · rw [if_pos tcp, if_neg (fun both => tcp both.2)]
    · have absent : frame.protocol = 0 := by
        rw [Frame.protocol, List.getD_eq_getElem?_getD, List.getElem?_eq_none (by omega)]
        rfl
      rw [if_pos (by omega), if_neg (by rw [absent]; exact fun both => absurd both.2 (by decide))]
  · rw [if_neg ip, if_neg (fun both => ip both.1)]

theorem offset_outside (outside : ¬frame.HeadersInside) : tcpPayloadOffset frame.bytes = none := by
  by_cases captured : frame.link ≤ frame.bytes.length
  · have missing : ¬(frame.etherType = 0x0800 → frame.link < frame.bytes.length →
        frame.link + 10 ≤ frame.bytes.length ∧
          (frame.protocol = 6 → frame.transport + 13 ≤ frame.bytes.length)) :=
      fun fields => outside ⟨captured, fields⟩
    rw [Classical.not_imp, Classical.not_imp] at missing
    obtain ⟨ip, more, missing⟩ := missing
    rw [offset_network captured, if_pos ip, if_neg (by omega)]
    by_cases network : frame.link + 10 ≤ frame.bytes.length
    · have transport : ¬(frame.protocol = 6 → frame.transport + 13 ≤ frame.bytes.length) :=
        fun fields => missing ⟨network, fields⟩
      obtain ⟨tcp, transport⟩ := Classical.not_imp.mp transport
      rw [loadAt_getD (show frame.link + 9 < _ by omega), Option.bind_eq_bind, Option.bind_some]
      change (if frame.protocol ≠ 6 then some noPayload else _) = _
      rw [if_neg (by rwa [not_not]), loadAt_getD more, Option.bind_some]
      change ((loadAt frame.bytes (frame.transport + 12) 1).bind _) = _
      rw [loadAt_outside (by omega), Option.bind_none]
    · rw [loadAt_outside (by omega), Option.bind_eq_bind, Option.bind_none]
  · -- The type is read from bytes 12 and 13 of a short frame, or from 16 and 17 behind a tag.
    unfold tcpPayloadOffset
    by_cases least : 12 + 2 ≤ frame.bytes.length
    · have tagged : beValue (slice frame.bytes 12 2) = 0x8100 := by
        by_contra untagged
        have short : frame.link = 14 := if_neg untagged
        omega
      have long : frame.link = 18 := if_pos tagged
      rw [loadAt_inside least, Option.bind_eq_bind, Option.bind_some]
      dsimp only
      rw [if_pos ((type_eq_iff least (by decide)).mpr tagged), if_neg (by omega),
        loadAt_outside (by omega), Option.bind_none]
    · rw [loadAt_outside least, Option.bind_eq_bind, Option.bind_none]

end Offset

/-! The loop, behind the messages. -/

section Rest

variable {ptl : PtrackList} {hdr : PcapPkthdr} {data : List UInt8} {added : Nat}

/-- The length field is read although it was not captured. -/
theorem addBody_short (some' : data ≠ []) (short : data.length < 4) :
    addBody hdr ⟨ptl, data, added⟩ = none := by
  have positive := List.length_pos_iff.mpr some'
  unfold addBody
  dsimp only
  rw [if_pos positive, loadAt_outside (by omega), Option.bind_eq_bind, Option.bind_none]

theorem addBody_begun (header : 4 ≤ data.length) (more : data.length < announcedSize data) :
    addBody hdr ⟨ptl, data, added⟩ = some (.leave (added, ptl)) := by
  have size : ntohs (leValue (slice data 2 2)) = announcedSize data := ntohs_slice header
  unfold addBody
  dsimp only
  rw [if_pos (by omega), loadAt_inside header]
  simp only [Option.bind_eq_bind, Option.bind_some, size, if_pos more]

/-- An announced length of zero is taken off the payload again and again. -/
theorem loop_zero (valid : Valid ptl) (header : 4 ≤ data.length) (zero : announcedSize data = 0)
    (fuel : Nat) : loop (addBody hdr) fuel ⟨ptl, data, added⟩ = none := by
  apply loop_forever (fun state => state.data = data ∧ Valid state.ptl) _ ⟨rfl, valid⟩
  rintro ⟨ptl, _, added⟩ ⟨rfl, valid⟩
  have again := addBody_inside valid hdr header (by omega) added
  rw [zero, List.drop_zero] at again
  exact ⟨_, again, rfl, tracked_valid valid rfl⟩

theorem addBody_count {state next : Adding} (went : addBody hdr state = some (.again next)) :
    next.addCount = state.addCount + 1 := by
  unfold addBody at went
  split_ifs at went
  · obtain ⟨length, -, went⟩ := Option.bind_eq_some_iff.mp went
    dsimp only at went
    split_ifs at went
    · cases went
    · obtain ⟨after, -, went⟩ := Option.bind_eq_some_iff.mp went
      cases went
      rfl
  · cases went

theorem addBody_leaves {state : Adding} {result : Nat × PtrackList}
    (left : addBody hdr state = some (.leave result)) : result.1 = state.addCount := by
  unfold addBody at left
  split_ifs at left
  · obtain ⟨length, -, left⟩ := Option.bind_eq_some_iff.mp left
    dsimp only at left
    split_ifs at left
    · cases left
      rfl
    · obtain ⟨after, -, left⟩ := Option.bind_eq_some_iff.mp left
      cases left
  · cases left
    rfl

theorem loop_count {fuel : Nat} {state : Adding} {result : Nat × PtrackList}
    (returned : loop (addBody hdr) fuel state = some result) : state.addCount ≤ result.1 := by
  apply loop_invariant (fun other => state.addCount ≤ other.addCount)
    (fun result => state.addCount ≤ result.1)
    _ _ (Nat.le_refl _) returned
  · intro before after held went
    exact addBody_count went ▸ Nat.le_succ_of_le held
  · intro before result held left
    exact addBody_leaves left ▸ held

theorem loop_rest (rest : data = [] ∨ 4 ≤ data.length ∧ data.length < announcedSize data)
    (fuel : Nat) : loop (addBody hdr) (fuel + 1) ⟨ptl, data, added⟩ = some (added, ptl) := by
  rcases rest with rfl | ⟨header, more⟩
  · exact loop_leave rfl fuel
  · exact loop_leave (addBody_begun header more) fuel

theorem rest_of_loop (valid : Valid ptl) {fuel : Nat} {after : PtrackList}
    (returned : loop (addBody hdr) (fuel + 1) ⟨ptl, data, added⟩ = some (added, after)) :
    data = [] ∨ 4 ≤ data.length ∧ data.length < announcedSize data := by
  by_contra bad
  obtain ⟨some', bad⟩ := not_or.mp bad
  by_cases header : 4 ≤ data.length
  · have whole : announcedSize data ≤ data.length := Nat.not_lt.mp fun more => bad ⟨header, more⟩
    -- the source takes a length below that of a header for a message, too
    rw [loop_again (addBody_inside valid hdr header whole added)] at returned
    have counted := loop_count returned
    dsimp only at counted
    omega
  · rw [loop_fault (addBody_short some' (Nat.not_le.mp header))] at returned
    cases returned

end Rest

theorem payload_length_le (frame : Frame) : frame.payload.length ≤ frame.bytes.length := by
  unfold Frame.payload
  split_ifs
  · rw [List.length_drop]
    exact Nat.sub_le _ _
  · exact Nat.zero_le _

theorem add_eq_loop (ptl : PtrackList) {frame : Frame} (hdr : PcapPkthdr)
    (inside : frame.HeadersInside) :
    ptrackAddOfEntry ptl frame.bytes hdr =
      loop (addBody hdr) (frame.bytes.length + 1) ⟨ptl, frame.payload, 0⟩ := by
  have fits := frame.fits
  rw [ptrackAddOfEntry, offset_inside inside, Option.bind_eq_bind, Option.bind_some]
  by_cases tcp : frame.etherType = 0x0800 ∧ frame.protocol = 6
  · have payload : frame.payload = frame.bytes.drop frame.headers := if_pos tcp
    rw [if_pos tcp, payload, Int.toNat_natCast]
    by_cases beyond : frame.bytes.length ≤ frame.headers
    · rw [if_pos (by omega), List.drop_eq_nil_of_le beyond]
      exact (loop_leave rfl _).symm
    · rw [if_neg (by omega)]
  · have payload : frame.payload = [] := if_neg tcp
    rw [if_neg tcp, if_pos (by unfold noPayload; omega), payload]
    exact (loop_leave rfl _).symm

theorem messages_spec (frame : Frame) : (∀ message ∈ frame.messages, openflow.Frame message) ∧
    frame.payload = frame.messages.flatten ++ frame.rest := by
  obtain ⟨framed, same, -⟩ := openflow.leading_spec frame.payload (Nat.le_refl _)
  exact ⟨framed, same⟩

theorem loop_payload {ptl : PtrackList} (valid : Valid ptl) (frame : Frame) (hdr : PcapPkthdr) :
    ∃ after fuel, loop (addBody hdr) (frame.bytes.length + 1) ⟨ptl, frame.payload, 0⟩ =
        loop (addBody hdr) (fuel + 1) ⟨after, frame.rest, frame.messages.length⟩ ∧ Valid after ∧
      pending after = latest (pending ptl ++ frame.messages.map (entryOf hdr)) := by
  obtain ⟨framed, same⟩ := messages_spec frame
  obtain ⟨after, looped, valid', kept⟩ := loop_messages valid hdr framed frame.rest 0
  have few := Lib.Framing.Layout.length_le_flatten framed
  have short := payload_length_le frame
  have turns : frame.bytes.length + 1 =
      frame.bytes.length - frame.messages.length + 1 + frame.messages.length := by
    have total := congrArg List.length same
    rw [List.length_append] at total
    omega
  refine ⟨after, frame.bytes.length - frame.messages.length, ?_, valid', kept⟩
  rw [turns, same, looped, Nat.zero_add]

/-- A frame is split into its messages exactly when the header fields that are read were captured
and nothing but the beginning of a message follows the last one. -/
theorem splits_iff {ptl : PtrackList} (valid : Valid ptl) (frame : Frame) (hdr : PcapPkthdr) :
    Splits ptl frame hdr ↔ frame.HeadersInside ∧ frame.Ends := by
  by_cases inside : frame.HeadersInside
  · obtain ⟨after, fuel, looped, valid', kept⟩ := loop_payload valid frame hdr
    rw [Splits, add_eq_loop ptl hdr inside, looped, and_iff_right inside]
    constructor
    · rintro ⟨other, returned, -⟩
      exact rest_of_loop valid' returned
    · intro ends
      exact ⟨after, loop_rest ends fuel, valid', kept⟩
  · rw [Splits, ptrackAddOfEntry, offset_outside inside, Option.bind_eq_bind, Option.bind_none]
    constructor
    · rintro ⟨after, returned, -⟩
      cases returned
    · exact fun fields => absurd fields.1 inside

/-- A TCP acknowledgement without data: 54 bytes of headers and six bytes of Ethernet padding. -/
def acknowledgement : Frame where
  bytes := List.replicate 12 0 ++ [8, 0] ++
    (0x45 :: List.replicate 8 0 ++ [6] ++ List.replicate 10 0) ++
    (List.replicate 12 0 ++ [0x50] ++ List.replicate 7 0) ++ List.replicate 6 0
  fits := by decide

/-- The padding announces messages of length zero. -/
theorem acknowledgement_hangs :
    acknowledgement.messages = [] ∧
      (∀ fuel, loop (addBody ⟨⟨0, 0⟩, 60, 60⟩) fuel ⟨ptrackNew, acknowledgement.payload, 0⟩ =
        none) ∧
      ¬Splits ptrackNew acknowledgement ⟨⟨0, 0⟩, 60, 60⟩ := by
  have hangs (fuel : Nat) :
      loop (addBody ⟨⟨0, 0⟩, 60, 60⟩) fuel ⟨ptrackNew, acknowledgement.payload, 0⟩ = none :=
    loop_zero ptrackNew_valid (by decide) (by decide) fuel
  refine ⟨by decide, hangs, ?_⟩
  rintro ⟨after, returned, -⟩
  rw [add_eq_loop ptrackNew _ (by decide), hangs] at returned
  cases returned

/-- An acknowledgement that also carries a hello message and the beginning of another. -/
def greeting : Frame where
  bytes := List.replicate 12 0 ++ [8, 0] ++
    (0x45 :: List.replicate 8 0 ++ [6] ++ List.replicate 10 0) ++
    (List.replicate 12 0 ++ [0x50] ++ List.replicate 7 0) ++ [1, 0, 0, 8, 0, 0, 0,
      1] ++ [1, 0, 0, 8]
  fits := by decide

theorem greeting_splits :
    greeting.messages = [[1, 0, 0, 8, 0, 0, 0, 1]] ∧ Splits ptrackNew greeting ⟨⟨0, 0⟩, 66, 66⟩ :=
  ⟨by decide, (splits_iff ptrackNew_valid greeting _).mpr (by decide)⟩

end Oflops.Track.Splitting
