import Oflops.Track.Tracker

/-! What the tracker is for: a list of at most 256 pending messages, of which a lookup removes one
that starts with the bytes looked for. `ptrack_lookup` compares with one slot only, and gives up
the newest entry. -/

namespace Oflops.Track.Lookup
open Lib.Bytes Lib.Loop Lib.Record Lib.RingBuffer Time Traffic.Decode Cbench.Protocol Tracker

/-- A captured TCP frame whose payload is a sequence of OpenFlow messages. -/
structure Capture where
  addresses : List UInt8
  tag : Option (UInt8 × UInt8)
  ip : List UInt8
  tcp : List UInt8
  messages : List (List UInt8)
  addresses_length : addresses.length = 12
  ip_length : 20 ≤ ip.length ∧ ip.length = (ip.getD 0 0).toNat % 16 * 4
  ip_protocol : ip.getD 9 0 = 6
  tcp_length : 20 ≤ tcp.length ∧ tcp.length = (tcp.getD 12 0).toNat / 16 * 4
  framed : ∀ message ∈ messages, openflow.Frame message

namespace Capture

variable (capture : Capture)

def tagBytes : List UInt8 :=
  match capture.tag with
  | none => []
  | some (high, low) => [0x81, 0, high, low]

def headers : List UInt8 :=
  capture.addresses ++ (capture.tagBytes ++ ([8, 0] ++ (capture.ip ++ capture.tcp)))

def bytes : List UInt8 := capture.headers ++ capture.messages.flatten

end Capture

inductive Op where
  | add (capture : Capture) (hdr : PcapPkthdr)
  | lookup (data : List UInt8)

inductive Reply where
  | added (count : Nat)
  | found (hdr : Option PcapPkthdr)
  deriving DecidableEq

def step (ptl : PtrackList) : Op → Option (Reply × PtrackList)
  | .add capture hdr => (ptrackAddOfEntry ptl capture.bytes hdr).map (Prod.map .added id)
  | .lookup data => (ptrackLookup ptl data).map (Prod.map .found id)

/-- The slot of the `i`-th newest entry, counted modulo 256. -/
def slotOf (ptl : PtrackList) (i : Nat) : Nat := ((ptl.head - 1 - i) % 256).toNat

def pending (ptl : PtrackList) : List PtrackEntry :=
  ((List.range ptl.count.toNat).map (fun i => ptl.entries (slotOf ptl i))).reverse

def entryOf (hdr : PcapPkthdr) (message : List UInt8) : PtrackEntry :=
  ⟨message, message.length, hdr⟩

def latest (list : List PtrackEntry) : List PtrackEntry := list.drop (list.length - 256)

/-- What an operation should do to the pending messages. -/
def Right (before : List PtrackEntry) : Op → Reply → List PtrackEntry → Prop
  | .add capture hdr, .added count, after =>
    count = capture.messages.length ∧ after = latest (before ++ capture.messages.map (entryOf hdr))
  | .lookup data, .found (some hdr), after =>
    ∃ older entry newer, before = older ++ entry :: newer ∧ data <+: entry.data ∧ entry.hdr = hdr ∧
      after = older ++ newer
  | .lookup data, .found none, after => (∀ entry ∈ before, ¬data <+: entry.data) ∧ after = before
  | _, _, _ => False

/-- Every operation of a history returns, and does what it should. -/
def Correct : PtrackList → List Op → Prop
  | _, [] => True
  | ptl, op :: ops =>
    ∃ reply after, step ptl op = some (reply, after) ∧
      Right (pending ptl) op reply (pending after) ∧
      Correct after ops

/-- Where a lookup works: nothing is pending; or the ring is not full with its next slot the first,
and with the entry in the slot before the oldest one (the newest itself, in a full ring): if it
starts with the bytes looked for, so does the newest one, with the same header, and otherwise no
pending message does. -/
def Fortunate (ptl : PtrackList) (data : List UInt8) : Prop :=
  ptl.count = 0 ∨ ¬(ptl.head = 0 ∧ ptl.count = 256) ∧
    if data <+: (ptl.entries (slotOf ptl ptl.count.toNat)).data then
      data <+: (ptl.entries (slotOf ptl 0)).data ∧
        (ptl.entries (slotOf ptl 0)).hdr = (ptl.entries (slotOf ptl ptl.count.toNat)).hdr
    else ∀ entry ∈ pending ptl, ¬data <+: entry.data

def FortunateOp (ptl : PtrackList) : Op → Prop
  | .add _ _ => True
  | .lookup data => Fortunate ptl data

def AllFortunate : PtrackList → List Op → Prop
  | _, [] => True
  | ptl, op :: ops =>
    FortunateOp ptl op ∧ ∀ reply after, step ptl op = some (reply, after) → AllFortunate after ops

structure Valid (ptl : PtrackList) : Prop where
  head : 0 ≤ ptl.head ∧ ptl.head < 256
  count : 0 ≤ ptl.count ∧ ptl.count ≤ 256
  sized : ∀ i, (ptl.entries i).len = (ptl.entries i).data.length

theorem ptrackNew_valid : Valid ptrackNew := ⟨by decide, by decide, fun _ => rfl⟩

def ring (ptl : PtrackList) (valid : Valid ptl) : Slots PtrackEntry 256 where
  slots := ptl.entries
  head := ptl.head.toNat
  count := ptl.count.toNat
  head_lt := by
    have bound := valid.head
    omega
  count_le := by
    have bound := valid.count
    omega

theorem place_eq {ptl : PtrackList} (valid : Valid ptl) {i : Nat} (inside : i < 256) :
    (ring ptl valid).place i = slotOf ptl i := by
  have head := valid.head
  unfold Slots.place slotOf ring
  dsimp only
  split_ifs <;> omega

theorem newest_eq {ptl : PtrackList} (valid : Valid ptl) {i : Nat} (inside : i < 256) :
    (ring ptl valid).newest i = ptl.entries (slotOf ptl i) := by
  rw [Slots.newest, place_eq valid inside]
  rfl

theorem pending_eq {ptl : PtrackList} (valid : Valid ptl) :
    pending ptl = (ring ptl valid).toList := by
  have bound := valid.count
  unfold pending Slots.toList
  congr 1
  apply List.map_congr_left
  intro i member
  have small := List.mem_range.mp member
  exact (newest_eq valid (by omega)).symm

theorem matchesEntry_iff {ent : PtrackEntry} (sized : ent.len = ent.data.length)
    (data : List UInt8) : matchesEntry data ent = true ↔ data <+: ent.data := by
  unfold matchesEntry
  rw [sized, decide_eq_true_eq]
  constructor
  · rintro ⟨short, same⟩
    rw [min_eq_left short, List.take_length] at same
    exact List.prefix_iff_eq_take.mpr same
  · intro starts
    have short := starts.length_le
    rw [min_eq_left short, List.take_length]
    exact ⟨short, List.prefix_iff_eq_take.mp starts⟩

theorem latest_append (list more : List PtrackEntry) :
    latest (latest list ++ more) = latest (list ++ more) := by
  have cut : latest list ++ more = (list ++ more).drop (list.length - 256) :=
    (List.drop_append_of_le_length (Nat.sub_le _ _)).symm
  have rest : list.length - 256 + (list.length + more.length - (list.length - 256) - 256) =
      list.length + more.length - 256 := by omega
  rw [latest, cut, List.drop_drop, List.length_drop, List.length_append, rest, latest,
    List.length_append]

def tracked (ptl : PtrackList) (entry : PtrackEntry) : PtrackList where
  entries := Function.update ptl.entries ptl.head.toNat entry
  head := if ptl.head + 1 ≥ ptrackMaxLen then 0 else ptl.head + 1
  count := if ptl.count < ptrackMaxLen then ptl.count + 1 else ptl.count

theorem tracked_valid {ptl : PtrackList} (valid : Valid ptl) {entry : PtrackEntry}
    (sized : entry.len = entry.data.length) : Valid (tracked ptl entry) := by
  have head := valid.head
  have count := valid.count
  unfold tracked ptrackMaxLen
  refine ⟨?_, ?_, ?_⟩
  · dsimp only
    split_ifs <;> omega
  · dsimp only
    split_ifs <;> omega
  · intro i
    by_cases here : i = ptl.head.toNat
    · subst here
      dsimp only
      rwa [Function.update_self]
    · dsimp only
      rw [Function.update_of_ne here]
      exact valid.sized i

theorem ring_tracked {ptl : PtrackList} (valid : Valid ptl) {entry : PtrackEntry}
    (valid' : Valid (tracked ptl entry)) :
    ring (tracked ptl entry) valid' = (ring ptl valid).push entry := by
  have head := valid.head
  have count := valid.count
  apply Slots.ext
  · rfl
  · unfold ring tracked Slots.push ptrackMaxLen
    dsimp only
    split_ifs <;> omega
  · unfold ring tracked Slots.push ptrackMaxLen
    dsimp only
    split_ifs <;> omega

theorem pending_length {ptl : PtrackList} : (pending ptl).length = ptl.count.toNat := by
  rw [pending, List.length_reverse, List.length_map, List.length_range]

theorem latest_pending {ptl : PtrackList} (valid : Valid ptl) :
    latest (pending ptl) = pending ptl := by
  have bound := valid.count
  rw [latest, pending_length, show ptl.count.toNat - 256 = 0 by omega, List.drop_zero]

theorem pending_tracked {ptl : PtrackList} (valid : Valid ptl) {entry : PtrackEntry}
    (sized : entry.len = entry.data.length) :
    pending (tracked ptl entry) = latest (pending ptl ++ [entry]) := by
  rw [pending_eq (tracked_valid valid sized), ring_tracked valid,
    Slots.push_toList, ← pending_eq valid, latest, List.length_append, List.length_singleton,
    pending_length]
  rfl

theorem track_eq {ptl : PtrackList} (valid : Valid ptl) (message : List UInt8) (hdr : PcapPkthdr) :
    track ptl message hdr = some (tracked ptl (entryOf hdr message)) := by
  have there : entryAt ptl ptl.head = some (ptl.entries ptl.head.toNat) := if_pos valid.head
  rw [track, there]
  rfl

/-- A turn takes off the front what the length field announces, whatever that is. -/
theorem addBody_inside {ptl : PtrackList} (valid : Valid ptl) (hdr : PcapPkthdr) {data : List UInt8}
    (header : 4 ≤ data.length) (whole : announcedSize data ≤ data.length) (added : Nat) :
    addBody hdr ⟨ptl, data, added⟩ =
      some (.again ⟨tracked ptl (entryOf hdr (data.take (announcedSize data))),
        data.drop (announcedSize data), added + 1⟩) := by
  have size : ntohs (leValue (slice data 2 2)) = announcedSize data := ntohs_slice header
  unfold addBody
  dsimp only
  rw [if_pos (by omega), loadAt_inside header]
  simp only [Option.bind_eq_bind, Option.bind_some, size, if_neg (Nat.not_lt.mpr whole),
    track_eq valid]

theorem addBody_frame {ptl : PtrackList} (valid : Valid ptl) (hdr : PcapPkthdr)
    {message : List UInt8} (frame : openflow.Frame message) (rest : List UInt8) (added : Nat) :
    addBody hdr ⟨ptl, message ++ rest, added⟩ =
      some (.again ⟨tracked ptl (entryOf hdr message), rest, added + 1⟩) := by
  have header : 8 ≤ message.length := frame.1
  have size : announcedSize (message ++ rest) = message.length := frame.size_append rest
  have length : (message ++ rest).length = message.length + rest.length := List.length_append
  have taken := addBody_inside valid hdr (show 4 ≤ (message ++ rest).length by omega)
    (by omega) added
  rwa [size, List.take_left, List.drop_left] at taken

theorem loop_messages {ptl : PtrackList} (valid : Valid ptl) (hdr : PcapPkthdr)
    {messages : List (List UInt8)} (framed : ∀ message ∈ messages, openflow.Frame message)
    (rest : List UInt8) (added : Nat) :
    ∃ after, (∀ fuel, loop (addBody hdr) (fuel + messages.length) ⟨ptl,
      messages.flatten ++ rest, added⟩ =
        loop (addBody hdr) fuel ⟨after, rest, added + messages.length⟩) ∧ Valid after ∧
      pending after = latest (pending ptl ++ messages.map (entryOf hdr)) := by
  induction messages generalizing ptl added with
  | nil =>
    refine ⟨ptl, fun fuel => rfl, valid, ?_⟩
    rw [List.map_nil, List.append_nil, latest_pending valid]
  | cons message messages ih =>
    have frame := framed message List.mem_cons_self
    have others : ∀ other ∈ messages, openflow.Frame other :=
      fun other member => framed other (List.mem_cons_of_mem _ member)
    have sized : (entryOf hdr message).len = (entryOf hdr message).data.length := rfl
    have again := addBody_frame valid hdr frame (messages.flatten ++ rest) added
    obtain ⟨after, looped, valid', kept⟩ := ih (tracked_valid valid sized) others (added + 1)
    refine ⟨after, ?_, valid', ?_⟩
    · intro fuel
      rw [List.flatten_cons, List.append_assoc, List.length_cons, ← Nat.add_assoc, loop_again again,
        looped, Nat.add_assoc, Nat.add_comm 1]
    · rw [kept, pending_tracked valid sized, latest_append, List.append_assoc]
      rfl

theorem loadAt_part {before part after : List UInt8} {base i width : Nat}
    (place : before.length = base) (inside : i + width ≤ part.length) :
    loadAt (before ++ (part ++ after)) (base + i) width = some (leValue (slice part i width)) := by
  rw [loadAt, readAt_part place inside, Option.map_some]

theorem loadAt_next {before : List UInt8} {base : Nat} (place : before.length = base)
    (field after : List UInt8) :
    loadAt (before ++ (field ++ after)) base field.length = some (leValue field) := by
  have read : loadAt (before ++ (field ++ after)) (base + 0) field.length = _ :=
    loadAt_part place (Nat.le_of_eq (Nat.zero_add _))
  rwa [slice, List.drop_zero, List.take_length] at read

theorem loadAt_byte {before part after : List UInt8} {base i : Nat} (place : before.length = base)
    (inside : i < part.length) :
    loadAt (before ++ (part ++ after)) (base + i) 1 = some (part.getD i 0).toNat := by
  have byte : slice part i 1 = [part.getD i 0] := by
    rw [slice, List.drop_eq_getElem_cons inside, List.take_succ_cons, List.take_zero,
      List.getD_eq_getElem?_getD, List.getElem?_eq_getElem inside, Option.getD_some]
  rw [loadAt_part place inside, byte]
  rfl

theorem Capture.tag_type (capture : Capture) :
    ∃ type, loadAt capture.bytes 12 2 = some type ∧
      (if type = htons 0x8100 then 4 else 0) = capture.tagBytes.length := by
  have place := capture.addresses_length
  unfold Capture.bytes Capture.headers Capture.tagBytes
  cases capture.tag with
  | none =>
    refine ⟨8, ?_, rfl⟩
    simp only [List.append_assoc]
    exact loadAt_next place [8, 0] _
  | some tag =>
    refine ⟨0x81, ?_, rfl⟩
    simp only [List.append_assoc]
    exact loadAt_next place [0x81, 0] ([tag.1, tag.2] ++ _)

section Offsets

variable (capture : Capture)

theorem Capture.network_length :
    (capture.addresses ++ capture.tagBytes).length = capture.tagBytes.length + 12 ∧
      (capture.addresses ++ capture.tagBytes ++ [8, 0]).length = capture.tagBytes.length + 14 := by
  have addresses := capture.addresses_length
  simp only [List.length_append, List.length_cons, List.length_nil]
  omega

theorem Capture.transport_length :
    (capture.addresses ++ capture.tagBytes ++ [8, 0] ++ capture.ip).length =
      capture.tagBytes.length + 14 + capture.ip.length := by
  rw [List.length_append, capture.network_length.2]

theorem Capture.headers_length : capture.headers.length =
    capture.tagBytes.length + 14 + capture.ip.length + capture.tcp.length := by
  rw [← capture.transport_length]
  simp only [Capture.headers, List.length_append]
  omega

theorem Capture.bytes_link : capture.bytes = (capture.addresses ++ capture.tagBytes) ++
    ([8, 0] ++ (capture.ip ++ (capture.tcp ++ capture.messages.flatten))) := by
  simp only [Capture.bytes, Capture.headers, List.append_assoc]

theorem Capture.bytes_network : capture.bytes = (capture.addresses ++ capture.tagBytes ++ [8, 0]) ++
    (capture.ip ++ (capture.tcp ++ capture.messages.flatten)) := by
  rw [capture.bytes_link, List.append_assoc _ [8, 0]]

theorem Capture.bytes_transport :
    capture.bytes = (capture.addresses ++ capture.tagBytes ++ [8, 0] ++ capture.ip) ++
      (capture.tcp ++ capture.messages.flatten) := by
  rw [capture.bytes_network, List.append_assoc _ capture.ip]

theorem Capture.payload_offset :
    tcpPayloadOffset capture.bytes = some (capture.headers.length : Int) := by
  obtain ⟨ipLeast, ipSize⟩ := capture.ip_length
  obtain ⟨tcpLeast, tcpSize⟩ := capture.tcp_length
  obtain ⟨type, tagged, tag⟩ := capture.tag_type
  have size := capture.headers_length
  have long : capture.headers.length ≤ capture.bytes.length := by
    rw [Capture.bytes, List.length_append]
    omega
  have inner : loadAt capture.bytes (capture.tagBytes.length + 12) 2 = some 8 := by
    rw [capture.bytes_link]
    exact loadAt_next capture.network_length.1 [8, 0] _
  have protocol : loadAt capture.bytes (capture.tagBytes.length + 14 + 9) 1 = some 6 := by
    rw [capture.bytes_network, loadAt_byte capture.network_length.2 (by omega), capture.ip_protocol]
    rfl
  have ihl : loadAt capture.bytes (capture.tagBytes.length + 14) 1 =
      some (capture.ip.getD 0 0).toNat := by
    rw [capture.bytes_network]
    exact loadAt_byte (i := 0) capture.network_length.2 (by omega)
  have doff : loadAt capture.bytes (capture.tagBytes.length + 14 + capture.ip.length + 12) 1 =
      some (capture.tcp.getD 12 0).toNat := by
    rw [capture.bytes_transport]
    exact loadAt_byte capture.transport_length (by omega)
  unfold tcpPayloadOffset
  simp only [tagged, tag, Option.bind_eq_bind, Option.bind_some]
  rw [if_neg (by omega)]
  simp only [inner, Option.bind_some]
  rw [if_neg (by decide), if_neg (by omega)]
  simp only [protocol, ihl, ← ipSize, doff, ← tcpSize, Option.bind_some]
  rw [if_neg (by decide), size]

end Offsets

theorem add_right {ptl : PtrackList} (valid : Valid ptl) (capture : Capture) (hdr : PcapPkthdr) :
    ∃ after, step ptl (.add capture hdr) = some (.added capture.messages.length, after) ∧
      Valid after ∧
      pending after = latest (pending ptl ++ capture.messages.map (entryOf hdr)) := by
  have few := Lib.Framing.Layout.length_le_flatten capture.framed
  have size : capture.bytes.length = capture.headers.length + capture.messages.flatten.length := by
    rw [Capture.bytes, List.length_append]
  by_cases empty : capture.messages = []
  · have short : capture.bytes.length = capture.headers.length := by
      rw [size, empty]
      rfl
    refine ⟨ptl, ?_, valid, ?_⟩
    · rw [step, ptrackAddOfEntry, capture.payload_offset, Option.bind_eq_bind, Option.bind_some,
        if_pos (by omega), empty]
      rfl
    · rw [empty, List.map_nil, List.append_nil, latest_pending valid]
  · have some' := List.length_pos_iff.mpr empty
    obtain ⟨after, looped, valid', kept⟩ := loop_messages valid hdr capture.framed [] 0
    have payload : capture.bytes.drop (capture.headers.length : Int).toNat =
        capture.messages.flatten ++ [] := by
      rw [Int.toNat_natCast, Capture.bytes, List.drop_left, List.append_nil]
    have turns : capture.bytes.length + 1 =
        capture.bytes.length - capture.messages.length + 1 + capture.messages.length := by omega
    refine ⟨after, ?_, valid', kept⟩
    rw [step, ptrackAddOfEntry, capture.payload_offset, Option.bind_eq_bind, Option.bind_some,
      if_neg (by omega), payload, turns, looped, loop_leave rfl, Nat.zero_add]
    rfl

def popped (ptl : PtrackList) : PtrackList :=
  { ptl with
    head := if ptl.head - 1 < 0 then ptl.head - 1 + ptrackMaxLen else ptl.head - 1
    count := ptl.count - 1 }

theorem popped_valid {ptl : PtrackList} (valid : Valid ptl) (used : ptl.count ≠ 0) :
    Valid (popped ptl) := by
  have head := valid.head
  have count := valid.count
  unfold popped ptrackMaxLen
  refine ⟨?_, ?_, valid.sized⟩
  · dsimp only
    split_ifs <;> omega
  · dsimp only
    omega

theorem pending_popped {ptl : PtrackList} (valid : Valid ptl) (used : ptl.count ≠ 0) :
    pending ptl = pending (popped ptl) ++ [ptl.entries (slotOf ptl 0)] := by
  have head := valid.head
  have count := valid.count
  have same : ring (popped ptl) (popped_valid valid used) = (ring ptl valid).pop := by
    apply Slots.ext
    · rfl
    · unfold ring popped Slots.pop ptrackMaxLen
      dsimp only
      split_ifs <;> omega
    · unfold ring popped Slots.pop
      dsimp only
      omega
  have some' : 0 < (ring ptl valid).count := by
    change 0 < ptl.count.toNat
    omega
  rw [pending_eq valid, Slots.toList_pop _ some', newest_eq valid (by decide), ← same,
    ← pending_eq (popped_valid valid used)]

theorem lookupIndex_inside {ptl : PtrackList} (valid : Valid ptl)
    (inside : ¬(ptl.head = 0 ∧ ptl.count = 256)) :
    entryAt ptl (lookupIndex ptl) = some (ptl.entries (slotOf ptl ptl.count.toNat)) := by
  have head := valid.head
  have count := valid.count
  have index : (lookupIndex ptl) = slotOf ptl ptl.count.toNat := by
    unfold lookupIndex slotOf ptrackMaxLen
    dsimp only
    split_ifs <;> omega
  have small : slotOf ptl ptl.count.toNat < 256 := by
    unfold slotOf
    omega
  rw [entryAt, index, if_pos (by unfold ptrackMaxLen; omega), Int.toNat_natCast]

theorem lookupIndex_outside {ptl : PtrackList} (full : ptl.head = 0 ∧ ptl.count = 256) :
    entryAt ptl (lookupIndex ptl) = none := by
  rw [entryAt, lookupIndex, full.1, full.2]
  rfl

theorem lookupLoop_hit {ptl : PtrackList} {data : List UInt8} {ent : PtrackEntry}
    (there : entryAt ptl (lookupIndex ptl) = some ent) (hit : matchesEntry data ent = true)
    (turns : Nat) : lookupLoop ptl data (turns + 1) = some (some ent.hdr, popped ptl) := by
  rw [lookupLoop, there, Option.bind_eq_bind, Option.bind_some, if_pos hit]
  rfl

/-- Every turn looks at the same entry. -/
theorem lookupLoop_miss {ptl : PtrackList} {data : List UInt8} {ent : PtrackEntry}
    (there : entryAt ptl (lookupIndex ptl) = some ent) (miss : ¬matchesEntry data ent = true)
    (turns : Nat) : lookupLoop ptl data turns = some (none, ptl) := by
  induction turns with
  | zero => rfl
  | succ turns ih => rw [lookupLoop, there, Option.bind_eq_bind, Option.bind_some, if_neg miss, ih]

theorem lookupLoop_fault {ptl : PtrackList} (there : entryAt ptl (lookupIndex ptl) = none)
    (data : List UInt8) (turns : Nat) : lookupLoop ptl data (turns + 1) = none := by
  rw [lookupLoop, there]
  rfl

theorem lookupLoop_after {ptl after : PtrackList} {data : List UInt8} {turns : Nat}
    {hdr : Option PcapPkthdr} (ran : lookupLoop ptl data turns = some (hdr, after)) :
    after = ptl ∨ 0 < turns ∧ after = popped ptl := by
  induction turns with
  | zero =>
    cases ran
    exact Or.inl rfl
  | succ turns ih =>
    obtain ⟨ent, -, ran⟩ := Option.bind_eq_some_iff.mp ran
    split_ifs at ran
    · cases ran
      exact Or.inr ⟨Nat.succ_pos _, rfl⟩
    · exact (ih ran).imp_right (fun gone => ⟨Nat.succ_pos _, gone.2⟩)

theorem eq_of_cons_eq_append {α : Type} {first last : α} {rest : List α}
    (same : first :: rest = rest ++ [last]) : first = last := by
  induction rest generalizing first with
  | nil => exact (List.cons.inj same).1
  | cons second rest ih =>
    obtain ⟨rfl, tails⟩ := List.cons.inj same
    exact ih tails

/-- Giving up the last entry is right exactly when that is one that was looked for. -/
theorem right_last_iff (older : List PtrackEntry) (last : PtrackEntry) (data : List UInt8)
    (hdr : PcapPkthdr) :
    Right (older ++ [last]) (.lookup data) (.found (some hdr)) older ↔
      data <+: last.data ∧ last.hdr = hdr := by
  constructor
  · rintro ⟨before, entry, after, split, starts, header, rfl⟩
    rw [List.append_assoc] at split
    have same := eq_of_cons_eq_append (List.append_cancel_left split).symm
    exact ⟨same ▸ starts, same ▸ header⟩
  · rintro ⟨starts, header⟩
    exact ⟨older, last, [], rfl, starts, header, (List.append_nil _).symm⟩

theorem right_of_step {ptl after : PtrackList} {op : Op} {reply : Reply}
    (stepped : step ptl op = some (reply, after)) :
    (∃ reply after, step ptl op = some (reply, after) ∧
      Right (pending ptl) op reply (pending after)) ↔
      Right (pending ptl) op reply (pending after) := by
  constructor
  · rintro ⟨reply', after', stepped', right⟩
    cases stepped.symm.trans stepped'
    exact right
  · intro right
    exact ⟨reply, after, stepped, right⟩

theorem lookup_right_iff {ptl : PtrackList} (valid : Valid ptl) (data : List UInt8) :
    (∃ reply after, step ptl (.lookup data) = some (reply, after) ∧
      Right (pending ptl) (.lookup data) reply (pending after)) ↔ Fortunate ptl data := by
  have bound := valid.count
  unfold Fortunate
  by_cases empty : ptl.count = 0
  · have stepped : step ptl (.lookup data) = some (.found none, ptl) := by
      rw [step, ptrackLookup, empty]
      rfl
    have nothing : pending ptl = [] := by
      rw [← List.length_eq_zero_iff, pending_length, empty]
      rfl
    rw [right_of_step stepped, nothing]
    simp [Right, empty]
  · obtain ⟨turns, some'⟩ : ∃ turns, ptl.count.toNat = turns + 1 := ⟨ptl.count.toNat - 1, by omega⟩
    rw [or_iff_right empty]
    by_cases full : ptl.head = 0 ∧ ptl.count = 256
    · have faults : step ptl (.lookup data) = none := by
        rw [step, ptrackLookup, some', lookupLoop_fault (lookupIndex_outside full)]
        rfl
      simp [faults, full]
    · have there := lookupIndex_inside valid full
      rw [and_iff_right full]
      set spare := ptl.entries (slotOf ptl ptl.count.toNat)
      have compared : matchesEntry data spare = true ↔ data <+: spare.data :=
        matchesEntry_iff (valid.sized _) data
      by_cases hit : data <+: spare.data
      · have stepped : step ptl (.lookup data) = some (.found (some spare.hdr), popped ptl) := by
          rw [step, ptrackLookup, some', lookupLoop_hit there (compared.mpr hit)]
          rfl
        rw [right_of_step stepped, if_pos hit, pending_popped valid empty]
        exact right_last_iff _ _ data spare.hdr
      · have stepped : step ptl (.lookup data) = some (.found none, ptl) := by
          rw [step, ptrackLookup, lookupLoop_miss there (fun same => hit (compared.mp same))]
          rfl
        rw [right_of_step stepped, if_neg hit]
        exact and_iff_left rfl

theorem step_valid {ptl after : PtrackList} (valid : Valid ptl) {op : Op} {reply : Reply}
    (stepped : step ptl op = some (reply, after)) : Valid after := by
  cases op with
  | add capture hdr =>
    obtain ⟨after', stepped', valid', -⟩ := add_right valid capture hdr
    cases stepped.symm.trans stepped'
    exact valid'
  | lookup data =>
    obtain ⟨⟨hdr, after'⟩, ran, replied⟩ := Option.map_eq_some_iff.mp stepped
    cases replied
    rcases lookupLoop_after ran with rfl | ⟨used, rfl⟩
    · exact valid
    · exact popped_valid valid (by omega)

theorem correct_iff_allFortunate {ptl : PtrackList} (valid : Valid ptl) (ops : List Op) :
    Correct ptl ops ↔ AllFortunate ptl ops := by
  induction ops generalizing ptl with
  | nil => exact Iff.rfl
  | cons op ops ih =>
    have first : (∃ reply after, step ptl op = some (reply, after) ∧
        Right (pending ptl) op reply (pending after)) ↔ FortunateOp ptl op := by
      cases op with
      | add capture hdr =>
        obtain ⟨after, stepped, -, kept⟩ := add_right valid capture hdr
        rw [right_of_step stepped]
        exact iff_of_true ⟨rfl, kept⟩ trivial
      | lookup data => exact lookup_right_iff valid data
    constructor
    · rintro ⟨reply, after, stepped, right, later⟩
      refine ⟨first.mp ⟨reply, after, stepped, right⟩, ?_⟩
      intro reply' after' stepped'
      cases stepped.symm.trans stepped'
      exact (ih (step_valid valid stepped)).mp later
    · rintro ⟨fortunate, later⟩
      obtain ⟨reply, after, stepped, right⟩ := first.mpr fortunate
      exact ⟨reply, after, stepped, right, (ih (step_valid valid stepped)).mpr (later _ _ stepped)⟩

/-- From a new list, every message is found again exactly in such histories. -/
theorem tracked_found_iff (ops : List Op) : Correct ptrackNew ops ↔ AllFortunate ptrackNew ops :=
  correct_iff_allFortunate ptrackNew_valid ops

def hello : List UInt8 := [1, 0, 0, 8, 0, 0, 0, 1]

def helloFrame : Capture where
  addresses := List.replicate 12 0
  tag := none
  ip := [0x45] ++ List.replicate 8 0 ++ [6] ++ List.replicate 10 0
  tcp := List.replicate 12 0 ++ [0x50] ++ List.replicate 7 0
  messages := [hello]
  addresses_length := rfl
  ip_length := by decide
  ip_protocol := rfl
  tcp_length := by decide
  framed := by
    intro message only
    rw [List.mem_singleton.mp only]
    exact ⟨by decide, by decide⟩

def helloHdr : PcapPkthdr := ⟨⟨1400000000, 0⟩, 62, 62⟩

/-- A single message that was tracked is not found. -/
theorem tracked_hello_not_found :
    ¬Correct ptrackNew [.add helloFrame helloHdr, .lookup hello] := by
  have lost : (step ptrackNew (.add helloFrame helloHdr)).bind
      (fun added => (step added.2 (.lookup hello)).map Prod.fst) = some (.found none) := by
    decide +kernel
  rintro ⟨reply, after, added, kept, reply', after', looked, right, -⟩
  rw [added, Option.bind_some, looked, Option.map_some] at lost
  cases lost
  cases reply with
  | found hdr => exact kept
  | added count =>
    have there : entryOf helloHdr hello ∈ pending after := by
      rw [kept.2]
      exact List.mem_singleton_self _
    exact right.1 _ there (List.prefix_refl hello)

end Oflops.Track.Lookup
