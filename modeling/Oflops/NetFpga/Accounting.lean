import Oflops.NetFpga.Partition

/-! What the loader counts and what it stores (`load_pcap` of `pkt_gen_2.c`). A delay has its word
in the accounts but none in the image, padding leaves words out, and a packet that is refused is
counted by the caller all the same. -/

namespace Oflops.NetFpga.Accounting
open PktGen NetFpga.Partition Lib.Float32 Lib.MachineInt Time

/-- A call of `load_pcap`: the value of the global `pad`, and the packets of the file, each with the
memory that `pcap_next` returns. -/
structure Call where
  pad : Bool
  packets : List (PcapPkthdr × (Nat → UInt8))
  port : Port
  delay : Int

structure Loader where
  globals : Globals
  numPkts : Port → UInt32

def start : Loader := ⟨initial, fun _ => 0⟩

def Call.load (call : Call) (packet : PcapPkthdr × (Nat → UInt8)) : Load :=
  ⟨call.pad, packet.1, packet.2, call.port, call.delay⟩

def readPackets (call : Call) : Loader → List (PcapPkthdr × (Nat → UInt8)) → Loader
  | loader, [] => loader
  | loader, packet :: packets =>
    let (code, globals) := loadPacket loader.globals (call.load packet)
    if code = 0 then
      readPackets call
        ⟨globals, Function.update loader.numPkts call.port (loader.numPkts call.port + 1)⟩ packets
    else ⟨globals, loader.numPkts⟩

def loadPcap (loader : Loader) (call : Call) : Loader := readPackets call loader call.packets

def loadPcaps (calls : List Call) : Loader := calls.foldl loadPcap start

def loads (calls : List Call) : List Load := calls.flatMap fun call => call.packets.map call.load

def Room (globals : Globals) (load : Load) : Prop :=
  ¬packetWords globals load + UInt32.ofInt globals.totalWords > UInt32.ofNat maxTxQueueSize

instance (globals : Globals) (load : Load) : Decidable (Room globals load) :=
  inferInstanceAs (Decidable (¬_))

/-- The packets that are really placed in an image, each with the globals it came upon. -/
def placed (globals : Globals) : List Load → List (Globals × Load)
  | [] => []
  | load :: loads =>
    (if Room globals load then [(globals, load)] else []) ++
      placed (loadPacket globals load).2 loads

def onPort (port : Port) (packets : List (Globals × Load)) : List (Globals × Load) :=
  packets.filter fun packet => packet.2.port = port

def inImage (calls : List Call) (port : Port) : List (Globals × Load) :=
  onPort port (placed initial (loads calls))

def offered (calls : List Call) (port : Port) : List Load :=
  (loads calls).filter fun load => load.port = port

def refused (calls : List Call) (port : Port) : Nat :=
  (offered calls port).length - (inImage calls port).length

structure Agrees (calls : List Call) : Prop where
  words : ∀ port, ((loadPcaps calls).globals.queueData port).length =
    9 * ((loadPcaps calls).globals.queueWords port).toNat
  total : (loadPcaps calls).globals.totalWords =
    ∑ port, (((loadPcaps calls).globals.queueWords port).toNat : Int)
  packets : ∀ port, (loadPcaps calls).numPkts port = (loadPcaps calls).globals.queuePkts port
  placed : ∀ port, ((loadPcaps calls).globals.queuePkts port).toNat = (inImage calls port).length

def delayOf (globals : Globals) (load : Load) : Int :=
  if load.delay = -1 then pcapDelay globals load.port load.sec load.usec else load.delay

/-- No word of the packet is counted but left out: there is no delay, and with padding on there is
at most one word of data. -/
def Exact (globals : Globals) (load : Load) : Prop :=
  delayOf globals load ≤ 0 ∧ (load.pad = true → load.h.len ≤ 8)

/-! The words of a packet. -/

def stored (load : Load) : Nat :=
  1 + (if load.padded then 1 else 0) +
    ((if load.pad then load.nonPadWordLen else load.h.len).toNat + 7) / 8

theorem image_length (load : Load) : (image load).length = 9 * stored load := by
  have word (tag : UInt8) (words len : UInt32) : (header tag words len load.port).length = 9 := by
    simp [header]
  have data (words len count : UInt32) :
      (body load.data words len count).length = 9 * ((count.toNat + 7) / 8) := by
    simp [body, Nat.mul_comm]
  unfold image stored
  rw [List.length_append, List.length_append, word, data]
  split_ifs
  all_goals simp only [word, List.length_nil]
  all_goals omega

/-- The words that the headers of a packet announce, and the headers. -/
def announced (load : Load) : Nat :=
  1 + (if load.padded then 1 else 0) + load.nonPadWordLen.toNat

theorem packetWords_announced (globals : Globals) (load : Load) :
    (packetWords globals load).toNat =
      announced load + (if 0 < delayOf globals load then 1 else 0) := by
  have flag (p : Prop) [Decidable p] :
      (if p then (1 : UInt32) else 0).toNat = if p then 1 else 0 := by
    split_ifs <;> rfl
  have few : load.nonPadWordLen.toNat ≤ 2 ^ 29 := by
    unfold Load.nonPadWordLen
    split_ifs
    · decide
    · exact wordLen_le _
  have delay : (if 0 < delayOf globals load then 1 else 0) ≤ 1 := by split_ifs <;> decide
  have padding : (if load.padded then 1 else 0) ≤ 1 := by split_ifs <;> decide
  change (load.nonPadWordLen + 1 + (if 0 < delayOf globals load then 1 else 0) +
    (if load.padded = true then 1 else 0)).toNat = _
  rw [UInt32.toNat_add, UInt32.toNat_add, UInt32.toNat_add, flag, flag, UInt32.toNat_one, announced]
  omega

theorem wordLen_eq {len : UInt32} (few : (wordLen len).toNat < 2 ^ 21) :
    (wordLen len).toNat = (len.toNat + 7) / 8 := by
  have rounded : toFloat len.toNat ≤ 2 ^ 32 := toFloat_le len.toNat_lt
  have words : (wordLen len).toNat = (toFloat len.toNat + 7) / 8 := by
    rw [wordLen, UInt32.toNat_ofNat_of_lt' (by rw [UInt32.size]; omega)]
  have small : len.toNat < 2 ^ 24 := by
    by_contra large
    have float : 2 ^ 24 ≤ toFloat len.toNat := le_toFloat (Nat.not_lt.mp large)
    omega
  rw [words, toFloat_small small]

section Packet

variable {globals : Globals} {load : Load}

theorem Room.words_le (budget : Budget globals) (room : Room globals load) :
    (packetWords globals load).toNat ≤ 376816 := by
  have bounded := budget.admitted room
  have nonneg := budget.nonneg
  rw [maxTxQueueSize_eq] at bounded
  omega

/-- With padding on, the number of words serves as a number of bytes. -/
theorem stored_announced (few : announced load < 2 ^ 21) :
    stored load ≤ announced load ∧
      (stored load = announced load ↔ (load.pad = true → load.h.len ≤ 8)) := by
  rw [UInt32.le_iff_toNat_le]
  unfold stored
  unfold announced at few ⊢
  by_cases padded : load.padded = true
  · have both : load.pad = true ∧ 64 < load.h.len := of_decide_eq_true padded
    have long : 64 < load.h.len.toNat := UInt32.lt_iff_toNat_lt.mp both.2
    have eight : load.nonPadWordLen = 8 := if_pos padded
    rw [eight] at few ⊢
    simp only [padded, both.1, if_true, forall_const, show (8 : UInt32).toNat = 8 from rfl]
    omega
  · have words : load.nonPadWordLen = wordLen load.h.len := if_neg padded
    rw [words, if_neg padded] at few ⊢
    have exact' := wordLen_eq (show (wordLen load.h.len).toNat < 2 ^ 21 by omega)
    by_cases pad : load.pad = true
    · simp only [pad, if_true, forall_const, show (8 : UInt32).toNat = 8 from rfl]
      omega
    · simp only [pad, Bool.false_eq_true, if_false, false_implies, iff_true]
      omega

theorem Room.announced_lt (budget : Budget globals) (room : Room globals load) :
    announced load < 2 ^ 21 := by
  have few := room.words_le budget
  rw [packetWords_announced] at few
  omega

theorem stored_spec (budget : Budget globals) (room : Room globals load) :
    stored load ≤ (packetWords globals load).toNat ∧
      (stored load = (packetWords globals load).toNat ↔ Exact globals load) := by
  obtain ⟨most, all⟩ := stored_announced (room.announced_lt budget)
  have delay : delayOf globals load ≤ 0 ↔ (if 0 < delayOf globals load then 1 else 0) = 0 := by
    split_ifs with positive
    · exact iff_of_false (Int.not_le.mpr positive) (by decide)
    · exact iff_of_true (Int.not_lt.mp positive) rfl
  rw [packetWords_announced, Exact, delay, ← all]
  omega

end Packet

/-! The accounts of a port. -/

structure Ledger (globals after : Globals) (packets : List (Globals × Load)) (port : Port) :
    Prop where
  data : after.queueData port =
    globals.queueData port ++ (onPort port packets).flatMap fun packet => image packet.2
  words : (after.queueWords port).toNat = (globals.queueWords port).toNat +
    ((onPort port packets).map fun packet => (packetWords packet.1 packet.2).toNat).sum
  pkts : (after.queuePkts port).toNat = (globals.queuePkts port).toNat +
    (onPort port packets).length

theorem onPort_append (port : Port) (first second : List (Globals × Load)) :
    onPort port (first ++ second) = onPort port first ++ onPort port second :=
  List.filter_append _ _

theorem Ledger.refl (globals : Globals) (port : Port) : Ledger globals globals [] port :=
  ⟨(List.append_nil _).symm, rfl, rfl⟩

theorem Ledger.trans {globals mid after : Globals} {first second : List (Globals × Load)}
    {port : Port} (one : Ledger globals mid first port) (two : Ledger mid after second port) :
    Ledger globals after (first ++ second) port := by
  constructor
  · rw [two.data, one.data, onPort_append, List.flatMap_append, List.append_assoc]
  · rw [two.words, one.words, onPort_append, List.map_append, List.sum_append, Nat.add_assoc]
  · rw [two.pkts, one.pkts, onPort_append, List.length_append, Nat.add_assoc]

theorem length_le_words (packets : List (Globals × Load)) :
    packets.length ≤ (packets.map fun packet => (packetWords packet.1 packet.2).toNat).sum := by
  have each : ∀ words ∈ packets.map (fun packet => (packetWords packet.1 packet.2).toNat),
      1 ≤ words := by
    intro words member
    obtain ⟨packet, -, rfl⟩ := List.mem_map.mp member
    rw [packetWords_announced, announced]
    omega
  have least := List.length_le_sum_of_one_le _ each
  rwa [List.length_map] at least

/-- Every packet that was placed has at least one word. -/
structure Sound (globals : Globals) : Prop extends Budget globals where
  packets : ∀ port, (globals.queuePkts port).toNat ≤ (globals.queueWords port).toNat

theorem initial_sound : Sound initial := ⟨initial_budget, fun _ => Nat.le_refl _⟩

theorem loadPacket_full {globals : Globals} {load : Load} (full : ¬Room globals load) :
    loadPacket globals load = (0, globals) := by
  unfold Room at full
  rw [loadPacket, if_pos (not_not.mp full)]

theorem loadPacket_code (globals : Globals) (load : Load) : (loadPacket globals load).1 = 0 := by
  unfold loadPacket
  dsimp only
  split_ifs <;> rfl

section Step

variable {globals : Globals} {load : Load}

theorem loadPacket_room (room : Room globals load) (port : Port) :
    (loadPacket globals load).2.queueData port =
        (if load.port = port then globals.queueData port ++ image load
          else globals.queueData port) ∧
      (loadPacket globals load).2.queueWords port =
        (if load.port = port then globals.queueWords port + packetWords globals load
          else globals.queueWords port) ∧
      (loadPacket globals load).2.queuePkts port =
        (if load.port = port then globals.queuePkts port + 1 else globals.queuePkts port) := by
  unfold Room at room
  rw [loadPacket, if_neg room]
  dsimp only
  by_cases own : load.port = port
  · subst own
    simp only [Function.update_self, if_true, and_self]
  · have other : port ≠ load.port := Ne.symm own
    simp only [Function.update_of_ne other, if_neg own, and_self]

theorem loadPacket_ledger (sound : Sound globals) (room : Room globals load) (port : Port) :
    Ledger globals (loadPacket globals load).2 [(globals, load)] port := by
  obtain ⟨data, words, pkts⟩ := loadPacket_room room port
  have bounded := sound.toBudget.admitted room
  have limit := maxTxQueueSize_eq
  have counted := sound.toBudget.queueWords_le port
  have placed := sound.packets port
  by_cases own : load.port = port
  · have here : onPort port [(globals, load)] = [(globals, load)] := by simp [onPort, own]
    rw [if_pos own] at data words pkts
    constructor
    · rw [data, here, List.flatMap_singleton]
    · rw [words, here, UInt32.toNat_add, List.map_singleton, List.sum_singleton]
      dsimp only
      omega
    · rw [pkts, here, UInt32.toNat_add, UInt32.toNat_one, List.length_singleton]
      omega
  · have elsewhere : onPort port [(globals, load)] = [] := by simp [onPort, own]
    rw [if_neg own] at data words pkts
    constructor
    · rw [data, elsewhere, List.flatMap_nil, List.append_nil]
    · rw [words, elsewhere, List.map_nil, List.sum_nil, Nat.add_zero]
    · rw [pkts, elsewhere, List.length_nil, Nat.add_zero]

theorem loadPacket_sound (sound : Sound globals) : Sound (loadPacket globals load).2 := by
  refine ⟨loadPacket_budget sound.toBudget load, ?_⟩
  intro port
  by_cases room : Room globals load
  · have ledger := loadPacket_ledger sound room port
    rw [ledger.words, ledger.pkts]
    exact Nat.add_le_add (sound.packets port) (length_le_words _)
  · rw [loadPacket_full room]
    exact sound.packets port

end Step

theorem loadAll_ledger {globals : Globals} (sound : Sound globals) (loads : List Load)
    (port : Port) : Ledger globals (loadAll globals loads) (placed globals loads) port := by
  induction loads generalizing globals with
  | nil => exact Ledger.refl globals port
  | cons load loads ih =>
    have next : Sound (loadPacket globals load).2 := loadPacket_sound sound
    have later := ih next
    by_cases room : Room globals load
    · rw [placed, if_pos room]
      exact (loadPacket_ledger sound room port).trans later
    · rw [placed, if_neg room, List.nil_append]
      rw [loadPacket_full room] at later
      rw [loadAll, List.foldl_cons, loadPacket_full room]
      exact later

theorem placed_room {globals : Globals} (budget : Budget globals) {loads : List Load}
    {packet : Globals × Load} (member : packet ∈ placed globals loads) :
    Budget packet.1 ∧ Room packet.1 packet.2 := by
  induction loads generalizing globals with
  | nil => cases member
  | cons load loads ih =>
    rcases List.mem_append.mp member with here | later
    · split_ifs at here with room
      · obtain rfl := List.mem_singleton.mp here
        exact ⟨budget, room⟩
      · cases here
    · exact ih (loadPacket_budget budget load) later

theorem placed_append (globals : Globals) (first second : List Load) :
    placed globals (first ++ second) = placed globals first ++
      placed (loadAll globals first) second := by
  induction first generalizing globals with
  | nil => rfl
  | cons load first ih =>
    rw [List.cons_append, placed, placed, ih, List.append_assoc]
    rfl

theorem onPort_placed_le (globals : Globals) (loads : List Load) (port : Port) :
    (onPort port (placed globals loads)).length ≤
      (loads.filter fun load => load.port = port).length := by
  induction loads generalizing globals with
  | nil => exact Nat.le_refl _
  | cons load loads ih =>
    have later := ih (loadPacket globals load).2
    rw [placed, onPort_append, List.length_append, List.filter_cons]
    by_cases own : load.port = port
    · have one :
          (onPort port (if Room globals load then [(globals, load)] else [])).length ≤ 1 := by
        split_ifs <;> simp [onPort, own]
      rw [if_pos (decide_eq_true own), List.length_cons]
      omega
    · have none' : onPort port (if Room globals load then [(globals, load)] else []) = [] := by
        split_ifs <;> simp [onPort, own]
      rw [none', if_neg (by simpa using own), List.length_nil, Nat.zero_add]
      exact later

/-! The packets that the caller counts. -/

theorem readPackets_eq (call : Call) (loader : Loader)
    (packets : List (PcapPkthdr × (Nat → UInt8))) :
    readPackets call loader packets =
      ⟨loadAll loader.globals (packets.map call.load),
        Function.update loader.numPkts call.port
          (loader.numPkts call.port + UInt32.ofNat packets.length)⟩ := by
  induction packets generalizing loader with
  | nil =>
    have none' : loader.numPkts call.port + UInt32.ofNat 0 = loader.numPkts call.port :=
      UInt32.add_zero _
    rw [readPackets, List.length_nil, none', Function.update_eq_self]
    rfl
  | cons packet packets ih =>
    have one : UInt32.ofNat (packets.length + 1) = UInt32.ofNat packets.length + 1 :=
      UInt32.ofNat_add _ _
    rw [readPackets]
    dsimp only
    rw [if_pos (loadPacket_code _ _), ih]
    dsimp only
    rw [Function.update_self, Function.update_idem, List.length_cons, one, UInt32.add_assoc,
      UInt32.add_comm 1]
    rfl

theorem loadAll_append (globals : Globals) (first second : List Load) :
    loadAll globals (first ++ second) = loadAll (loadAll globals first) second :=
  List.foldl_append

theorem offered_cons (call : Call) (calls : List Call) (port : Port) :
    (offered (call :: calls) port).length =
      (if call.port = port then call.packets.length else 0) + (offered calls port).length := by
  have own : ((call.packets.map call.load).filter fun load => load.port = port).length =
      if call.port = port then call.packets.length else 0 := by
    rw [List.filter_map, List.length_map]
    change (call.packets.filter fun _ => decide (call.port = port)).length = _
    split_ifs with same <;> simp [same]
  rw [offered, loads, List.flatMap_cons, List.filter_append, List.length_append, own]
  rfl

theorem foldl_loadPcap (loader : Loader) (calls : List Call) :
    calls.foldl loadPcap loader =
      ⟨loadAll loader.globals (loads calls),
        fun port => loader.numPkts port + UInt32.ofNat (offered calls port).length⟩ := by
  induction calls generalizing loader with
  | nil =>
    have none' (port : Port) : loader.numPkts port + UInt32.ofNat 0 = loader.numPkts port :=
      UInt32.add_zero _
    rw [List.foldl_nil]
    change loader = ⟨loader.globals, fun port => loader.numPkts port + UInt32.ofNat 0⟩
    simp only [none']
  | cons call calls ih =>
    rw [List.foldl_cons, ih, loadPcap, readPackets_eq]
    congr 1
    · rw [← loadAll_append]
      rfl
    · funext port
      dsimp only
      rw [offered_cons, UInt32.ofNat_add, ← UInt32.add_assoc]
      congr 1
      by_cases own : call.port = port
      · subst own
        rw [Function.update_self, if_pos rfl]
      · rw [Function.update_of_ne (Ne.symm own), if_neg own]
        exact (UInt32.add_zero _).symm

theorem loadPcaps_eq (calls : List Call) :
    loadPcaps calls =
      ⟨loadAll initial (loads calls), fun port => UInt32.ofNat (offered calls port).length⟩ := by
  rw [loadPcaps, foldl_loadPcap]
  congr 1
  funext port
  exact UInt32.zero_add _

/-! Accounts and images. -/

theorem sum_eq_iff {α : Type} {f g : α → Nat} {xs : List α} (le : ∀ x ∈ xs, f x ≤ g x) :
    (xs.map f).sum = (xs.map g).sum ↔ ∀ x ∈ xs, f x = g x := by
  induction xs with
  | nil => simp
  | cons x xs ih =>
    have first := le x List.mem_cons_self
    have rest : (xs.map f).sum ≤ (xs.map g).sum :=
      List.sum_le_sum fun y member => le y (List.mem_cons_of_mem x member)
    rw [List.map_cons, List.map_cons, List.sum_cons, List.sum_cons, List.forall_mem_cons,
      ← ih fun y member => le y (List.mem_cons_of_mem x member)]
    omega

section Calls

variable (calls : List Call) (port : Port)

theorem loads_ledger :
    Ledger initial (loadPcaps calls).globals (placed initial (loads calls)) port := by
  rw [loadPcaps_eq]
  exact loadAll_ledger initial_sound (loads calls) port

theorem image_words_iff :
    ((loadPcaps calls).globals.queueData port).length =
        9 * ((loadPcaps calls).globals.queueWords port).toNat ↔
      ∀ packet ∈ inImage calls port, Exact packet.1 packet.2 := by
  have ledger := loads_ledger calls port
  have spec : ∀ packet ∈ inImage calls port, _ := fun packet member =>
    have room := placed_room initial_budget (List.mem_of_mem_filter member)
    stored_spec room.1 room.2
  have bytes : ((inImage calls port).flatMap fun packet => image packet.2).length =
      9 * ((inImage calls port).map fun packet => stored packet.2).sum := by
    rw [List.length_flatMap, ← List.sum_map_mul_left]
    simp only [image_length]
  have data : (loadPcaps calls).globals.queueData port =
      (inImage calls port).flatMap fun packet => image packet.2 :=
    ledger.data.trans (List.nil_append _)
  have words : ((loadPcaps calls).globals.queueWords port).toNat =
      ((inImage calls port).map fun packet => (packetWords packet.1 packet.2).toNat).sum :=
    ledger.words.trans (Nat.zero_add _)
  rw [data, words, bytes, Nat.mul_right_inj (by decide),
    sum_eq_iff fun packet member => (spec packet member).1]
  exact forall₂_congr fun packet member => (spec packet member).2

theorem queuePkts_eq :
    ((loadPcaps calls).globals.queuePkts port).toNat = (inImage calls port).length :=
  (loads_ledger calls port).pkts.trans (Nat.zero_add _)

theorem numPkts_iff :
    (loadPcaps calls).numPkts port = (loadPcaps calls).globals.queuePkts port ↔
      2 ^ 32 ∣ refused calls port := by
  have fewer : (inImage calls port).length ≤ (offered calls port).length :=
    onPort_placed_le initial (loads calls) port
  have placed := queuePkts_eq calls port
  have small := ((loadPcaps calls).globals.queuePkts port).toNat_lt
  have counted : ((loadPcaps calls).numPkts port).toNat = (offered calls port).length % 2 ^ 32 := by
    rw [loadPcaps_eq]
    exact UInt32.toNat_ofNat
  rw [← UInt32.toNat_inj, counted, placed, refused]
  omega

theorem agrees_iff :
    Agrees calls ↔ (∀ packet ∈ placed initial (loads calls), Exact packet.1 packet.2) ∧
      ∀ port, 2 ^ 32 ∣ refused calls port := by
  constructor
  · intro agrees
    refine ⟨?_, fun port => (numPkts_iff calls port).mp (agrees.packets port)⟩
    intro packet member
    have own : packet ∈ inImage calls packet.2.port :=
      List.mem_filter.mpr ⟨member, decide_eq_true rfl⟩
    exact (image_words_iff calls _).mp (agrees.words _) packet own
  · rintro ⟨exact', none'⟩
    constructor
    · intro port
      exact (image_words_iff calls port).mpr fun packet member =>
        exact' packet (List.mem_of_mem_filter member)
    · rw [loadPcaps_eq]
      exact (loadAll_budget initial_budget (loads calls)).total
    · exact fun port => (numPkts_iff calls port).mpr (none' port)
    · exact queuePkts_eq calls

end Calls

/-- The accounts agree with the images after every call of a history exactly when no packet that was
placed has a delay, none was longer than one word while padding was on, and no call has left a
number of refused packets behind (other than a multiple of `2 ^ 32`). -/
theorem accounts_agree_iff (calls : List Call) :
    (∀ before after, calls = before ++ after → Agrees before) ↔
      (∀ packet ∈ placed initial (loads calls), Exact packet.1 packet.2) ∧
        ∀ before after, calls = before ++ after → ∀ port, 2 ^ 32 ∣ refused before port := by
  constructor
  · intro agrees
    exact ⟨((agrees_iff calls).mp (agrees calls [] (List.append_nil _).symm)).1,
      fun before after split => ((agrees_iff before).mp (agrees before after split)).2⟩
  · rintro ⟨exact', none'⟩ before after split
    refine (agrees_iff before).mpr ⟨?_, none' before after split⟩
    intro packet member
    apply exact' packet
    rw [split, loads, List.flatMap_append, placed_append]
    exact List.mem_append_left _ member

def delayed : Call := ⟨false, [(⟨⟨0, 0⟩, 8, 8⟩, fun _ => 0)], ⟨0, Nat.le_add_left 1 3⟩, 1000⟩

/-- Three words are counted and two are stored. -/
theorem delayed_disagrees :
    ((loadPcaps [delayed]).globals.queueWords 0).toNat = 3 ∧
      ((loadPcaps [delayed]).globals.queueData 0).length = 18 ∧
      ¬∀ before after, [delayed] = before ++ after → Agrees before := by
  have words : ((loadPcaps [delayed]).globals.queueWords 0).toNat = 3 := by decide +kernel
  have data : ((loadPcaps [delayed]).globals.queueData 0).length = 18 := by decide +kernel
  refine ⟨words, data, ?_⟩
  intro agrees
  have same := (agrees [delayed] [] rfl).words 0
  rw [words, data] at same
  exact absurd same (by decide)

end Oflops.NetFpga.Accounting
