import Mathlib.Data.List.Nodup
import Mathlib.Data.List.Perm.Basic
import Oflops.PacketIn.Module

/-! The loss that `destroy` reports: `pkt_in_count` over `last_seq - first_seq + 1`. The last number
is the largest one that arrived, but the first one is whichever arrived first. -/

namespace Oflops.PacketIn.Loss
open Time Traffic.Decode Traffic.UserLoop PacketIn.Module

/-- A packet-in with the time it is handled at and what the uninitialised flow holds. -/
structure Arrival where
  ofVersion : Nat
  pktin : CofmsgPacketIn
  fl : Flow
  now : Timeval

@[ext] structure Tally where
  count : UInt32
  first : UInt32
  last : UInt32
  deriving DecidableEq

namespace Tally

def add (tally : Tally) (seqNum : UInt32) : Tally where
  count := tally.count + 1
  first := if tally.first = -1 then seqNum else tally.first
  last := if tally.last < seqNum then seqNum else tally.last

/-- The number of probes that `destroy` expects. -/
def span (tally : Tally) : UInt32 := tally.last - tally.first + 1

def start : Tally := ⟨0, -1, 0⟩

def of (seqNums : List UInt32) : Tally := seqNums.foldl add start

end Tally

def tally {F : Type} (state : State F) : Tally := ⟨state.pktInCount, state.firstSeq, state.lastSeq⟩

section
variable {F : Type} (mean : F → Int → UInt32 → F) (nf : Nat → List UInt8 → Int → Option PktgenHdr)
  (channels : List Channel)

/-- The header of a packet-in that counts as a probe; there is none at all if the parser leaves
the captured bytes. -/
def heard (arrival : Arrival) : Option (Option PktgenHdr) := do
  let extraction ← extractPktgenPkt nf channels oflopsData1 arrival.pktin.packet
    (Lib.Bytes.ntohs arrival.pktin.packet.length) (some arrival.fl)
  let fl ← extraction.fl
  some (if fl.tpSrc ≠ 8080 then none else pktgenOf extraction)

def seqNum (arrival : Arrival) : Option UInt32 :=
  (heard nf channels arrival).join.map (fun pktgen => UInt32.ofNat pktgen.seqNum)

def process (state : State F) (arrival : Arrival) : Option (State F) :=
  processPacketIn mean nf channels arrival.ofVersion arrival.pktin arrival.fl arrival.now state

def processAll (state : State F) (arrivals : List Arrival) : Option (State F) :=
  arrivals.foldlM (process mean nf channels) state

/-- In whatever order the packet-ins arrive, the two numbers are the same and their ratio is at
most one. -/
def OrderFree (zero : F) (csvOutput : Option (List CsvLine)) (arrivals : List Arrival) : Prop :=
  ∀ order, order.Perm arrivals → ∃ state other,
    processAll mean nf channels (start zero csvOutput) arrivals = some state ∧
      processAll mean nf channels (start zero csvOutput) order = some other ∧
      (tally other).count = (tally state).count ∧ (tally other).span = (tally state).span ∧
      (tally other).count ≤ (tally other).span

variable {mean nf channels}

theorem process_tally (mean : F → Int → UInt32 → F) (state : State F) {arrival : Arrival}
    (readable : (heard nf channels arrival).isSome) :
    ∃ after, process mean nf channels state arrival = some after ∧
      tally after = (seqNum nf channels arrival).elim (tally state) (tally state).add := by
  obtain ⟨found, heard'⟩ := Option.isSome_iff_exists.mp readable
  simp only [heard, Option.bind_eq_bind, Option.bind_eq_some_iff] at heard'
  obtain ⟨extraction, extracted, fl, flow, -⟩ := heard'
  simp only [process, processPacketIn, seqNum, heard, extracted, flow, Option.bind_eq_bind,
    Option.bind_some]
  by_cases other : fl.tpSrc ≠ 8080
  · simp [other]
  · cases header : pktgenOf extraction with
    | none => simp [other]
    | some pktgen => simp [other, record, tally, Tally.add]

theorem processAll_tally (mean : F → Int → UInt32 → F) (state : State F) {arrivals : List Arrival}
    (readable : ∀ arrival ∈ arrivals, (heard nf channels arrival).isSome) :
    ∃ after, processAll mean nf channels state arrivals = some after ∧
      tally after = (arrivals.filterMap (seqNum nf channels)).foldl Tally.add (tally state) := by
  induction arrivals generalizing state with
  | nil => exact ⟨state, rfl, rfl⟩
  | cons arrival arrivals ih =>
    rw [List.forall_mem_cons] at readable
    obtain ⟨next, first, counted⟩ := process_tally mean state readable.1
    obtain ⟨after, rest, total⟩ := ih next readable.2
    refine ⟨after, ?_, ?_⟩
    · rw [processAll, List.foldlM_cons, first]
      exact rest
    · rw [total, counted, List.filterMap_cons]
      cases seqNum nf channels arrival <;> rfl

end

/-! ### The tally of a list of numbers -/

theorem foldl_first {tally : Tally} (set : tally.first ≠ -1) (seqNums : List UInt32) :
    (seqNums.foldl Tally.add tally).first = tally.first := by
  induction seqNums generalizing tally with
  | nil => rfl
  | cons number seqNums ih =>
    have kept : (tally.add number).first = tally.first := if_neg set
    rw [List.foldl_cons, ih (kept ▸ set), kept]

theorem of_first {number : UInt32} (proper : number ≠ -1) (rest : List UInt32) :
    (Tally.of (number :: rest)).first = number :=
  foldl_first proper rest

def later (last seqNum : UInt32) : UInt32 := if last < seqNum then seqNum else last

theorem later_toNat (a b : UInt32) : (later a b).toNat = max a.toNat b.toNat := by
  unfold later
  split_ifs with less
  · rw [UInt32.lt_iff_toNat_lt] at less
    omega
  · rw [UInt32.lt_iff_toNat_lt] at less
    omega

theorem foldl_last (tally : Tally) (seqNums : List UInt32) :
    (seqNums.foldl Tally.add tally).last.toNat =
      seqNums.foldl (fun last number => max last number.toNat) tally.last.toNat := by
  induction seqNums generalizing tally with
  | nil => rfl
  | cons number seqNums ih =>
    rw [List.foldl_cons, ih, List.foldl_cons]
    exact congrArg (fun start => seqNums.foldl (fun last number => max last number.toNat) start)
      (later_toNat tally.last number)

theorem of_last_perm {seqNums others : List UInt32} (same : seqNums.Perm others) :
    (Tally.of seqNums).last = (Tally.of others).last := by
  apply UInt32.toNat_inj.mp
  rw [Tally.of, Tally.of, foldl_last, foldl_last]
  apply same.foldl_eq'
  intro x _ y _ last
  rw [Nat.max_assoc, Nat.max_comm x.toNat, Nat.max_assoc]

theorem foldl_count (tally : Tally) (seqNums : List UInt32) :
    (seqNums.foldl Tally.add tally).count = tally.count + UInt32.ofNat seqNums.length := by
  induction seqNums generalizing tally with
  | nil => exact (UInt32.add_zero tally.count).symm
  | cons number seqNums ih =>
    rw [List.foldl_cons, ih, List.length_cons, UInt32.ofNat_add, UInt32.add_comm (UInt32.ofNat _),
      ← UInt32.add_assoc]
    rfl

theorem of_count (seqNums : List UInt32) :
    (Tally.of seqNums).count = UInt32.ofNat seqNums.length :=
  (foldl_count Tally.start seqNums).trans (UInt32.zero_add _)

/-- The numbers that can be told apart from "none yet". -/
def proper (seqNums : List UInt32) : List UInt32 := seqNums.filter (· ≠ -1)

/-- All but one of the numbers are the sentinel, and the sentinel does not come with 0. -/
def Harmless (seqNums : List UInt32) : Prop :=
  (proper seqNums).length ≤ 1 ∧ ¬ (0 ∈ seqNums ∧ -1 ∈ seqNums)

theorem Harmless.perm {seqNums others : List UInt32} (harmless : Harmless seqNums)
    (same : others.Perm seqNums) : Harmless others := by
  refine ⟨(same.filter _).length_eq.trans_le harmless.1, ?_⟩
  rw [same.mem_iff, same.mem_iff]
  exact harmless.2

theorem length_le_proper {seqNums : List UInt32} (distinct : seqNums.Nodup) :
    seqNums.length ≤ (proper seqNums).length + 1 := by
  have once := List.nodup_iff_count_le_one.mp distinct (-1)
  have split := List.length_eq_length_filter_add (l := seqNums) (· ≠ -1)
  have others : (seqNums.filter (fun number => !decide (number ≠ -1))).length =
      seqNums.count (-1) := by
    rw [List.count_eq_length_filter]
    congr 2
    funext number
    simp only [ne_eq, decide_not, Bool.not_not]
    rfl
  rw [split, others]
  exact Nat.add_le_add_left once _

theorem few {seqNums : List UInt32} (distinct : seqNums.Nodup)
    (single : (proper seqNums).length ≤ 1) :
    seqNums = [] ∨ (∃ a, seqNums = [a]) ∨
      ∃ a, a ≠ -1 ∧ (seqNums = [a, -1] ∨ seqNums = [-1, a]) := by
  have short := length_le_proper distinct
  match seqNums with
  | [] => exact Or.inl rfl
  | [a] => exact Or.inr (Or.inl ⟨a, rfl⟩)
  | [a, b] =>
    have differ : a ≠ b := by simpa using distinct
    by_cases first : a = -1
    · exact Or.inr (Or.inr ⟨b, first ▸ differ.symm, Or.inr (first ▸ rfl)⟩)
    · by_cases second : b = -1
      · exact Or.inr (Or.inr ⟨a, first, Or.inl (second ▸ rfl)⟩)
      · simp [proper, first, second] at single
  | a :: b :: c :: rest =>
    simp only [List.length_cons] at short
    omega

theorem of_one (a : UInt32) : (Tally.of [a]).span = 1 := by
  have last : (Tally.of [a]).last = a := by
    apply UInt32.toNat_inj.mp
    rw [Tally.of, foldl_last]
    exact Nat.zero_max _
  have first : (Tally.of [a]).first = a := rfl
  rw [Tally.span, last, first, UInt32.sub_self]
  rfl

theorem of_two {seqNums : List UInt32} {a : UInt32} (proper : a ≠ -1)
    (order : seqNums = [a, -1] ∨ seqNums = [-1, a]) : (Tally.of seqNums).span = -1 - a + 1 := by
  have last : (Tally.of [a, -1]).last = -1 := by
    apply UInt32.toNat_inj.mp
    rw [Tally.of, foldl_last]
    have small := a.toNat_lt
    change max (max 0 a.toNat) 4294967295 = 4294967295
    omega
  have swapped : (Tally.of [-1, a]).last = -1 :=
    (of_last_perm (List.Perm.swap a (-1) [])).trans last
  rcases order with rfl | rfl
  · rw [Tally.span, last, of_first proper]
  · rw [Tally.span, swapped]
    rfl

theorem two_le_span {a : UInt32} (zero : a ≠ 0) (proper : a ≠ -1) : 2 ≤ -1 - a + 1 := by
  have positive : a.toNat ≠ 0 := fun h => zero (UInt32.toNat_inj.mp h)
  have below : a.toNat ≠ 4294967295 := fun h => proper (UInt32.toNat_inj.mp h)
  have small := a.toNat_lt
  have top : (-1 : UInt32).toNat = 4294967295 := rfl
  have one : (1 : UInt32).toNat = 1 := rfl
  have two : (2 : UInt32).toNat = 2 := rfl
  rw [UInt32.le_iff_toNat_le, UInt32.toNat_add, UInt32.toNat_sub, top, one, two]
  omega

theorem of_perm {seqNums others : List UInt32} (distinct : seqNums.Nodup)
    (harmless : Harmless seqNums) (same : others.Perm seqNums) :
    (Tally.of others).span = (Tally.of seqNums).span ∧
      (Tally.of others).count ≤ (Tally.of others).span := by
  rcases few distinct harmless.1 with rfl | ⟨a, rfl⟩ | ⟨a, proper, order⟩
  · rw [List.perm_nil.mp same]
    decide
  · rw [List.perm_singleton.mp same, of_one]
    exact ⟨rfl, UInt32.le_refl 1⟩
  · have length := same.length_eq
    have zero : a ≠ 0 := by
      rintro rfl
      apply harmless.2
      rcases order with rfl | rfl <;> simp
    rcases few (same.nodup_iff.mpr distinct) (harmless.perm same).1 with
      rfl | ⟨b, rfl⟩ | ⟨b, proper', order'⟩
    · rcases order with rfl | rfl <;> cases length
    · rcases order with rfl | rfl <;> cases length
    · obtain rfl : b = a := by
        have mem : b ∈ seqNums := same.mem_iff.mp (by rcases order' with rfl | rfl <;> simp)
        rcases order with rfl | rfl <;> simpa [proper'] using mem
      have two : others.length = 2 := by rcases order' with rfl | rfl <;> rfl
      rw [of_two proper order, of_two proper order', of_count, two]
      exact ⟨rfl, two_le_span zero proper⟩

theorem eq_of_span_eq {a b : UInt32} {rest others : List UInt32} (first : a ≠ -1) (second : b ≠ -1)
    (same : (a :: rest).Perm (b :: others))
    (equal : (Tally.of (a :: rest)).span = (Tally.of (b :: others)).span) : a = b := by
  rw [Tally.span, Tally.span, of_last_perm same, of_first first, of_first second] at equal
  simpa using equal

/-! ### All orders of arrival -/

section
variable {F : Type} {mean : F → Int → UInt32 → F} {nf : Nat → List UInt8 → Int → Option PktgenHdr}
  {channels : List Channel} {zero : F} {csvOutput : Option (List CsvLine)} {arrivals : List Arrival}

theorem processAll_of (mean : F → Int → UInt32 → F) (zero : F) (csvOutput : Option (List CsvLine))
    (order : List Arrival)
    (readable : ∀ arrival ∈ order, (heard nf channels arrival).isSome) :
    ∃ state, processAll mean nf channels (start zero csvOutput) order = some state ∧
      tally state = Tally.of (order.filterMap (seqNum nf channels)) :=
  processAll_tally mean (start zero csvOutput) readable

theorem orderFree_of
    (readable : ∀ arrival ∈ arrivals, (heard nf channels arrival).isSome) :
    OrderFree mean nf channels zero csvOutput arrivals ↔ ∀ order : List Arrival,
      order.Perm arrivals →
      (Tally.of (order.filterMap (seqNum nf channels))).span =
          (Tally.of (arrivals.filterMap (seqNum nf channels))).span ∧
        (Tally.of (order.filterMap (seqNum nf channels))).count ≤
          (Tally.of (order.filterMap (seqNum nf channels))).span := by
  obtain ⟨state, processed, counted⟩ := processAll_of mean zero csvOutput arrivals readable
  refine forall₂_congr fun order same => ?_
  obtain ⟨other, processed', counted'⟩ := processAll_of mean zero csvOutput order
    fun arrival mem => readable arrival (same.mem_iff.mp mem)
  constructor
  · rintro ⟨s, o, ps, po, -, span, bound⟩
    rw [processed, Option.some.injEq] at ps
    rw [processed', Option.some.injEq] at po
    rw [← ps, ← po, counted, counted'] at span
    rw [← po, counted'] at bound
    exact ⟨span, bound⟩
  · rintro ⟨span, bound⟩
    rw [← counted, ← counted'] at span
    rw [← counted'] at bound
    refine ⟨state, other, processed, processed', ?_, span, bound⟩
    rw [counted, counted', of_count, of_count, (same.filterMap _).length_eq]

theorem exists_first {number : UInt32} (mem : number ∈ arrivals.filterMap (seqNum nf channels)) :
    ∃ (order : List Arrival) (rest : List UInt32), order.Perm arrivals ∧
      order.filterMap (seqNum nf channels) = number :: rest := by
  obtain ⟨arrival, here, heard⟩ := List.mem_filterMap.mp mem
  obtain ⟨before, after, rfl⟩ := List.append_of_mem here
  refine ⟨arrival :: (before ++ after), (before ++ after).filterMap (seqNum nf channels),
    List.perm_middle.symm, ?_⟩
  rw [List.filterMap_cons, heard]

theorem proper_single (distinct : (arrivals.filterMap (seqNum nf channels)).Nodup)
    (free : ∀ order : List Arrival, order.Perm arrivals →
      (Tally.of (order.filterMap (seqNum nf channels))).span =
        (Tally.of (arrivals.filterMap (seqNum nf channels))).span) :
    (proper (arrivals.filterMap (seqNum nf channels))).length ≤ 1 := by
  -- two numbers that may both come first would give two different spans
  have nodup : (proper (arrivals.filterMap (seqNum nf channels))).Nodup := distinct.filter _
  have mem : ∀ number ∈ proper (arrivals.filterMap (seqNum nf channels)),
      number ∈ arrivals.filterMap (seqNum nf channels) ∧ number ≠ -1 := by
    intro number inside
    obtain ⟨among, differs⟩ := List.mem_filter.mp inside
    exact ⟨among, of_decide_eq_true differs⟩
  match list : proper (arrivals.filterMap (seqNum nf channels)) with
  | [] => exact Nat.zero_le 1
  | [a] => exact Nat.le_refl 1
  | a :: b :: rest =>
    rw [list] at nodup mem
    obtain ⟨here, first⟩ := mem a List.mem_cons_self
    obtain ⟨here', second⟩ := mem b (List.mem_cons_of_mem a List.mem_cons_self)
    obtain ⟨order, later, same, front⟩ := exists_first here
    obtain ⟨order', later', same', front'⟩ := exists_first here'
    have perm := (same.trans same'.symm).filterMap (seqNum nf channels)
    have span := (free order same).trans (free order' same').symm
    rw [front, front'] at perm span
    have equal := eq_of_span_eq first second perm span
    exact absurd (equal ▸ List.mem_cons_self) (List.nodup_cons.mp nodup).1

theorem not_zero_and_sentinel {seqNums : List UInt32} (distinct : seqNums.Nodup)
    (single : (proper seqNums).length ≤ 1)
    (bound : (Tally.of seqNums).count ≤ (Tally.of seqNums).span) :
    ¬ (0 ∈ seqNums ∧ -1 ∈ seqNums) := by
  rintro ⟨zero, sentinel⟩
  rcases few distinct single with rfl | ⟨a, rfl⟩ | ⟨a, proper, order⟩
  · cases zero
  · have same := (List.mem_singleton.mp zero).trans (List.mem_singleton.mp sentinel).symm
    exact absurd same (by decide)
  · have differ : (0 : UInt32) ≠ -1 := by decide
    obtain rfl : 0 = a := by
      rcases order with rfl | rfl <;> simpa [differ] using zero
    have two : seqNums.length = 2 := by rcases order with rfl | rfl <;> rfl
    rw [of_two proper order, of_count, two] at bound
    exact absurd bound (by decide)

end

/-- The reported numbers are independent of the order of arrival exactly if there is at most one
probe, apart from one with the number that stands for "none yet". -/
theorem loss_order_free_iff {F : Type} (mean : F → Int → UInt32 → F)
    (nf : Nat → List UInt8 → Int → Option PktgenHdr) (channels : List Channel) (zero : F)
    (csvOutput : Option (List CsvLine)) (arrivals : List Arrival)
    (readable : ∀ arrival ∈ arrivals, (heard nf channels arrival).isSome)
    (distinct : (arrivals.filterMap (seqNum nf channels)).Nodup) :
    OrderFree mean nf channels zero csvOutput arrivals ↔
      Harmless (arrivals.filterMap (seqNum nf channels)) := by
  rw [orderFree_of readable]
  constructor
  · intro free
    have single := proper_single distinct fun order same => (free order same).1
    exact ⟨single, not_zero_and_sentinel distinct single (free arrivals (List.Perm.refl _)).2⟩
  · intro harmless order same
    exact of_perm distinct harmless (same.filterMap _)

def sampleArrival (number : Nat) : Arrival where
  ofVersion := 1
  pktin := ⟨(sampleProbe number 0).encode, 0, 0⟩
  fl := noFlow
  now := ⟨1400000000, 250⟩

theorem heard_sample (number : Nat) (small : number < 2 ^ 32)
    (nf : Nat → List UInt8 → Int → Option PktgenHdr) :
    (heard nf twoPorts (sampleArrival number)).isSome ∧
      seqNum nf twoPorts (sampleArrival number) = some (UInt32.ofNat number) := by
  have untagged := sampleProbe_untagged number 0
  have fits := sampleProbe_fits 0 small
  have ether : (sampleProbe number 0).ether.length = 14 := rfl
  have length : Lib.Bytes.ntohs (sampleProbe number 0).encode.length = 14848 := by
    rw [sampleProbe_length]
    decide
  have known : twoPorts[oflopsData1]? = some ⟨none, .pcap⟩ := rfl
  have extracted := extract_probe_long nf known rfl fits (by omega) untagged.located
    untagged.fields noFlow
    (Lib.Bytes.ntohs (sampleProbe number 0).encode.length) (by omega)
  have found := pktgenAt_converted fits
  have heard' : heard nf twoPorts (sampleArrival number) =
      some (some ⟨Lib.Bytes.htonl 0xbe9be955, number, 1400000000, 0⟩) := by
    simp only [heard, sampleArrival, extracted, Option.bind_eq_bind, Option.bind_some, pktgenOf,
      Option.map_some, found]
    rfl
  rw [seqNum, heard']
  exact ⟨rfl, rfl⟩

theorem processAll_samples (first second : Nat) (small : first < 2 ^ 32)
    (small' : second < 2 ^ 32) :
    ∃ state, processAll (fun _ _ _ => ()) (fun _ _ _ => none) twoPorts (start () none)
        [sampleArrival first, sampleArrival second] = some state ∧
      tally state = Tally.of [UInt32.ofNat first, UInt32.ofNat second] := by
  obtain ⟨readable, number⟩ := heard_sample first small (fun _ _ _ => none)
  obtain ⟨readable', number'⟩ := heard_sample second small' (fun _ _ _ => none)
  obtain ⟨state, processed, counted⟩ := processAll_of (fun _ _ _ => ()) () none
    [sampleArrival first, sampleArrival second] (by simpa using And.intro readable readable')
  refine ⟨state, processed, ?_⟩
  rw [counted, List.filterMap_cons, number, List.filterMap_cons, number']
  rfl

theorem loss_order_free_iff_single :
    OrderFree (fun _ _ _ => ()) (fun _ _ _ => none) twoPorts () none [sampleArrival 7] := by
  obtain ⟨readable, number⟩ := heard_sample 7 (by decide) (fun _ _ _ => none)
  have numbers : [sampleArrival 7].filterMap (seqNum (fun _ _ _ => none) twoPorts) = [7] := by
    rw [List.filterMap_cons, number]
    rfl
  refine (loss_order_free_iff _ _ twoPorts () none [sampleArrival 7] ?_ ?_).mpr ?_
  · rw [List.forall_mem_singleton]
    exact readable
  · rw [numbers]
    decide
  · rw [numbers]
    exact ⟨by decide, by decide⟩

/-- Probes 1 and 2: in order two of two are received, out of order two of one. -/
theorem reordered_probes_exceed_span :
    let run := processAll (fun _ _ _ => ()) (fun _ _ _ => none) twoPorts (start () none)
    (run [sampleArrival 1, sampleArrival 2]).map
    (fun state => ((tally state).count, (tally state).span)) =
        some (2, 2) ∧
      (run [sampleArrival 2, sampleArrival 1]).map
        (fun state => ((tally state).count, (tally state).span)) = some (2, 1) := by
  obtain ⟨state, processed, counted⟩ := processAll_samples 1 2 (by decide) (by decide)
  obtain ⟨other, processed', counted'⟩ := processAll_samples 2 1 (by decide) (by decide)
  dsimp only
  rw [processed, processed', Option.map_some, Option.map_some, counted, counted']
  decide

end Oflops.PacketIn.Loss
