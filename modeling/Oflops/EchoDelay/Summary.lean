import Mathlib.Data.Finset.Card
import Oflops.EchoDelay.Module
import Oflops.Lib.ArrayFill

/-! What `destroy` of `openflow_echo_delay` summarises: it looks at as many entries as requests were
captured, while the measurements lie where their xids say. -/

namespace Oflops.EchoDelay.Summary
open Lib.ArrayFill Time EchoDelay.Module

structure Sum where
  data : List (Option Int)
  count : Nat
  lost : Nat

def Sum.filling (sum : Sum) : Filling Int := ⟨sum.data, sum.count⟩

def collect (echoes : Echoes) (sum : Sum) (i : Nat) : Option Sum :=
  if i < echoDataSize then
    let entry := echoes.echoData i
    if entry.snd.tvSec > 0 ∧ entry.rcv.tvSec > 0 then do
      let data ← put sum.data sum.count (timeDiff entry.snd entry.rcv)
      some { sum with data, count := sum.count + 1 }
    else some { sum with lost := sum.lost + 1 }
  else none

/-- What the statistics functions are given, and the two numbers whose quotient is the loss. -/
structure Report where
  data : List (Option Int)
  loss : Nat × Nat

def report (echoDataCount : Nat) (sum : Sum) : Option Report :=
  if sum.count > 0 then some ⟨sum.data.take sum.count, sum.lost, echoDataCount⟩ else none

def destroy (echoes : Echoes) : Option (Option Report) := do
  let sum ← (List.range' 1 echoes.echoDataCount).foldlM (collect echoes)
    ⟨alloc echoes.echoDataCount, 0, 0⟩
  some (report echoes.echoDataCount sum)

def given (report : Option Report) : List (Option Int) := (report.map Report.data).getD []

theorem given_report (echoDataCount : Nat) (sum : Sum) :
    given (report echoDataCount sum) = sum.filling.front := by
  unfold given report
  split_ifs with some'
  · rfl
  · rw [Filling.front, Sum.filling, Nat.eq_zero_of_not_pos some', List.take_zero]
    rfl

/-! ### What is to be summarised -/

section History
variable (history : List Capture)

/-- The xids whose request and reply were both captured. -/
def probes : Finset Nat :=
  (history.map Capture.xid).toFinset.filter fun xid =>
    (last history .request xid).isSome ∧ (last history .reply xid).isSome

def entryOf (xid : Nat) : EchoEntry :=
  ⟨(last history .request xid).getD ⟨0, 0⟩, (last history .reply xid).getD ⟨0, 0⟩⟩

def delay (entry : EchoEntry) : Int := timeDiff entry.snd entry.rcv

end History

/-- All accesses are inside the arrays, and there is exactly one delay for each probe. -/
def Covers (events : List Event) : Prop :=
  ∃ state report, events.foldlM step initial = some state ∧ destroy state.echoes = some report ∧
    (given report : Multiset (Option Int)) =
      (probes (captures 1 events)).val.map fun xid => some (delay (entryOf (captures 1 events) xid))

/-! ### The loop -/

def Complete (entry : EchoEntry) : Prop := entry.snd.tvSec > 0 ∧ entry.rcv.tvSec > 0

instance (entry : EchoEntry) : Decidable (Complete entry) := inferInstanceAs (Decidable (_ ∧ _))

section Loop
variable (echoes : Echoes)

def delays (indices : List Nat) : List Int :=
  (indices.filter fun i => Complete (echoes.echoData i)).map fun i => delay (echoes.echoData i)

theorem delays_cons (i : Nat) (indices : List Nat) :
    delays echoes (i :: indices) =
      (if Complete (echoes.echoData i) then [delay (echoes.echoData i)] else []) ++
        delays echoes indices :=
  map_filter_cons _ _ i indices

variable {echoes} in
theorem collect_complete {sum : Sum} {i : Nat} (inside : i < echoDataSize)
    (complete : Complete (echoes.echoData i)) :
    collect echoes sum i =
      (sum.filling.store 0 (delay (echoes.echoData i))).map fun filling =>
        ⟨filling.cells, filling.ix, sum.lost⟩ := by
  have stored : collect echoes sum i = (put sum.data sum.count (delay (echoes.echoData i))).bind
      fun data => some ⟨data, sum.count + 1, sum.lost⟩ := by
    rw [collect, if_pos inside]
    exact if_pos complete
  rw [stored, Filling.store, Sum.filling, Int.zero_add, Option.map_map, Option.map_eq_bind]
  rfl

variable {echoes} in
theorem collect_lost {sum : Sum} {i : Nat} (inside : i < echoDataSize)
    (lost : ¬ Complete (echoes.echoData i)) :
    collect echoes sum i = some { sum with lost := sum.lost + 1 } := by
  rw [collect, if_pos inside]
  exact if_neg lost

theorem collectAll_inside (sum : Sum) (indices : List Nat)
    (inside : ∀ i ∈ indices, i < echoDataSize) :
    ∃ lost, indices.foldlM (collect echoes) sum =
      (sum.filling.storeAll 0 (delays echoes indices)).map fun filling =>
        ⟨filling.cells, filling.ix, lost⟩ := by
  induction indices generalizing sum with
  | nil => exact ⟨sum.lost, rfl⟩
  | cons i indices ih =>
    have here := inside i List.mem_cons_self
    have rest := fun sum => ih sum fun j member => inside j (List.mem_cons_of_mem _ member)
    rw [delays_cons, List.foldlM_cons]
    by_cases complete : Complete (echoes.echoData i)
    · rw [if_pos complete, List.singleton_append, storeAll_cons, collect_complete here complete]
      cases sum.filling.store 0 (delay (echoes.echoData i)) with
      | none => exact ⟨0, rfl⟩
      | some filling => exact rest ⟨filling.cells, filling.ix, sum.lost⟩
    · rw [if_neg complete, collect_lost here complete]
      exact rest { sum with lost := sum.lost + 1 }

variable {echoes} in
theorem collectAll_some {sum after : Sum} {indices : List Nat}
    (collected : indices.foldlM (collect echoes) sum = some after) :
    ∀ i ∈ indices, i < echoDataSize := by
  induction indices generalizing sum with
  | nil => exact fun i member => absurd member List.not_mem_nil
  | cons i indices ih =>
    obtain ⟨next, first, rest⟩ := Option.bind_eq_some_iff.mp collected
    intro j member
    rcases List.mem_cons.mp member with rfl | later
    · by_contra outside
      rw [collect, if_neg outside] at first
      cases first
    · exact ih rest j later

theorem destroy_given (few : echoes.echoDataCount < echoDataSize) :
    ∃ report, destroy echoes = some report ∧
      given report = (delays echoes (List.range' 1 echoes.echoDataCount)).map some := by
  have inside : ∀ i ∈ List.range' 1 echoes.echoDataCount, i < echoDataSize := by
    intro i member
    have := List.mem_range'_1.mp member
    omega
  have fits : (delays echoes (List.range' 1 echoes.echoDataCount)).length ≤
      echoes.echoDataCount := by
    rw [delays, List.length_map]
    exact (List.length_filter_le _ _).trans (Nat.le_of_eq List.length_range')
  obtain ⟨lost, collected⟩ := collectAll_inside echoes ⟨alloc echoes.echoDataCount, 0, 0⟩ _ inside
  obtain ⟨free, total⟩ := Nat.exists_eq_add_of_le fits
  generalize delays echoes (List.range' 1 echoes.echoDataCount) = values at *
  have stored := storeAll_zero [] values free
  rw [List.nil_append, ← total] at stored
  refine ⟨report echoes.echoDataCount ⟨values.map some ++ alloc free, values.length, lost⟩, ?_, ?_⟩
  · rw [destroy, collected, Sum.filling]
    exact congrArg (fun filling => (Option.map _ filling).bind _) stored
  · rw [given_report, Filling.front]
    exact List.take_left' (List.length_map _)

variable {echoes} in
theorem destroy_some {report : Option Report} (done : destroy echoes = some report) :
    echoes.echoDataCount < echoDataSize := by
  obtain ⟨sum, collected, -⟩ := Option.bind_eq_some_iff.mp done
  by_contra many
  have reached : echoDataSize ∈ List.range' 1 echoes.echoDataCount :=
    List.mem_range'_1.mpr ⟨by decide, by omega⟩
  exact Nat.lt_irrefl _ (collectAll_some collected echoDataSize reached)

end Loop

/-! ### The entries that the loop reaches -/

theorem captures_pos (transId : Nat) (events : List Event) :
    ∀ capture ∈ captures transId events, 0 < capture.xid := by
  induction events generalizing transId with
  | nil => exact fun capture member => absurd member List.not_mem_nil
  | cons event events ih =>
    cases event with
    | echoRequest => exact ih (transId + 1)
    | captured packet ts =>
      rw [captures]
      split_ifs with counts
      · intro capture member
        rcases List.mem_cons.mp member with rfl | later
        · exact counts.1
        · exact ih transId capture later
      · exact ih transId

theorem mem_of_last {history : List Capture} {type : EchoType} {xid : Nat}
    (found : (last history type xid).isSome) : xid ∈ history.map Capture.xid := by
  rw [last, Option.isSome_map] at found
  obtain ⟨capture, latest⟩ := Option.isSome_iff_exists.mp found
  obtain ⟨member, own⟩ := List.mem_filter.mp (List.mem_of_getLast? latest)
  exact List.mem_map.mpr ⟨capture, member, (of_decide_eq_true own).2⟩

section Reached
variable {history : List Capture}

theorem mem_probes {xid : Nat} : xid ∈ probes history ↔
    (last history .request xid).isSome ∧ (last history .reply xid).isSome := by
  rw [probes, Finset.mem_filter, List.mem_toFinset, and_iff_right_iff_imp]
  exact fun found => mem_of_last found.1

theorem mem_probes_of_complete {xid : Nat} (complete : Complete (entryOf history xid)) :
    xid ∈ probes history := by
  have found : ∀ time : Option Timeval, (time.getD ⟨0, 0⟩).tvSec > 0 → time.isSome := by
    intro time positive
    cases time with
    | none => exact absurd positive (Int.lt_irrefl 0)
    | some ts => rfl
  exact mem_probes.mpr ⟨found _ complete.1, found _ complete.2⟩

def kept (history : List Capture) (n : Nat) : List Nat :=
  (List.range' 1 n).filter fun xid => Complete (entryOf history xid)

theorem mem_kept {n xid : Nat} :
    xid ∈ kept history n ↔ (1 ≤ xid ∧ xid ≤ n) ∧ Complete (entryOf history xid) := by
  rw [kept, List.mem_filter, List.mem_range'_1, decide_eq_true_eq, Nat.lt_one_add_iff]

theorem kept_nodup (n : Nat) : (kept history n).Nodup :=
  List.Nodup.filter _ List.nodup_range'

theorem kept_eq_probes_iff (positive : ∀ capture ∈ history, 0 < capture.xid) (n : Nat) :
    ((kept history n).map (fun xid => some (delay (entryOf history xid))) : Multiset (Option Int)) =
        (probes history).val.map (fun xid => some (delay (entryOf history xid))) ↔
      ∀ xid ∈ probes history, xid ≤ n ∧ Complete (entryOf history xid) := by
  have probed : (kept history n).toFinset ⊆ probes history := by
    intro xid member
    exact mem_probes_of_complete (mem_kept.mp (List.mem_toFinset.mp member)).2
  constructor
  · intro same xid member
    have sizes := congrArg Multiset.card same
    rw [Multiset.coe_card, List.length_map, Multiset.card_map, Finset.card_val,
      ← List.toFinset_card_of_nodup (kept_nodup n)] at sizes
    rw [← Finset.eq_of_subset_of_card_le probed (Nat.le_of_eq sizes.symm),
      List.mem_toFinset] at member
    obtain ⟨⟨-, low⟩, complete⟩ := mem_kept.mp member
    exact ⟨low, complete⟩
  · intro reached
    have all : (kept history n).toFinset = probes history := by
      apply Finset.Subset.antisymm probed
      intro xid member
      obtain ⟨low, complete⟩ := reached xid member
      obtain ⟨capture, there, rfl⟩ := List.mem_map.mp (mem_of_last (mem_probes.mp member).1)
      exact List.mem_toFinset.mpr (mem_kept.mpr ⟨⟨positive capture there, low⟩, complete⟩)
    rw [← all, List.toFinset_val, (kept_nodup n).dedup, Multiset.map_coe]

end Reached

/-- The entry of every probe is one that the loop reaches, and its times are later than the first
second of the epoch. -/
structure Regular (history : List Capture) : Prop where
  inside : ∀ capture ∈ history, capture.xid < echoDataSize
  few : requests history < echoDataSize
  reached : ∀ xid ∈ probes history, xid ≤ requests history ∧ Complete (entryOf history xid)

theorem run_entries {events : List Event} {state : State}
    (ran : events.foldlM step initial = some state) :
    state.echoes.echoDataCount = requests (captures 1 events) ∧
      state.echoes.echoData = entryOf (captures 1 events) := by
  obtain ⟨final, ran', echoes⟩ := run_inside initial events (run_some ran)
  cases ran.symm.trans ran'
  obtain ⟨count, entries⟩ := note_history (captures 1 events)
  exact ⟨(congrArg _ echoes).trans count, (congrArg _ echoes).trans (funext entries)⟩

/-- The summary covers the probes exactly if the loop reaches all of them. -/
theorem covers_iff (events : List Event) : Covers events ↔ Regular (captures 1 events) := by
  have positive := captures_pos 1 events
  constructor
  · rintro ⟨state, report, ran, done, same⟩
    obtain ⟨count, entries⟩ := run_entries ran
    have few := destroy_some done
    obtain ⟨report', done', values⟩ := destroy_given state.echoes few
    cases done.symm.trans done'
    rw [count] at few
    refine ⟨run_some ran, few, (kept_eq_probes_iff positive _).mp ?_⟩
    rw [← same, values, delays, count, entries, List.map_map]
    rfl
  · rintro ⟨inside, few, reached⟩
    obtain ⟨state, ran, -⟩ := run_inside initial events inside
    obtain ⟨count, entries⟩ := run_entries ran
    obtain ⟨report, done, values⟩ := destroy_given state.echoes (count.symm ▸ few)
    refine ⟨state, report, ran, done, ?_⟩
    rw [values, delays, count, entries, List.map_map]
    exact (kept_eq_probes_iff positive _).mpr reached

def packetOf (type : EchoType) (xid : UInt8) : EchoPacket where
  ether := List.replicate 14 0
  ip := 0x45 :: List.replicate 19 0
  tcp := List.replicate 12 0 ++ 0x50 :: List.replicate 7 0
  message := [1, if type = .request then 2 else 3, 0, 8, 0, 0, 0, xid]
  type := type
  etherSize := rfl
  ipSize := by decide
  tcpSize := by decide
  messageSize := by simp
  known := by cases type <;> rfl

/-- Two requests are sent and the second is answered; the capture of the first is lost. The only
probe has the xid 2, and the loop ends at 1. -/
theorem lost_capture :
    let events : List Event := [.echoRequest, .echoRequest, .captured (packetOf .request 2) ⟨10, 0⟩,
      .captured (packetOf .reply 2) ⟨10, 400⟩]
    (∃ state, events.foldlM step initial = some state ∧ destroy state.echoes = some none) ∧
      probes (captures 1 events) = {2} ∧ ¬ Covers events := by
  intro events
  have single : probes (captures 1 events) = {2} := by decide
  obtain ⟨state, ran, done⟩ :
      ∃ state, events.foldlM step initial = some state ∧ destroy state.echoes = some none :=
    ⟨_, rfl, rfl⟩
  refine ⟨⟨state, ran, done⟩, single, ?_⟩
  rintro ⟨state', report, ran', done', same⟩
  cases ran.symm.trans ran'
  cases done.symm.trans done'
  rw [single] at same
  cases congrArg Multiset.card same

end Oflops.EchoDelay.Summary
