import Oflops.FlowStats.Replies
import Oflops.Lib.ArrayFill
import Oflops.Traffic.UserLoop

/-! What `destroy` of `openflow_flow_stats` hands to the statistics functions: the delays of the
captured packets for each data channel, and those of the requests. -/

namespace Oflops.FlowStats.Summary
open Lib.ArrayFill Replies Time
open Traffic.UserLoop (oflopsData1 oflopsData3)

structure Entry where
  snd : Timeval
  rcv : Timeval
  ch : Int
  id : Int

def intMax : Int := 2 ^ 31 - 1
def intMin : Int := -2 ^ 31

/-- The index of a data channel; packets of other channels are skipped. -/
def dataChannel (ch : Int) : Option (Fin 3) :=
  if ch > oflopsData3 ∨ ch < oflopsData1 then none else some (Fin.ofNat 3 (ch - 1).toNat)

/-- The variables of one channel: its array of delays, its counter, its smallest and its greatest
packet number. -/
structure Channel where
  data : List (Option Int)
  ix : Nat
  minId : Int
  maxId : Int

def Channel.filling (channel : Channel) : Filling Int := ⟨channel.data, channel.ix⟩

/-- The counter is incremented before the delay is stored. -/
def Channel.record (channel : Channel) (np : Entry) : Option Channel := do
  let ix := channel.ix + 1
  let minId := if np.id < channel.minId then np.id else channel.minId
  let maxId := if np.id > channel.maxId then np.id else channel.maxId
  let data ← put channel.data ix (timeDiff np.snd np.rcv)
  some ⟨data, ix, minId, maxId⟩

def collect (channels : Fin 3 → Channel) (np : Entry) : Option (Fin 3 → Channel) :=
  match dataChannel np.ch with
  | none => some channels
  | some ch =>
    if timeCmp np.snd np.rcv > 0 then do
      let channel ← (channels ch).record np
      some (Function.update channels ch channel)
    else some channels

/-- `count`, which `handle_pcap_event` keeps. -/
def count (entries : List Entry) (ch : Fin 3) : Nat :=
  entries.countP fun np => dataChannel np.ch = some ch

def allocated (entries : List Entry) (ch : Fin 3) : Channel :=
  ⟨alloc (count entries ch), 0, intMax, intMin⟩

/-- The body of the loop over the requests: here the counter is incremented behind the store. -/
def collectRequest (statsCount : Nat) (channel : Channel) (request : StatsEntry) : Option Channel :=
  if (request.rcv.tvSec = 0 ∧ request.rcv.tvUsec = 0) ∨ channel.ix ≥ statsCount then some channel
  else do
    let data ← put channel.data (channel.ix - 1) (timeDiff request.snd request.rcv)
    some { channel with data, ix := channel.ix + 1 }

structure Report where
  data : List (Option Int)
  loss : Nat × Int

def report (channel : Channel) : Option Report :=
  if channel.ix = 0 then none
  else some ⟨channel.data.take channel.ix, channel.ix, channel.maxId - channel.minId⟩

/-- The captured packets, the entries of `stats_counter` up to `trans_id`, and `stats_count`. The
reports are those of the channels and that of the requests. -/
def destroy (entries : List Entry) (requests : List StatsEntry) (statsCount : Nat) :
    Option ((Fin 3 → Option Report) × Option Report) := do
  let channels ← entries.foldlM collect (allocated entries)
  -- the array of the first channel is replaced, its packet numbers are kept
  let stats ← requests.foldlM (collectRequest statsCount)
    { channels 0 with data := alloc statsCount, ix := 0 }
  some (fun ch => report (channels ch), report stats)

/-! ### What is to be summarised -/

/-- The delays of the packets of a channel that were captured after they were sent. -/
def packetDelays (entries : List Entry) (ch : Fin 3) : List Int :=
  (entries.filter fun np => dataChannel np.ch = some ch ∧ np.snd < np.rcv).map fun np =>
    timeDiff np.snd np.rcv

def requestDelays (requests : List StatsEntry) : List Int :=
  (requests.filter fun request => request.rcv ≠ ⟨0, 0⟩).map fun request =>
    timeDiff request.snd request.rcv

def given (report : Option Report) : List (Option Int) := (report.map Report.data).getD []

/-- All accesses are inside the arrays, and exactly the delays are summarised. -/
def Summarises (entries : List Entry) (requests : List StatsEntry) (statsCount : Nat) : Prop :=
  ∃ ports stats, destroy entries requests statsCount = some (ports, stats) ∧
    (∀ ch, (given (ports ch)).Perm ((packetDelays entries ch).map some)) ∧
    (given stats).Perm ((requestDelays requests).map some)

theorem given_report (channel : Channel) : given (report channel) = channel.filling.front := by
  unfold given report
  split_ifs with none'
  · rw [Filling.front, Channel.filling, none', List.take_zero]
    rfl
  · rfl

/-! ### The packets -/

theorem record_filling (channel : Channel) (np : Entry) :
    (channel.record np).map Channel.filling = channel.filling.store 1 (timeDiff np.snd np.rcv) := by
  rw [Channel.record, Filling.store, Channel.filling, Int.add_comm, ← Nat.cast_succ]
  cases put channel.data (channel.ix + 1 : Nat) (timeDiff np.snd np.rcv) <;> rfl

theorem packetDelays_cons (np : Entry) (entries : List Entry) (ch : Fin 3) :
    packetDelays (np :: entries) ch =
      (if dataChannel np.ch = some ch ∧ np.snd < np.rcv then [timeDiff np.snd np.rcv] else []) ++
        packetDelays entries ch :=
  map_filter_cons _ _ np entries

theorem collect_filling {channels after : Fin 3 → Channel} {np : Entry}
    (collected : collect channels np = some after) (ch : Fin 3) :
    (channels ch).filling.storeAll 1
        (if dataChannel np.ch = some ch ∧ np.snd < np.rcv then [timeDiff np.snd np.rcv] else []) =
      some (after ch).filling := by
  unfold collect at collected
  cases own : dataChannel np.ch with
  | none =>
    rw [own] at collected
    cases collected
    rw [if_neg (by simp), storeAll_nil]
  | some ch' =>
    rw [own] at collected
    simp only [timeCmp_pos] at collected
    split_ifs at collected with later
    · obtain ⟨channel, recorded, done⟩ := Option.bind_eq_some_iff.mp collected
      cases done
      by_cases same : ch' = ch
      · subst same
        rw [if_pos ⟨rfl, later⟩, storeAll_cons, ← record_filling, recorded, Function.update_self]
        rfl
      · rw [if_neg (by simp [same]), Function.update_of_ne (Ne.symm same), storeAll_nil]
    · cases collected
      rw [if_neg (by simp [later]), storeAll_nil]

theorem collectAll_filling {channels after : Fin 3 → Channel} {entries : List Entry}
    (collected : entries.foldlM collect channels = some after) (ch : Fin 3) :
    (channels ch).filling.storeAll 1 (packetDelays entries ch) = some (after ch).filling := by
  induction entries generalizing channels with
  | nil =>
    cases collected
    rfl
  | cons np entries ih =>
    obtain ⟨next, first, rest⟩ := Option.bind_eq_some_iff.mp collected
    rw [packetDelays_cons, storeAll_append, collect_filling first ch, Option.bind_some, ih rest]

theorem collect_none {channels : Fin 3 → Channel} {np : Entry}
    (failed : collect channels np = none) :
    ∃ ch, (channels ch).filling.storeAll 1
      (if dataChannel np.ch = some ch ∧ np.snd < np.rcv then [timeDiff np.snd np.rcv] else []) =
        none := by
  unfold collect at failed
  cases own : dataChannel np.ch with
  | none =>
    rw [own] at failed
    cases failed
  | some ch =>
    rw [own] at failed
    simp only [timeCmp_pos] at failed
    split_ifs at failed with later
    refine ⟨ch, ?_⟩
    rw [if_pos ⟨rfl, later⟩, storeAll_cons, ← record_filling]
    cases recorded : (channels ch).record np with
    | none => rfl
    | some channel =>
      rw [recorded] at failed
      cases failed

theorem collectAll_isSome_iff {channels : Fin 3 → Channel} {entries : List Entry} :
    (entries.foldlM collect channels).isSome ↔
      ∀ ch, ((channels ch).filling.storeAll 1 (packetDelays entries ch)).isSome := by
  induction entries generalizing channels with
  | nil => exact iff_of_true rfl (fun ch => rfl)
  | cons np entries ih =>
    simp only [List.foldlM_cons, packetDelays_cons, storeAll_append]
    cases first : collect channels np with
    | none =>
      obtain ⟨ch, full⟩ := collect_none first
      refine iff_of_false (by simp) (fun all => ?_)
      have stored := all ch
      rw [full] at stored
      cases stored
    | some next =>
      simp only [collect_filling first, Option.bind_eq_bind, Option.bind_some, ih]

/-- All packets of a channel were captured after they were sent: as the first cell is left out,
the last of them has no place. -/
def Overruns (entries : List Entry) (ch : Fin 3) : Prop :=
  (∃ np ∈ entries, dataChannel np.ch = some ch) ∧
    ∀ np ∈ entries, dataChannel np.ch = some ch → np.snd < np.rcv

theorem overruns_iff (entries : List Entry) (ch : Fin 3) :
    Overruns entries ch ↔
      packetDelays entries ch ≠ [] ∧ count entries ch ≤ (packetDelays entries ch).length := by
  have own : (packetDelays entries ch).length =
      ((entries.filter fun np => dataChannel np.ch = some ch).filter
        fun np => decide (np.snd < np.rcv)).length := by
    rw [packetDelays, List.length_map, List.filter_filter]
    simp only [Bool.decide_and, Bool.and_comm]
  have most := List.length_filter_le (fun np : Entry => decide (np.snd < np.rcv))
    (entries.filter fun np => dataChannel np.ch = some ch)
  rw [Overruns, count, ← List.length_pos_iff, List.countP_eq_length_filter, own]
  have all := List.length_filter_eq_length_iff
    (p := fun np : Entry => decide (np.snd < np.rcv))
    (l := entries.filter fun np => dataChannel np.ch = some ch)
  have some' := List.length_pos_iff_exists_mem
    (l := entries.filter fun np => dataChannel np.ch = some ch)
  simp only [List.mem_filter, decide_eq_true_eq, and_imp] at all some'
  rw [← some', ← all]
  omega

theorem collectAll_none_iff (entries : List Entry) :
    entries.foldlM collect (allocated entries) = none ↔ ∃ ch, Overruns entries ch := by
  rw [← Option.not_isSome_iff_eq_none, collectAll_isSome_iff, not_forall]
  refine exists_congr fun ch => ?_
  have size : (allocated entries ch).filling.cells.length = count entries ch :=
    List.length_replicate
  have first : (allocated entries ch).filling.ix = 0 := rfl
  rw [storeAll_isSome_iff, overruns_iff, size, first, not_or]
  apply and_congr_right
  intro some'
  omega

theorem packetDelays_eq_nil_iff (entries : List Entry) :
    (∀ ch, packetDelays entries ch = []) ↔
      ∀ np ∈ entries, ∀ ch, dataChannel np.ch = some ch → ¬ np.snd < np.rcv := by
  simp only [packetDelays, List.map_eq_nil_iff, List.filter_eq_nil_iff, decide_eq_true_eq, not_and]
  exact ⟨fun none' np member ch => none' ch np member, fun none' ch np member => none' np member ch⟩

theorem collectAll_skipped (channels : Fin 3 → Channel) {entries : List Entry}
    (skipped : ∀ np ∈ entries, ∀ ch, dataChannel np.ch = some ch → ¬ np.snd < np.rcv) :
    entries.foldlM collect channels = some channels := by
  apply foldlM_skipped
  intro np member
  unfold collect
  cases own : dataChannel np.ch with
  | none => rfl
  | some ch =>
    dsimp only
    rw [if_neg]
    rw [timeCmp_pos]
    exact skipped np member ch own

/-! ### The requests -/

theorem requestDelays_cons (request : StatsEntry) (requests : List StatsEntry) :
    requestDelays (request :: requests) =
      (if request.rcv ≠ ⟨0, 0⟩ then [timeDiff request.snd request.rcv] else []) ++
        requestDelays requests :=
  map_filter_cons _ _ request requests

theorem rcv_eq_zero_iff (rcv : Timeval) : rcv.tvSec = 0 ∧ rcv.tvUsec = 0 ↔ rcv = ⟨0, 0⟩ := by
  cases rcv
  simp

theorem collectRequests_filling {statsCount : Nat} {channel after : Channel}
    {requests : List StatsEntry}
    (collected : requests.foldlM (collectRequest statsCount) channel = some after) :
    channel.filling.storeAll (-1) ((requestDelays requests).take (statsCount - channel.ix)) =
      some after.filling := by
  induction requests generalizing channel with
  | nil =>
    cases collected
    rw [requestDelays, List.filter_nil, List.map_nil, List.take_nil, storeAll_nil]
  | cons request requests ih =>
    obtain ⟨next, first, rest⟩ := Option.bind_eq_some_iff.mp collected
    have later := ih rest
    unfold collectRequest at first
    simp only [rcv_eq_zero_iff] at first
    split_ifs at first with skipped
    · cases first
      rcases skipped with unanswered | full
      · rw [requestDelays_cons, if_neg (not_not.mpr unanswered), List.nil_append, later]
      · rw [Nat.sub_eq_zero_of_le full, List.take_zero] at later ⊢
        exact later
    · obtain ⟨answered, room⟩ := not_or.mp skipped
      obtain ⟨data, written, done⟩ := Option.bind_eq_some_iff.mp first
      cases done
      have stored : channel.filling.store (-1) (timeDiff request.snd request.rcv) =
          some (Filling.mk data (channel.ix + 1)) := by
        rw [Filling.store, Channel.filling, Int.add_comm, ← Int.sub_eq_add_neg, written,
          Option.map_some]
      have count : statsCount - channel.ix = statsCount - (channel.ix + 1) + 1 := by omega
      rw [requestDelays_cons, if_pos answered, List.singleton_append, count, List.take_succ_cons,
        storeAll_cons, stored, Option.bind_some]
      exact later

theorem requestDelays_eq_nil_iff (requests : List StatsEntry) :
    requestDelays requests = [] ↔ ∀ request ∈ requests, request.rcv = ⟨0, 0⟩ := by
  simp only [requestDelays, List.map_eq_nil_iff, List.filter_eq_nil_iff, decide_eq_true_eq,
    ne_eq, not_not]

theorem collectRequests_skipped (statsCount : Nat) (channel : Channel) {requests : List StatsEntry}
    (skipped : ∀ request ∈ requests, request.rcv = ⟨0, 0⟩) :
    requests.foldlM (collectRequest statsCount) channel = some channel := by
  apply foldlM_skipped
  intro request member
  exact if_pos (Or.inl ((rcv_eq_zero_iff _).mpr (skipped request member)))

/-- As soon as one request has a reply time, its delay is stored in front of the array or not at
all. -/
theorem requestDelays_eq_nil {statsCount : Nat} {channel after : Channel}
    {requests : List StatsEntry} (empty : channel.filling = ⟨alloc statsCount, 0⟩)
    (collected : requests.foldlM (collectRequest statsCount) channel = some after)
    (exact' : after.filling.front.Perm ((requestDelays requests).map some)) :
    requestDelays requests = [] := by
  have ix : channel.ix = 0 := congrArg Filling.ix empty
  have stored := collectRequests_filling collected
  rw [empty, ix, Nat.sub_zero] at stored
  have short := (storeAll_some stored).1
  have all := exact'.length_eq
  rw [Filling.front, List.length_take, List.length_map, short, Nat.zero_add,
    List.length_take] at all
  rw [List.take_of_length_le (by omega)] at stored
  exact eq_nil_of_offset stored exact' (by decide)

/-- The summary is exact only if it is empty. -/
theorem delays_summarised_iff (entries : List Entry) (requests : List StatsEntry)
    (statsCount : Nat) :
    Summarises entries requests statsCount ↔
      (∀ np ∈ entries, ∀ ch, dataChannel np.ch = some ch → ¬ np.snd < np.rcv) ∧
        ∀ request ∈ requests, request.rcv = ⟨0, 0⟩ := by
  rw [← packetDelays_eq_nil_iff, ← requestDelays_eq_nil_iff]
  constructor
  · rintro ⟨ports, stats, done, packets, answers⟩
    obtain ⟨channels, collected, done⟩ := Option.bind_eq_some_iff.mp done
    obtain ⟨channel, collected', done⟩ := Option.bind_eq_some_iff.mp done
    cases done
    rw [given_report] at answers
    refine ⟨fun ch => ?_, requestDelays_eq_nil rfl collected' answers⟩
    have exact' := packets ch
    rw [given_report] at exact'
    exact eq_nil_of_offset (collectAll_filling collected ch) exact' (by decide)
  · rintro ⟨packets, answers⟩
    have first := collectAll_skipped (allocated entries) ((packetDelays_eq_nil_iff _).mp packets)
    have second := collectRequests_skipped statsCount
      { allocated entries 0 with data := alloc statsCount, ix := 0 }
      ((requestDelays_eq_nil_iff _).mp answers)
    have nothing : destroy entries requests statsCount = some (fun _ => none, none) := by
      rw [destroy, first, Option.bind_eq_bind, Option.bind_some, second]
      rfl
    refine ⟨_, _, nothing, fun ch => ?_, ?_⟩
    · rw [packets ch]
      exact List.Perm.refl []
    · rw [answers]
      exact List.Perm.refl []

/-- One packet is stored behind its array of one cell, of two packets the one that is kept is not
among the values that are summarised, and the first answer is stored in front of its array. -/
theorem delays_misplaced :
    destroy [⟨⟨1, 0⟩, ⟨1, 7⟩, 2, 0⟩] [] 0 = none ∧
      (∃ ports stats, destroy [⟨⟨1, 0⟩, ⟨1, 7⟩, 2, 0⟩, ⟨⟨1, 0⟩, ⟨0, 0⟩, 2, 1⟩] [] 0 =
        some (ports, stats) ∧
        given (ports 1) = [none]) ∧
      destroy [] [⟨⟨1, 7⟩, ⟨1, 0⟩, 1⟩] 1 = none ∧
      ¬ Summarises [⟨⟨1, 0⟩, ⟨1, 7⟩, 2, 0⟩] [⟨⟨1, 7⟩, ⟨1, 0⟩, 1⟩] 1 := by
  refine ⟨rfl, ⟨_, _, rfl, rfl⟩, rfl, ?_⟩
  rintro ⟨ports, stats, done, -⟩
  cases done

end Oflops.FlowStats.Summary
