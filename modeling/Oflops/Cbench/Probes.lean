import Oflops.Cbench.Dialogue
import Oflops.Lib.ReflectedWalk

/-! The probes a fake switch waits for: `probe_state` is a walk that goes up with every probe and
down with every response, is reflected at zero, and starts again at every reset. -/

namespace Oflops.Cbench.Probes
open Lib.Machine Lib.ReflectedWalk Stream.Buffer Time Protocol Switch Session Hearing Dialogue

def isProbe : Act → Bool
  | .probe _ => true
  | _ => false

def isResponse : Act → Bool
  | .handled request => request.response
  | _ => false

/-- `probe_state` is set to zero by a vendor message and by `fakeswitch_get_count`. -/
def resets : Act → Bool
  | .handled request => request.type = .vendor
  | .counted => true
  | _ => false

def probesQueued (acts : List Act) : Nat := acts.countP isProbe

def responsesHandled (acts : List Act) : Nat := acts.countP isResponse

def moveOf (act : Act) : Option Move :=
  if isProbe act then some .up else if isResponse act then some .down else none

def outstandingAfter (height : Int) (act : Act) : Int :=
  if resets act then 0 else (moveOf act).elim height (move height)

def outstanding (acts : List Act) : Int := acts.foldl outstandingAfter 0

def tallyAfter (count : Int) : Act → Int
  | .handled request => if request.response then count + 1 else count
  | .counted => 0
  | _ => count

def tally (acts : List Act) : Int := acts.foldl tallyAfter 0

theorem vendor_not_response {request : Request} (vendor : request.type = .vendor) :
    request.response = false := by
  simp [Request.response, vendor]

theorem outstanding_append (acts : List Act) (act : Act) :
    outstanding (acts ++ [act]) = outstandingAfter (outstanding acts) act := by
  rw [outstanding, List.foldl_append, List.foldl_cons, List.foldl_nil, outstanding]

theorem tally_append (acts : List Act) (act : Act) :
    tally (acts ++ [act]) = tallyAfter (tally acts) act := by
  rw [tally, List.foldl_append, List.foldl_cons, List.foldl_nil, tally]

structure Accounted (mode : TestMode) (fs : Fakeswitch) (acts : List Act) : Prop where
  probeState : fs.probeState = outstanding acts
  count : fs.count = tally acts
  nonneg : 0 ≤ fs.probeState
  mode : fs.mode = mode

theorem Accounted.frame {mode : TestMode} {fs next : Fakeswitch} {acts : List Act} {act : Act}
    (accounted : Accounted mode fs acts)
    (outstands : ∀ height, outstandingAfter height act = height)
    (tallies : ∀ count, tallyAfter count act = count) (probeState : next.probeState = fs.probeState)
    (count : next.count = fs.count) (sameMode : next.mode = fs.mode) :
    Accounted mode next (acts ++ [act]) := by
  constructor
  · rw [outstanding_append, outstands, probeState, accounted.probeState]
  · rw [tally_append, tallies, count, accounted.count]
  · exact probeState ▸ accounted.nonneg
  · exact sameMode.trans accounted.mode

theorem Accounted.serve {mode : TestMode} {fs next : Fakeswitch} {acts : List Act}
    {request : Request} (accounted : Accounted mode fs acts) (served : Served fs request next) :
    Accounted mode next (acts ++ [.handled request]) := by
  have nonneg := accounted.nonneg
  have outstands : next.probeState = outstandingAfter fs.probeState (.handled request) := by
    rw [served.probeState]
    unfold outstandingAfter resets moveOf
    by_cases vendor : request.type = .vendor
    · simp [vendor, vendor_not_response vendor]
    · by_cases response : request.response = true
      · simp [vendor, response, isProbe, isResponse, move]
      · simpa [vendor, response, isProbe, isResponse] using nonneg
  constructor
  · rw [outstanding_append, ← accounted.probeState, outstands]
  · rw [tally_append, ← accounted.count, served.count]
    rfl
  · exact served.probeState ▸ le_max_right _ _
  · exact served.mode.trans accounted.mode

theorem Accounted.probe {mode : TestMode} {fs next : Fakeswitch} {acts : List Act}
    (accounted : Accounted mode fs acts) (queued : queueProbe fs = some next) :
    Accounted mode next (acts ++ [.probe (makePacketIn fs.id 0 fs.currentMacAddress)]) := by
  rw [queueProbe_eq queued]
  constructor
  · rw [outstanding_append, ← accounted.probeState]
    rfl
  · rw [tally_append, ← accounted.count]
    rfl
  · exact Int.le_add_one accounted.nonneg
  · exact accounted.mode

theorem sendCount_latency {fs : Fakeswitch} {n : Nat} (latency : fs.mode = .latency)
    (due : sendCount fs = some n) : n = 0 ∨ n = 1 ∧ fs.probeState = 0 := by
  unfold sendCount at due
  simp only [latency, true_and] at due
  split_ifs at due with idle throughput
  · exact Or.inr ⟨(Option.some.inj due).symm, idle⟩
  · exact absurd throughput.1 (by decide)
  · exact Or.inl (Option.some.inj due).symm

theorem queueProbes_latency {fs next : Fakeswitch} {n : Nat} (latency : fs.mode = .latency)
    (single : fs.probeState ≤ 1) (due : sendCount fs = some n)
    (queued : queueProbes n fs = some next) : next.probeState ≤ 1 := by
  rcases sendCount_latency latency due with rfl | ⟨rfl, idle⟩
  · cases queued
    exact single
  · obtain ⟨mid, one, rest⟩ := Option.bind_eq_some_iff.mp queued
    cases rest
    rw [queueProbe_eq one]
    exact idle.symm ▸ le_refl 1

theorem accounted_keeps (mode : TestMode) :
    Keeps (fun fs acts => Accounted mode fs acts ∧ (mode = .latency → fs.probeState ≤ 1)) where
  inbuf := by
    rintro fs acts inbuf ⟨accounted, single⟩
    exact ⟨⟨accounted.probeState, accounted.count, accounted.nonneg, accounted.mode⟩, single⟩
  served := by
    rintro fs acts request next ⟨accounted, single⟩ served
    refine ⟨accounted.serve served, fun latency => ?_⟩
    have bound := single latency
    rw [served.probeState]
    apply max_le _ zero_le_one
    split_ifs <;> omega
  queued := by
    rintro fs acts n next ⟨accounted, single⟩ _ due queued
    refine ⟨queueProbes_acts (Accounted mode) Accounted.probe accounted queued, fun latency => ?_⟩
    exact queueProbes_latency (accounted.mode.trans latency) (single latency) due queued
  started := by
    rintro fs acts now ⟨accounted, single⟩ _ _
    exact ⟨accounted.frame (fun _ => rfl) (fun _ => rfl) rfl rfl rfl, single⟩
  flushed := by
    rintro fs acts sent outbuf ⟨accounted, single⟩ _
    exact ⟨accounted.frame (fun _ => rfl) (fun _ => rfl) rfl rfl rfl, single⟩
  counted := by
    rintro fs acts ⟨accounted, single⟩
    refine ⟨⟨?_, ?_, le_refl 0, accounted.mode⟩, fun _ => zero_le_one⟩
    · rw [outstanding_append]
      rfl
    · rw [tally_append]
      rfl

/-- The part of a log since the last reset of `probe_state`. -/
structure SinceReset (before stretch : List Act) : Prop where
  start : before = [] ∨ ∃ earlier reset, before = earlier ++ [reset] ∧ resets reset = true
  unbroken : ∀ act ∈ stretch, resets act = false

theorem outstanding_reset {before stretch : List Act} (since : SinceReset before stretch) :
    outstanding before = 0 := by
  rcases since.start with rfl | ⟨earlier, reset, rfl, isReset⟩
  · rfl
  · rw [outstanding_append, outstandingAfter, if_pos isReset]

/-- Since the last reset the outstanding probes are a reflected walk. -/
theorem outstanding_stretch {before stretch : List Act} (since : SinceReset before stretch) :
    outstanding (before ++ stretch) = walk (stretch.filterMap moveOf) := by
  have unbroken := since.unbroken
  induction stretch using List.reverseRecOn with
  | nil =>
    rw [List.append_nil]
    exact outstanding_reset since
  | append_singleton stretch last ih =>
    have earlier := ih ⟨since.start, fun act member => unbroken act (List.mem_append_left _ member)⟩
      (fun act member => unbroken act (List.mem_append_left _ member))
    have free := unbroken last (List.mem_append_right _ (List.mem_singleton.mpr rfl))
    rw [← List.append_assoc, outstanding_append, earlier, outstandingAfter, if_neg (by simp [free]),
      List.filterMap_append, List.filterMap_cons]
    cases moveOf last with
    | none => rw [List.filterMap_nil, List.append_nil, Option.elim_none]
    | some step => rw [List.filterMap_nil, walk_append, Option.elim_some]

theorem count_moves (acts : List Act) (which : Move) (isMove : Act → Bool)
    (same : ∀ act, moveOf act = some which ↔ isMove act = true) :
    (acts.filterMap moveOf).count which = acts.countP isMove := by
  rw [List.count, List.countP_filterMap]
  apply List.countP_congr
  intro act _
  rw [← same act]
  cases moveOf act with
  | none => simp
  | some step => simp

theorem count_up (acts : List Act) : (acts.filterMap moveOf).count .up = probesQueued acts := by
  apply count_moves
  intro act
  unfold moveOf
  split_ifs <;> simp_all

theorem count_down (acts : List Act) :
    (acts.filterMap moveOf).count .down = responsesHandled acts := by
  apply count_moves
  intro act
  cases act with
  | handled request =>
    unfold moveOf isProbe isResponse
    cases request.response <;> simp
  | _ => simp [moveOf, isProbe, isResponse]

/-- Nothing but `fakeswitch_get_count` takes back a counted response. -/
theorem tally_stretch {before stretch : List Act} (since : SinceReset before stretch) :
    tally (before ++ stretch) = tally before + responsesHandled stretch := by
  have unbroken := since.unbroken
  induction stretch using List.reverseRecOn with
  | nil => simp [responsesHandled]
  | append_singleton stretch last ih =>
    have earlier := ih ⟨since.start, fun act member => unbroken act (List.mem_append_left _ member)⟩
      (fun act member => unbroken act (List.mem_append_left _ member))
    have free := unbroken last (List.mem_append_right _ (List.mem_singleton.mpr rfl))
    rw [← List.append_assoc, tally_append, earlier, responsesHandled, responsesHandled,
      List.countP_append, List.countP_singleton]
    cases last with
    | handled request =>
      change (if request.response then _ else _) = tally before +
        ((_ + if request.response then 1 else 0 : Nat) : Int)
      cases request.response with
      | true => exact add_assoc _ _ _
      | false => rfl
    | counted => cases free
    | probe message => simp [tallyAfter, isResponse]
    | started now => simp [tallyAfter, isResponse]
    | sent bytes => simp [tallyAfter, isResponse]

theorem length_probes (acts : List Act) :
    (acts.filterMap probeOf).length = probesQueued acts := by
  rw [List.length_filterMap_eq_countP]
  apply List.countP_congr
  intro act _
  cases act <;> simp [probeOf, isProbe]

/-- After every handler, in every stretch since a reset: the outstanding probes lie between the
surplus of probes over responses and the number of probes, they are that surplus if responses
never ran ahead, every response is counted, and a latency test has one probe out at most. The
probes are the packets among the messages put out in the stretch, and the responses are among the
messages of the stream that was read. -/
theorem probe_accounting (id : Int) (bufsize : Nat) (positive : 0 < bufsize) (delay : Int)
    (mode : TestMode) (totalMacAddresses : Int) (delayStart : Timeval) (buffer : Nat → UInt8)
    (clock : Nat → Timeval) {events : List Event} {final : Timed} {log : List (List Act)}
    (ran : run step
      ⟨fakeswitchInit id bufsize positive delay mode totalMacAddresses delayStart buffer, clock⟩
      events = some (final, log))
    {before stretch : List Act} (split : log.flatten = before ++ stretch)
    (since : SinceReset before stretch) :
    max 0 ((probesQueued stretch : Int) - responsesHandled stretch) ≤ final.fs.probeState ∧
      final.fs.probeState ≤ probesQueued stretch ∧
      ((∀ early, early <+: stretch → responsesHandled early ≤ probesQueued early) →
        final.fs.probeState = probesQueued stretch - responsesHandled stretch) ∧
      final.fs.count = tally before + responsesHandled stretch ∧
      (mode = .latency → (final.fs.probeState = 0 ∨ final.fs.probeState = 1) ∧
        probesQueued stretch ≤ responsesHandled stretch + 1) ∧
      delivered log.flatten ++ buffered final.fs.outbuf =
        (spoken id before ++ stretch.flatMap (said id)).flatten ∧
      (stretch.flatMap (said id)).countP isPacketIn = probesQueued stretch ∧
      HearsStream
        ⟨fakeswitchInit id bufsize positive delay mode totalMacAddresses delayStart buffer, clock⟩
        events log := by
  obtain ⟨accounted, single⟩ :=
    (accounted_keeps mode).run ⟨⟨rfl, rfl, le_refl 0, rfl⟩, fun _ => zero_le_one⟩ ran
  have walked : final.fs.probeState = walk (stretch.filterMap moveOf) := by
    rw [accounted.probeState, split, outstanding_stretch since]
  have surplus : ∀ acts : List Act, balance (acts.filterMap moveOf) =
      probesQueued acts - responsesHandled acts := by
    intro acts
    rw [balance, count_up, count_down]
  have low := balance_le_walk (stretch.filterMap moveOf)
  have nonneg := walk_nonneg (stretch.filterMap moveOf)
  rw [surplus, ← walked] at low
  rw [← walked] at nonneg
  have speaking := (speaking_keeps id).run (init_speaking ..) ran
  refine ⟨max_le nonneg low, ?_, ?_, ?_, ?_, ?_, ?_, ?_⟩
  · rw [walked, ← count_up]
    exact walk_le_ups _
  · intro behind
    rw [walked, ← surplus]
    apply walk_eq_balance
    intro early inside
    obtain ⟨acts, shorter, rfl⟩ := List.prefix_filterMap_iff.mp inside
    rw [surplus]
    exact sub_nonneg.mpr (Nat.cast_le.mpr (behind acts shorter))
  · rw [accounted.count, split, tally_stretch since]
  · intro latency
    have bound := single latency
    omega
  · rw [speaking.output, split, spoken, List.flatMap_append]
    rfl
  · rw [List.countP_eq_length_filter, ← length_probes]
    refine congrArg List.length (speaking.filter_packets fun act member => ?_)
    rw [split]
    exact List.mem_append_right _ member
  · exact run_hearsStream (msgbufNew_inBounds bufsize positive buffer).compact ran

/-- A features request, the probe it allows, and the answer to the probe. -/
theorem probe_accounting_answered :
    let start : Timed :=
      ⟨fakeswitchInit 1 16 (by decide) 0 .latency 1 ⟨0, 0⟩ (fun _ => 0), fun _ => ⟨0, 0⟩⟩
    let events : List Event := [.read 2 (.data [1, 5, 0, 8, 0, 0, 0, 7]), .write 1000,
      .read 2 (.data [1, 13, 0, 8, 0, 0, 0, 0])]
    ∃ final log, run step start events = some (final, log) ∧ SinceReset [] log.flatten ∧
      max 0 ((probesQueued log.flatten : Int) - responsesHandled log.flatten) ≤
        final.fs.probeState ∧
      final.fs.probeState ≤ probesQueued log.flatten ∧
      ((∀ early, early <+: log.flatten → responsesHandled early ≤ probesQueued early) →
        final.fs.probeState = probesQueued log.flatten - responsesHandled log.flatten) ∧
      final.fs.count = tally [] + responsesHandled log.flatten ∧
      (TestMode.latency = .latency → (final.fs.probeState = 0 ∨ final.fs.probeState = 1) ∧
        probesQueued log.flatten ≤ responsesHandled log.flatten + 1) ∧
      delivered log.flatten ++ buffered final.fs.outbuf =
        (spoken 1 [] ++ log.flatten.flatMap (said 1)).flatten ∧
      (log.flatten.flatMap (said 1)).countP isPacketIn = probesQueued log.flatten ∧
      HearsStream start events log := by
  intro start events
  have unbroken : (run step start events).any
      (fun result => result.2.flatten.all (fun act => !resets act)) := by decide +kernel
  obtain ⟨⟨final, log⟩, ran⟩ : ∃ result, run step start events = some result :=
    Option.isSome_iff_exists.mp (Option.isSome_of_any unbroken)
  rw [ran, Option.any_some, List.all_eq_true] at unbroken
  have since : SinceReset [] log.flatten := by
    refine ⟨Or.inl rfl, fun act member => ?_⟩
    simpa using unbroken act member
  exact ⟨final, log, ran, since, probe_accounting _ _ _ _ _ _ _ _ _ ran rfl since⟩

end Oflops.Cbench.Probes
