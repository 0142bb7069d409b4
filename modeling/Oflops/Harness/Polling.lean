import Oflops.Lib.Machine

/-! Capturing packets: `setup_channel` (`channel_info.c`) opens captures for the channels of a test,
`test_module_loop` (`module_run.c`) polls them, and `process_event` and `process_pcap_event` hand
what is read to the module. The captures of earlier tests are never closed. -/

namespace Oflops.Harness.Polling
open Lib.Machine

inductive CapType where
  | pcap
  | nf2
  deriving DecidableEq, Repr

/-- The fields of `channel_info` that capture packets; a handle is a flag for a pointer that is
not `NULL`. -/
structure Channel where
  capType : CapType
  pcapHandle : Bool
  nfCap : Bool
  pcapFd : Int
  deriving DecidableEq, Repr

/-- `channel_info_init`, with the type that the configuration file gives. -/
def channelInfoInit (capType : CapType) : Channel := ⟨capType, false, false, -1⟩

/-- The part of `setup_channel` after the module was asked for a filter; `fd` is the descriptor of
the capture that is opened. Without a filter the old descriptor stays, and so does `nf_cap`. -/
def setupChannel (ch : Nat) (filter : Bool) (fd : Int) (info : Channel) : Channel :=
  if filter = false ∧ ch ≠ 0 then { info with pcapHandle := false }
  else if ch = 0 ∨ info.capType = .pcap then { info with pcapHandle := true, pcapFd := fd }
  else { info with nfCap := true, pcapFd := fd }

def Channel.polled (info : Channel) : Bool := info.pcapHandle || info.nfCap

def pollSet (channels : List Channel) : List (Nat × Int) :=
  (channels.zipIdx.filter fun entry => entry.1.polled).map fun entry => (entry.2, entry.1.pcapFd)

def channelOf (channels : List Channel) (fd : Int) : Option Nat := channels.findIdx? (·.pcapFd = fd)

/-- What the static `pe` of `process_pcap_event` points to. -/
inductive Static where
  | null
  | allocated
  | freed
  deriving DecidableEq, Repr

/-- `halted` after an abort, a failed assertion or a memory error; `opened` are the descriptors
in use. -/
structure State where
  channels : List Channel
  started : Bool
  pe : Static
  opened : List Int
  halted : Bool

def start (capTypes : List CapType) : State where
  channels := (.pcap :: capTypes).map channelInfoInit
  started := false
  pe := .null
  opened := []
  halted := false

/-- `packet` is the captured length of the packet that `pcap_next_ex` or `nf_cap_next` finds,
if any. -/
inductive Event where
  | setup (ch : Nat) (filter : Bool) (fd : Int)
  | begin
  | reset
  | ready (slot : Nat) (packet : Option Nat)

/-- What happens to a ready descriptor: the channel it was taken from, the one that `process_event`
takes it for, and what became of the packet. -/
inductive Entry where
  | read (own ch : Nat) (capType : CapType) (packet : Option Nat) (delivered : Bool)
  | unknownFd (own : Nat)
  | assertFailed (own : Nat)
  | useAfterFree (own ch : Nat) (packet : Option Nat)
  | overflow (own ch : Nat) (caplen : Nat)

def dataSize : Nat := 2000

def processPcapEvent (s : State) (own ch : Nat) (info : Channel) (packet : Option Nat) :
    State × Entry :=
  match info.capType with
  | .pcap =>
    if info.pcapHandle then (s, .read own ch .pcap packet (packet.isSome && s.started))
    else ({ s with halted := true }, .assertFailed own)
  | .nf2 =>
    if s.pe = .freed then ({ s with halted := true }, .useAfterFree own ch packet)
    else
      match packet with
      | none => ({ s with pe := .allocated }, .read own ch .nf2 none false)
      | some caplen =>
        if caplen > dataSize then ({ s with halted := true }, .overflow own ch caplen)
        -- both blocks are freed, the pointer is kept
        else ({ s with pe := .freed }, .read own ch .nf2 (some caplen) s.started)

def processEvent (s : State) (own : Nat) (fd : Int) (packet : Option Nat) : State × Entry :=
  match channelOf s.channels fd with
  | none => ({ s with halted := true }, .unknownFd own)
  | some ch =>
    match s.channels[ch]? with
    | none => ({ s with halted := true }, .unknownFd own)
    | some info => processPcapEvent s own ch info packet

/-- A new descriptor is one that is not in use. -/
def step (s : State) : Event → Option (State × Option Entry)
  | .setup ch filter fd =>
    if s.halted = false ∧ ch < s.channels.length ∧ 0 ≤ fd ∧ fd ∉ s.opened then
      some ({ s with
        channels := s.channels.modify ch (setupChannel ch filter fd)
        opened := fd :: s.opened }, none)
    else none
  | .begin => if s.halted = false then some ({ s with started := true }, none) else none
  | .reset => if s.halted = false then some ({ s with started := false }, none) else none
  | .ready slot packet =>
    if s.halted = false then
      (pollSet s.channels)[slot]?.map fun (own, fd) =>
        let (next, entry) := processEvent s own fd packet
        (next, some entry)
    else none

/-! Which channel a descriptor belongs to. -/

/-- Descriptors tell channels apart, and handles fit the types of their channels. -/
structure Sound (s : State) : Prop where
  distinct : ∀ {i j : Nat} {c d : Channel}, s.channels[i]? = some c → s.channels[j]? = some d →
    c.pcapFd = d.pcapFd → 0 ≤ c.pcapFd → i = j
  opened : ∀ {i : Nat} {c : Channel}, s.channels[i]? = some c → 0 ≤ c.pcapFd → c.pcapFd ∈ s.opened
  valid : ∀ {i : Nat} {c : Channel}, s.channels[i]? = some c → c.polled = true → 0 ≤ c.pcapFd
  typed : ∀ {i : Nat} {c : Channel}, s.channels[i]? = some c → c.nfCap = true → c.capType = .nf2
  control : ∀ {c : Channel}, s.channels[0]? = some c → c.capType = .pcap

theorem start_sound (capTypes : List CapType) : Sound (start capTypes) := by
  have fresh : ∀ {i : Nat} {c : Channel}, (start capTypes).channels[i]? = some c →
      ∃ capType, c = channelInfoInit capType := by
    intro i c there
    obtain ⟨capType, -, rfl⟩ := List.mem_map.mp (List.mem_of_getElem? there)
    exact ⟨capType, rfl⟩
  constructor
  · intro i j c d first second same nonneg
    obtain ⟨capType, rfl⟩ := fresh first
    exact absurd nonneg (by simp [channelInfoInit])
  · intro i c there nonneg
    obtain ⟨capType, rfl⟩ := fresh there
    exact absurd nonneg (by simp [channelInfoInit])
  · intro i c there polled
    obtain ⟨capType, rfl⟩ := fresh there
    exact absurd polled (by simp [channelInfoInit, Channel.polled])
  · intro i c there captured
    obtain ⟨capType, rfl⟩ := fresh there
    exact absurd captured (by simp [channelInfoInit])
  · intro c there
    cases there
    rfl

theorem setupChannel_cases (ch : Nat) (filter : Bool) (fd : Int) (info : Channel) :
    (setupChannel ch filter fd info).capType = info.capType ∧
      ((setupChannel ch filter fd info).pcapFd = fd ∨
        setupChannel ch filter fd info = { info with pcapHandle := false }) := by
  unfold setupChannel
  split_ifs
  · exact ⟨rfl, Or.inr rfl⟩
  · exact ⟨rfl, Or.inl rfl⟩
  · exact ⟨rfl, Or.inl rfl⟩

theorem getElem?_setup {channels : List Channel} {ch i : Nat} {filter : Bool} {fd : Int}
    {c : Channel} (there : (channels.modify ch (setupChannel ch filter fd))[i]? = some c) :
    ∃ old, channels[i]? = some old ∧ c = if ch = i then setupChannel ch filter fd old else old := by
  rw [List.getElem?_modify] at there
  obtain ⟨old, before, rfl⟩ := Option.map_eq_some_iff.mp there
  exact ⟨old, before, by split_ifs <;> rfl⟩

theorem Sound.setup {s : State} (sound : Sound s) (ch : Nat) (filter : Bool) {fd : Int}
    (nonneg : 0 ≤ fd) (fresh : fd ∉ s.opened) :
    Sound { s with
      channels := s.channels.modify ch (setupChannel ch filter fd)
      opened := fd :: s.opened } := by
  -- a descriptor is the old one of the same channel, or the new one
  have either : ∀ {i : Nat} {c : Channel},
      (s.channels.modify ch (setupChannel ch filter fd))[i]? = some c →
      ∃ old, s.channels[i]? = some old ∧ c.capType = old.capType ∧
        (c.pcapFd = old.pcapFd ∨ i = ch ∧ c.pcapFd = fd) := by
    intro i c there
    obtain ⟨old, before, rfl⟩ := getElem?_setup there
    refine ⟨old, before, ?_⟩
    split_ifs with same
    · obtain ⟨type, fds | kept⟩ := setupChannel_cases ch filter fd old
      · exact ⟨type, Or.inr ⟨same.symm, fds⟩⟩
      · exact ⟨type, Or.inl (by rw [kept])⟩
    · exact ⟨rfl, Or.inl rfl⟩
  constructor
  · intro i j c d first second same nonneg'
    obtain ⟨c', before, -, fds⟩ := either first
    obtain ⟨d', before', -, fds'⟩ := either second
    rcases fds with fds | ⟨here, fds⟩ <;> rcases fds' with fds' | ⟨here', fds'⟩
    · exact sound.distinct before before' (fds ▸ fds' ▸ same) (fds ▸ nonneg')
    · exact absurd (sound.opened before (fds ▸ nonneg')) (by rwa [← fds, same, fds'])
    · exact absurd (sound.opened before' (by rw [← fds', ← same]; exact nonneg'))
        (by rwa [← fds', ← same, fds])
    · rw [here, here']
  · intro i c there nonneg'
    obtain ⟨old, before, -, fds | ⟨-, fds⟩⟩ := either there
    · rw [fds] at nonneg' ⊢
      exact List.mem_cons_of_mem _ (sound.opened before nonneg')
    · rw [fds]
      exact List.mem_cons_self
  · intro i c there polled
    obtain ⟨old, before, rfl⟩ := getElem?_setup there
    split_ifs at polled ⊢ with same
    · rcases (setupChannel_cases ch filter fd old).2 with fds | kept
      · rw [fds]
        exact nonneg
      · rw [kept] at polled ⊢
        have captured : old.nfCap = true := by simpa [Channel.polled] using polled
        change 0 ≤ old.pcapFd
        exact sound.valid before (by rw [Channel.polled, captured, Bool.or_true])
    · exact sound.valid before polled
  · intro i c there captured
    obtain ⟨old, before, rfl⟩ := getElem?_setup there
    split_ifs at captured ⊢ with same
    · rw [(setupChannel_cases ch filter fd old).1]
      unfold setupChannel at captured
      split_ifs at captured with none' pcap
      · exact sound.typed before captured
      · exact sound.typed before captured
      · cases type : old.capType with
        | pcap => exact absurd (Or.inr type) pcap
        | nf2 => rfl
    · exact sound.typed before captured
  · intro c there
    obtain ⟨old, before, type, -⟩ := either there
    rw [type]
    exact sound.control before

theorem mem_pollSet {channels : List Channel} {own : Nat} {fd : Int}
    (member : (own, fd) ∈ pollSet channels) :
    ∃ info, channels[own]? = some info ∧ info.polled = true ∧ info.pcapFd = fd := by
  obtain ⟨⟨info, i⟩, inside, same⟩ := List.mem_map.mp member
  obtain ⟨there, polled⟩ := List.mem_filter.mp inside
  cases same
  exact ⟨info, List.mem_zipIdx_iff_getElem?.mp there, polled, rfl⟩

theorem Sound.channelOf {s : State} (sound : Sound s) {own : Nat} {info : Channel}
    (there : s.channels[own]? = some info) (polled : info.polled = true) :
    channelOf s.channels info.pcapFd = some own := by
  obtain ⟨inside, here⟩ := List.getElem?_eq_some_iff.mp there
  rw [Polling.channelOf, List.findIdx?_eq_some_iff_getElem]
  refine ⟨inside, decide_eq_true (by rw [here]), ?_⟩
  intro j before same
  have first := List.getElem?_eq_getElem (Nat.lt_trans before inside)
  have equal := sound.distinct there first (of_decide_eq_true same).symm (sound.valid there polled)
  omega

theorem Sound.processEvent {s : State} (sound : Sound s) {own : Nat} {fd : Int}
    (member : (own, fd) ∈ pollSet s.channels) (packet : Option Nat) :
    ∃ info, s.channels[own]? = some info ∧ info.polled = true ∧
      processEvent s own fd packet = processPcapEvent s own own info packet := by
  obtain ⟨info, there, polled, rfl⟩ := mem_pollSet member
  refine ⟨info, there, polled, ?_⟩
  rw [Polling.processEvent, sound.channelOf there polled]
  dsimp only
  rw [there]

def Entry.Directed : Entry → Prop
  | .read own ch _ _ _ => ch = own
  | .useAfterFree own ch _ => ch = own
  | .overflow own ch _ => ch = own
  | .unknownFd _ => False
  | .assertFailed _ => False

/-- What `process_pcap_event` does to a polled channel: it reads from pcap, or reads from the card
with the static block in the state that earlier packets left it in. -/
theorem Sound.processPcapEvent_cases {s : State} (sound : Sound s) {own : Nat} {info : Channel}
    (there : s.channels[own]? = some info) (polled : info.polled = true) (packet : Option Nat) :
    (∃ delivered, processPcapEvent s own own info packet =
      (s, .read own own .pcap packet delivered)) ∨
      (s.pe = .freed ∧
        processPcapEvent s own own info packet = ({ s with halted := true },
          .useAfterFree own own packet)) ∨
      (s.pe ≠ .freed ∧ packet = none ∧
        processPcapEvent s own own info packet = ({ s with pe := .allocated },
          .read own own .nf2 none false)) ∨
      ∃ caplen, s.pe ≠ .freed ∧ packet = some caplen ∧
        (dataSize < caplen ∧
            processPcapEvent s own own info packet = ({ s with halted := true },
              .overflow own own caplen) ∨
          caplen ≤ dataSize ∧ processPcapEvent s own own info packet =
            ({ s with pe := .freed }, .read own own .nf2 (some caplen) s.started)) := by
  unfold processPcapEvent
  cases type : info.capType with
  | pcap =>
    have handle : info.pcapHandle = true := by
      rcases Bool.or_eq_true _ _ ▸ polled with handle | captured
      · exact handle
      · exact absurd (sound.typed there captured) (by rw [type]; decide)
    exact Or.inl ⟨_, if_pos handle⟩
  | nf2 =>
    right
    by_cases gone : s.pe = .freed
    · exact Or.inl ⟨gone, if_pos gone⟩
    · right
      cases packet with
      | none => exact Or.inl ⟨gone, rfl, if_neg gone⟩
      | some caplen =>
        refine Or.inr ⟨caplen, gone, rfl, ?_⟩
        by_cases long : dataSize < caplen
        · exact Or.inl ⟨long, by dsimp only; rw [if_neg gone, if_pos long]⟩
        · exact Or.inr ⟨Nat.not_lt.mp long, by dsimp only; rw [if_neg gone, if_neg long]⟩

theorem step_cases {s next : State} {event : Event} {output : Option Entry}
    (stepped : step s event = some (next, output)) :
    (∃ ch filter fd, event = .setup ch filter fd ∧ ch < s.channels.length ∧ 0 ≤ fd ∧ fd ∉ s.opened ∧
        next = { s with
          channels := s.channels.modify ch (setupChannel ch filter fd)
          opened := fd :: s.opened } ∧
        output = none) ∨
      ((event = .begin ∨ event = .reset) ∧ output = none ∧ ∃ started, next = { s with started }) ∨
      ∃ slot packet own fd, event = .ready slot packet ∧ s.halted = false ∧
      (own, fd) ∈ pollSet s.channels ∧
        (next, output) = ((processEvent s own fd packet).1,
          some (processEvent s own fd packet).2) := by
  cases event with
  | setup ch filter fd =>
    obtain ⟨⟨-, inside, nonneg, fresh⟩, stepped⟩ := Option.ite_none_right_eq_some.mp stepped
    cases stepped
    exact Or.inl ⟨ch, filter, fd, rfl, inside, nonneg, fresh, rfl, rfl⟩
  | begin =>
    obtain ⟨-, stepped⟩ := Option.ite_none_right_eq_some.mp stepped
    cases stepped
    exact Or.inr (Or.inl ⟨Or.inl rfl, rfl, true, rfl⟩)
  | reset =>
    obtain ⟨-, stepped⟩ := Option.ite_none_right_eq_some.mp stepped
    cases stepped
    exact Or.inr (Or.inl ⟨Or.inr rfl, rfl, false, rfl⟩)
  | ready slot packet =>
    obtain ⟨running, stepped⟩ := Option.ite_none_right_eq_some.mp stepped
    obtain ⟨⟨own, fd⟩, there, same⟩ := Option.map_eq_some_iff.mp stepped
    exact Or.inr (Or.inr ⟨slot, packet, own, fd, rfl, running,
      List.mem_of_getElem? there, same.symm⟩)

theorem Sound.frame {s next : State} (sound : Sound s) (channels : next.channels = s.channels)
    (opened : next.opened = s.opened) : Sound next := by
  constructor
  · rw [channels]
    exact sound.distinct
  · rw [channels, opened]
    exact sound.opened
  · rw [channels]
    exact sound.valid
  · rw [channels]
    exact sound.typed
  · rw [channels]
    exact sound.control

theorem Sound.step {s next : State} {event : Event} {output : Option Entry} (sound : Sound s)
    (stepped : step s event = some (next, output)) :
    Sound next ∧ ∀ entry ∈ output, entry.Directed := by
  rcases step_cases stepped with ⟨ch, filter, fd, -, -, nonneg, fresh, rfl, rfl⟩ |
    ⟨-, rfl, started, rfl⟩ |
    ⟨slot, packet, own, fd, -, -, member, same⟩
  · exact ⟨sound.setup ch filter nonneg fresh, fun entry none' => by cases none'⟩
  · exact ⟨sound.frame rfl rfl, fun entry none' => by cases none'⟩
  · obtain ⟨info, there, polled, processed⟩ := sound.processEvent member packet
    rw [processed] at same
    rcases sound.processPcapEvent_cases there polled packet with
      ⟨_, result⟩ | ⟨-, result⟩ | ⟨-, -, result⟩ | ⟨_, -, -, ⟨-, result⟩ | ⟨-, result⟩⟩
    all_goals
      rw [result] at same
      obtain ⟨rfl, rfl⟩ := Prod.mk.inj same
      exact ⟨sound.frame rfl rfl, fun entry here => by cases here; rfl⟩

/-- Through any number of tests, with captures of earlier tests still open: `process_event` takes
every ready descriptor for the channel that it was polled for, knows every descriptor, and finds
its handle. -/
theorem events_reach_own_channel {capTypes : List CapType} {events : List Event} {final : State}
    {log : List Entry} (ran : run step (start capTypes) events = some (final, log)) :
    ∀ entry ∈ log, entry.Directed := by
  have there : Sound final ∧ ∀ entry ∈ [] ++ log, entry.Directed := run_log_invariant
    (fun s past => Sound s ∧ ∀ entry ∈ past, entry.Directed)
    (fun {state past event next output} inv stepped => by
      obtain ⟨sound, directed⟩ := inv.1.step stepped
      refine ⟨sound, fun entry member => ?_⟩
      rcases List.mem_append.mp member with old | new
      · exact inv.2 entry old
      · exact directed entry (Option.mem_toList.mp new))
    ⟨start_sound capTypes, fun entry none' => by cases none'⟩ ran
  exact there.2

/-- Two tests: the second one gives up the first channel and captures on the other. -/
theorem events_reach_own_channel_stale :
    ∃ final log, run step (start [.pcap, .pcap]) [.setup 0 true 3, .setup 1 true 4,
      .setup 2 false 9, .begin,
        .ready 1 (some 60), .reset, .setup 0 false 5, .setup 1 false 10, .setup 2 true 6, .begin,
        .ready 1 (some 60)] =
          some (final, log) ∧
      log.length = 2 ∧ ∀ entry ∈ log, entry.Directed := by
  obtain ⟨final, log, ran, two⟩ : ∃ final log, run step (start [.pcap, .pcap]) [.setup 0 true 3,
    .setup 1 true 4,
      .setup 2 false 9, .begin, .ready 1 (some 60), .reset, .setup 0 false 5, .setup 1 false 10,
      .setup 2 true 6, .begin, .ready 1 (some 60)] = some (final, log) ∧
      log.length = 2 := ⟨_, _, rfl, rfl⟩
  exact ⟨final, log, ran, two, events_reach_own_channel ran⟩

/-! The static block of `process_pcap_event`. -/

/-- The packets asked for from the card: their captured lengths, or nothing. -/
def Entry.nf2Read : Entry → Option (Option Nat)
  | .read _ _ .nf2 packet _ => some packet
  | .useAfterFree _ _ packet => some packet
  | .overflow _ _ caplen => some (some caplen)
  | _ => none

def nf2Reads (log : List Entry) : List (Option Nat) := log.filterMap Entry.nf2Read

def Entry.Intact : Entry → Prop
  | .useAfterFree _ _ _ => False
  | .overflow _ _ _ => False
  | _ => True

/-- Nothing is asked for after the first packet, and that one fits. -/
def OnePacket (reads : List (Option Nat)) : Prop :=
  ∀ before caplen after, reads = before ++ some caplen :: after → after = [] ∧ caplen ≤ dataSize

structure Block (s : State) (past : List Entry) : Prop where
  sound : Sound s
  running : s.halted = false → ∀ entry ∈ past, entry.Intact
  empty : s.halted = false → s.pe ≠ .freed → ∀ read ∈ nf2Reads past, read = none
  one : s.halted = false → s.pe = .freed → ∃ before caplen,
    nf2Reads past = before ++ [some caplen] ∧
    (∀ read ∈ before, read = none) ∧ caplen ≤ dataSize
  halted : s.halted = true → ¬(∀ entry ∈ past, entry.Intact) ∧ ¬OnePacket (nf2Reads past)

theorem nf2Reads_append (before after : List Entry) :
    nf2Reads (before ++ after) = nf2Reads before ++ nf2Reads after := List.filterMap_append

theorem forall_concat {p : Entry → Prop} {past : List Entry} {entry : Entry} (old : ∀ e ∈ past, p e)
    (new : p entry) : ∀ e ∈ past ++ [entry], p e := by
  intro e member
  rcases List.mem_append.mp member with before | here
  · exact old e before
  · rw [List.mem_singleton.mp here]
    exact new

theorem start_block (capTypes : List CapType) : Block (start capTypes) [] where
  sound := start_sound capTypes
  running := fun _ _ none' => by cases none'
  empty := fun _ _ _ none' => by cases none'
  one := fun _ gone => by cases gone
  halted := fun on => by cases on

theorem Block.quiet {s next : State} {past : List Entry} (output : Option Entry)
    (block : Block s past) (sound : Sound next) (halted : next.halted = s.halted)
    (pe : next.pe = s.pe) (silent : ∀ entry ∈ output, entry.nf2Read = none ∧ entry.Intact) :
    Block next (past ++ output.toList) := by
  have reads : nf2Reads (past ++ output.toList) = nf2Reads past := by
    cases output with
    | none => rw [Option.toList_none, List.append_nil]
    | some entry =>
      have none' : nf2Reads [entry] = [] := by simp [nf2Reads, (silent entry rfl).1]
      rw [Option.toList_some, nf2Reads_append, none', List.append_nil]
  have intact : (∀ entry ∈ past ++ output.toList, entry.Intact) ↔ ∀ entry ∈ past, entry.Intact := by
    constructor
    · exact fun all entry member => all entry (List.mem_append_left _ member)
    · intro all entry member
      rcases List.mem_append.mp member with old | new
      · exact all entry old
      · exact (silent entry (Option.mem_toList.mp new)).2
  refine ⟨sound, ?_, ?_, ?_, ?_⟩
  · rw [halted, intact]
    exact block.running
  · rw [halted, pe, reads]
    exact block.empty
  · rw [halted, pe, reads]
    exact block.one
  · rw [halted, reads, intact]
    exact block.halted

theorem Block.fail {s : State} {past : List Entry} {entry : Entry} (packet : Option Nat)
    (block : Block s past) (error : ¬entry.Intact) (read : entry.nf2Read = some packet)
    (many : ¬OnePacket (nf2Reads past ++ [packet])) :
    Block { s with halted := true } (past ++ [entry]) := by
  have reads : nf2Reads (past ++ [entry]) = nf2Reads past ++ [packet] := by
    rw [nf2Reads_append]
    simp [nf2Reads, read]
  have off : ({ s with halted := true } : State).halted ≠ false := Bool.noConfusion
  refine ⟨block.sound.frame rfl rfl, fun on => absurd on off, fun on => absurd on off,
    fun on => absurd on off, ?_⟩
  intro _
  refine ⟨fun all => error (all entry (List.mem_append_right _ List.mem_cons_self)), ?_⟩
  rw [reads]
  exact many

theorem Block.step {s next : State} {past : List Entry} {event : Event} {output : Option Entry}
    (block : Block s past) (stepped : step s event = some (next, output)) :
    Block next (past ++ output.toList) := by
  have sound := (block.sound.step stepped).1
  rcases step_cases stepped with ⟨ch, filter, fd, -, -, -, -, rfl, rfl⟩ | ⟨-, rfl, started, rfl⟩ |
    ⟨slot, packet, own, fd, -, on, member, same⟩
  · exact block.quiet none sound rfl rfl (fun entry none' => by cases none')
  · exact block.quiet none sound rfl rfl (fun entry none' => by cases none')
  · obtain ⟨info, there, polled, processed⟩ := block.sound.processEvent member packet
    rw [processed] at same
    rcases block.sound.processPcapEvent_cases there polled packet with
      ⟨delivered, result⟩ | ⟨gone, result⟩ | ⟨left, rfl, result⟩ |
      ⟨caplen, left, rfl, ⟨long, result⟩ | ⟨short, result⟩⟩
    all_goals
      rw [result] at same
      obtain ⟨rfl, rfl⟩ := Prod.mk.inj same
      rw [Option.toList_some]
    · exact block.quiet (some _) sound rfl rfl
        (fun entry here => by cases here; exact ⟨rfl, trivial⟩)
    · -- the block was freed after an earlier packet
      obtain ⟨before, caplen, reads, -, -⟩ := block.one on gone
      refine block.fail packet (fun intact => intact) rfl ?_
      intro one
      rw [reads, List.append_assoc] at one
      exact absurd (one before caplen [packet] rfl).1 (by simp)
    · have none' := block.empty on left
      have still : s.halted ≠ true := by simp [on]
      refine ⟨sound, fun _ => forall_concat (block.running on) trivial, ?_,
        (fun _ gone => by cases gone),
        fun off => absurd off still⟩
      intro _ _ read inside
      rw [nf2Reads_append] at inside
      rcases List.mem_append.mp inside with old | new
      · exact none' read old
      · exact List.mem_singleton.mp new
    · refine block.fail (some caplen) (fun intact => intact) rfl ?_
      intro one
      exact absurd (one (nf2Reads past) caplen [] rfl).2 (Nat.not_le.mpr long)
    · have still : s.halted ≠ true := by simp [on]
      refine ⟨sound, fun _ => forall_concat (block.running on) trivial,
        fun _ kept => absurd rfl kept, ?_,
        fun off => absurd off still⟩
      intro _ _
      refine ⟨nf2Reads past, caplen, ?_, block.empty on left, short⟩
      rw [nf2Reads_append]
      rfl

theorem onePacket_concat {before : List (Option Nat)} {caplen : Nat}
    (nothing : ∀ read ∈ before, read = none) (short : caplen ≤ dataSize) :
    OnePacket (before ++ [some caplen]) := by
  intro front other after split
  rcases concat_split split with ⟨rfl, same⟩ | ⟨rest, earlier⟩
  · obtain ⟨-, items⟩ := List.append_inj split rfl
    obtain ⟨same, rfl⟩ := List.cons.inj items
    cases same
    exact ⟨rfl, short⟩
  · have inside : some other ∈ before := earlier ▸ List.mem_append_right _ List.mem_cons_self
    exact absurd (nothing _ inside) (by simp)

theorem onePacket_of_none {reads : List (Option Nat)} (nothing : ∀ read ∈ reads, read = none) :
    OnePacket reads := by
  rintro before caplen after rfl
  exact absurd (nothing _ (List.mem_append_right _ List.mem_cons_self)) (by simp)

/-- `process_pcap_event` frees its static block after a packet of the card and keeps the pointer: a
run has no memory error exactly when, over all tests and channels, nothing is asked from the card
after its first packet, and that packet fits the block. -/
theorem captures_intact_iff {capTypes : List CapType} {events : List Event} {final : State}
    {log : List Entry} (ran : run step (start capTypes) events = some (final, log)) :
    (∀ entry ∈ log, entry.Intact) ↔ OnePacket (nf2Reads log) := by
  have block : Block final ([] ++ log) :=
    run_log_invariant Block (fun block stepped => block.step stepped) (start_block capTypes) ran
  rw [List.nil_append] at block
  cases state : final.halted with
  | true => exact iff_of_false (block.halted state).1 (block.halted state).2
  | false =>
    refine iff_of_true (block.running state) ?_
    by_cases gone : final.pe = .freed
    · obtain ⟨before, caplen, reads, nothing, short⟩ := block.one state gone
      rw [reads]
      exact onePacket_concat nothing short
    · exact onePacket_of_none (block.empty state gone)

/-- The second packet of the card is read through the freed block. -/
theorem second_packet_not_intact :
    ∃ final log, run step (start [.nf2]) [.setup 0 true 3, .setup 1 true 4, .begin,
      .ready 1 (some 112),
        .ready 1 (some 112)] = some (final, log) ∧ ¬∀ entry ∈ log, entry.Intact := by
  obtain ⟨final, log, ran, reads⟩ : ∃ final log, run step (start [.nf2]) [.setup 0 true 3,
    .setup 1 true 4, .begin,
      .ready 1 (some 112), .ready 1 (some 112)] = some (final, log) ∧ nf2Reads log =
        [some 112, some 112] :=
    ⟨_, _, rfl, rfl⟩
  refine ⟨final, log, ran, ?_⟩
  rw [captures_intact_iff ran, reads]
  intro one
  exact absurd (one [] 112 [some 112] rfl).1 (by simp)

/-! Which channels are polled. -/

def Event.asks (ch : Nat) : Event → Option Bool
  | .setup other filter _ => if other = ch then some filter else none
  | _ => none

def requests (ch : Nat) (events : List Event) : List Bool := events.filterMap (Event.asks ch)

/-- The answers that have a capture by pcap opened: any one on the control channel, which gets a
filter of its own, and otherwise the last one. -/
def Opens (ch : Nat) (answers : List Bool) : Prop :=
  if ch = 0 then answers ≠ [] else answers.getLast? = some true

theorem opens_concat (ch : Nat) (answers : List Bool) (filter : Bool) :
    Opens ch (answers ++ [filter]) ↔ ch = 0 ∨ filter = true := by
  unfold Opens
  split_ifs with control
  · exact iff_of_true (by simp) (.inl control)
  · rw [List.getLast?_concat, Option.some.injEq, or_iff_right control]

structure Answered (ch : Nat) (info : Channel) (answers : List Bool) : Prop where
  handle : info.pcapHandle = true ↔ info.capType = .pcap ∧ Opens ch answers
  card : info.nfCap = true ↔ info.capType = .nf2 ∧ true ∈ answers
  control : ch = 0 → info.capType = .pcap

theorem Answered.setup {ch : Nat} {info : Channel} {answers : List Bool}
    (answered : Answered ch info answers) (filter : Bool) (fd : Int) :
    Answered ch (setupChannel ch filter fd info) (answers ++ [filter]) := by
  have type := (setupChannel_cases ch filter fd info).1
  have some' : true ∈ answers ++ [filter] ↔ true ∈ answers ∨ filter = true := by
    rw [List.mem_append, List.mem_singleton, eq_comm (a := true)]
  refine ⟨?_, ?_, fun zero => type.trans (answered.control zero)⟩
  · rw [type, opens_concat]
    unfold setupChannel
    split_ifs with none' pcap
    · simp [none']
    · have kind : info.capType = .pcap := pcap.elim answered.control id
      have on : ch = 0 ∨ filter = true := by
        by_contra off
        rw [not_or, Bool.not_eq_true] at off
        exact none' ⟨off.2, off.1⟩
      simp [on, kind]
    · have kind : info.capType ≠ .pcap := fun same => pcap (Or.inr same)
      simp [answered.handle, kind]
  · rw [type, some']
    unfold setupChannel
    split_ifs with none' pcap
    · simp [none', answered.card]
    · have kind : info.capType = .pcap := pcap.elim answered.control id
      simp [answered.card, kind]
    · have kind : info.capType = .nf2 := by
        cases same : info.capType with
        | pcap => exact absurd (Or.inr same) pcap
        | nf2 => rfl
      have on : filter = true := by
        by_contra off
        rw [Bool.not_eq_true] at off
        exact none' ⟨off, fun zero => pcap (Or.inl zero)⟩
      simp [on, kind]

def Accounted (s : State) (past : List Event) : Prop :=
  Sound s ∧ ∀ ch info, s.channels[ch]? = some info → Answered ch info (requests ch past)

theorem requests_other {ch : Nat} {event : Event} (other : event.asks ch = none)
    (past : List Event) : requests ch (past ++ [event]) = requests ch past := by
  unfold requests
  rw [List.filterMap_append]
  simp [other]

theorem start_accounted (capTypes : List CapType) : Accounted (start capTypes) [] := by
  refine ⟨start_sound capTypes, ?_⟩
  intro ch info there
  obtain ⟨capType, -, rfl⟩ := List.mem_map.mp (List.mem_of_getElem? there)
  refine ⟨by simp [channelInfoInit, requests, Opens], by simp [channelInfoInit, requests], ?_⟩
  rintro rfl
  exact (start_sound capTypes).control there

theorem Accounted.step {s next : State} {past : List Event} {event : Event} {output : Option Entry}
    (accounted : Accounted s past) (stepped : step s event = some (next, output)) :
    Accounted next (past ++ [event]) := by
  obtain ⟨sound, answered⟩ := accounted
  refine ⟨(sound.step stepped).1, ?_⟩
  intro ch info there
  rcases step_cases stepped with ⟨other, filter, fd, rfl, -, -, -, rfl, rfl⟩ |
    ⟨flag, rfl, started, rfl⟩ |
    ⟨slot, packet, own, fd, rfl, -, member, same⟩
  · obtain ⟨old, before, rfl⟩ := getElem?_setup there
    split_ifs with here
    · subst here
      have grown : requests other (past ++ [.setup other filter fd]) =
          requests other past ++ [filter] := by
        unfold requests
        rw [List.filterMap_append]
        simp [Event.asks]
      rw [grown]
      exact (answered other old before).setup filter fd
    · have other' : (Event.setup other filter fd).asks ch = none := if_neg here
      rw [requests_other other']
      exact answered ch old before
  · rw [requests_other (by rcases flag with rfl | rfl <;> rfl)]
    exact answered ch info there
  · obtain ⟨card, there', polled, processed⟩ := sound.processEvent member packet
    have channels : next.channels = s.channels := by
      rw [processed] at same
      rcases sound.processPcapEvent_cases there' polled packet with
        ⟨_, result⟩ | ⟨-, result⟩ | ⟨-, -, result⟩ | ⟨_, -, -, ⟨-, result⟩ | ⟨-, result⟩⟩
      all_goals
        rw [result] at same
        rw [(Prod.mk.inj same).1]
    rw [requests_other rfl]
    exact answered ch info (channels ▸ there)

/-- The control channel is polled from its first setup on, whatever the modules answer. Any other
channel captured by pcap is polled exactly while the last module asked for a filter on it wants
one, and a channel of the card stays polled for good once any module, of whatever test, has asked
for it. -/
theorem polled_iff {capTypes : List CapType} {events : List Event} {final : State}
    {log : List Entry} (ran : run step (start capTypes) events = some (final, log)) {ch : Nat}
    {info : Channel} (there : final.channels[ch]? = some info) :
    info.polled = true ↔
      if ch = 0 then requests ch events ≠ []
      else match info.capType with
        | .pcap => (requests ch events).getLast? = some true
        | .nf2 => true ∈ requests ch events := by
  have accounted : Accounted final ([] ++ events) :=
    run_invariant (fun accounted stepped => accounted.step stepped) (start_accounted capTypes) ran
  have answered := accounted.2 ch info there
  rw [Channel.polled, Bool.or_eq_true, answered.handle, answered.card, Opens]
  split_ifs with control
  · simp [answered.control control]
  · cases kind : info.capType <;> simp

/-- The card is still polled in a test whose module does not want it. -/
theorem polled_iff_card :
    ∃ final log info, run step (start [.nf2]) [.setup 0 false 3, .setup 1 true 4, .begin, .reset,
      .setup 0 false 5,
        .setup 1 false 6, .begin] = some (final, log) ∧
      final.channels[1]? = some info ∧ info.polled = true := by
  obtain ⟨final, log, info, ran, there, kind⟩ : ∃ final log info,
    run step (start [.nf2]) [.setup 0 false 3,
      .setup 1 true 4, .begin, .reset, .setup 0 false 5, .setup 1 false 6, .begin] =
        some (final, log) ∧
      final.channels[1]? = some info ∧ info.capType = .nf2 := ⟨_, _, _, rfl, rfl, rfl⟩
  have iff := polled_iff ran there
  rw [kind] at iff
  exact ⟨final, log, info, ran, there, iff.mpr (by decide)⟩

end Oflops.Harness.Polling
