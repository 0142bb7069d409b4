import Oflops.Cbench.Hearing

/-! Whatever the controller, the socket and the clock do, a fake switch speaks OpenFlow: what it
puts into its output buffer is a sequence of whole messages, whose replies are those to the
requests it has handled, and whose packets are the probes. -/

namespace Oflops.Cbench.Dialogue
open Lib.Framing Lib.Machine Stream.Buffer Time Protocol Switch Session Hearing

def replyHeader (message : List UInt8) : Option (UInt8 × Nat) :=
  if messageType message ∈ [ofptError, ofptEchoReply, ofptFeaturesReply] then
    some (messageType message, messageXid message)
  else none

def answer : Act → Option (UInt8 × Nat)
  | .handled request =>
    match request.type with
    | .featuresRequest => some (ofptFeaturesReply, request.xid)
    | .vendor => some (ofptError, request.xid)
    | .echoRequest => some (ofptEchoReply, request.xid)
    | _ => none
  | _ => none

def said (id : Int) : Act → List (List UInt8)
  | .handled request => (request.reply id).toList
  | .probe message => [message]
  | _ => []

/-- The messages of a switch, from its greeting on. -/
def spoken (id : Int) (acts : List Act) : List (List UInt8) := makeHello :: acts.flatMap (said id)

def isPacketIn (message : List UInt8) : Bool := messageType message = ofptPacketIn

def bytesSent : Act → List UInt8
  | .sent bytes => bytes
  | _ => []

def delivered (acts : List Act) : List UInt8 := acts.flatMap bytesSent

/-- Whole messages, a greeting first, and no packet before the features are announced. -/
structure WellSpoken (messages : List (List UInt8)) : Prop where
  framed : ∀ message ∈ messages, openflow.Frame message
  hello : ∃ later, messages = makeHello :: later
  announced : ∀ before message after, messages = before ++ message :: after →
    messageType message = ofptPacketIn → ∃ earlier ∈ before, messageType earlier = ofptFeaturesReply

/-- A switch whose output so far, delivered or still buffered, is what its acts say. -/
structure Speaking (id : Int) (fs : Fakeswitch) (acts : List Act) : Prop where
  bounds : InBounds fs.outbuf
  own : fs.id = id
  output : delivered acts ++ buffered fs.outbuf = (spoken id acts).flatten
  wellSpoken : WellSpoken (spoken id acts)
  packets : ∀ message, .probe message ∈ acts → isPacketIn message = true
  ready : fs.readyToSend ≠ 0 → ∃ message ∈ spoken id acts, messageType message = ofptFeaturesReply

theorem WellSpoken.append {messages : List (List UInt8)} (spoken : WellSpoken messages)
    {message : List UInt8} (framed : openflow.Frame message)
    (announced : messageType message = ofptPacketIn →
      ∃ earlier ∈ messages, messageType earlier = ofptFeaturesReply) :
    WellSpoken (messages ++ [message]) := by
  obtain ⟨later, hello⟩ := spoken.hello
  refine ⟨?_, ⟨later ++ [message], by rw [hello, List.cons_append]⟩, ?_⟩
  · intro other member
    rcases List.mem_append.mp member with old | new
    · exact spoken.framed other old
    · exact List.mem_singleton.mp new ▸ framed
  · intro before other after split isPacket
    rcases concat_split split with ⟨rfl, rfl⟩ | ⟨rest, old⟩
    · exact announced isPacket
    · exact spoken.announced before other rest old isPacket

theorem delivered_append (acts : List Act) (act : Act) :
    delivered (acts ++ [act]) = delivered acts ++ bytesSent act := by
  rw [delivered, List.flatMap_append, List.flatMap_singleton, delivered]

theorem spoken_append (id : Int) (acts : List Act) (act : Act) :
    spoken id (acts ++ [act]) = spoken id acts ++ said id act := by
  rw [spoken, List.flatMap_append, List.flatMap_singleton, spoken, List.cons_append]

section
variable {id : Int} {fs next : Fakeswitch} {acts : List Act} {act : Act}

theorem Speaking.say (speaking : Speaking id fs acts) {message : List UInt8}
    (pushed : next.outbuf = msgbufPush fs.outbuf message) (own : next.id = fs.id)
    (framed : openflow.Frame message) (unsent : bytesSent act = []) (new : said id act = [message])
    (announced : isPacketIn message = true → fs.readyToSend ≠ 0)
    (packet : ∀ other, act = .probe other → isPacketIn other = true)
    (ready : next.readyToSend ≠ 0 →
      fs.readyToSend ≠ 0 ∨ messageType message = ofptFeaturesReply) :
    Speaking id next (acts ++ [act]) := by
  have more : spoken id (acts ++ [act]) = spoken id acts ++ [message] := by
    rw [spoken_append, new]
  constructor
  · exact pushed ▸ msgbufPush_inBounds message speaking.bounds
  · exact own.trans speaking.own
  · rw [delivered_append, unsent, List.append_nil, pushed,
      msgbufPush_buffered message speaking.bounds.ordered, ← List.append_assoc, speaking.output,
      more, List.flatten_append, List.flatten_singleton]
  · rw [more]
    refine speaking.wellSpoken.append framed (fun isPacket => speaking.ready (announced ?_))
    exact decide_eq_true isPacket
  · intro other member
    rcases List.mem_append.mp member with old | new
    · exact speaking.packets other old
    · exact packet other (List.mem_singleton.mp new).symm
  · intro sending
    rw [more]
    rcases ready sending with before | now
    · obtain ⟨earlier, member, type⟩ := speaking.ready before
      exact ⟨earlier, List.mem_append_left _ member, type⟩
    · exact ⟨message, List.mem_append_right _ (List.mem_singleton.mpr rfl), now⟩

theorem Speaking.hush (speaking : Speaking id fs acts) (bounds : InBounds next.outbuf)
    (own : next.id = fs.id) (moved : buffered fs.outbuf = bytesSent act ++ buffered next.outbuf)
    (silent : said id act = []) (ready : next.readyToSend ≠ 0 → fs.readyToSend ≠ 0) :
    Speaking id next (acts ++ [act]) := by
  have same : spoken id (acts ++ [act]) = spoken id acts := by
    rw [spoken_append, silent, List.append_nil]
  refine ⟨bounds, own.trans speaking.own, ?_, same ▸ speaking.wellSpoken, ?_, ?_⟩
  · rw [delivered_append, List.append_assoc, ← moved, speaking.output, same]
  · intro other member
    rcases List.mem_append.mp member with old | new
    · exact speaking.packets other old
    · rw [← List.mem_singleton.mp new] at silent
      cases silent
  · rw [same]
    exact fun sending => speaking.ready (ready sending)

end

theorem reply_spoken {request : Request} {id : Int} {message : List UInt8}
    (replies : request.reply id = some message) :
    openflow.Frame message ∧ replyHeader message = answer (.handled request) ∧
      messageType message ≠ ofptPacketIn ∧
      (request.type = .featuresRequest → messageType message = ofptFeaturesReply) := by
  have spoken : ∀ {type : UInt8} {body : List UInt8}, body.length < 2 ^ 16 - ofpHeaderSize →
      type ∈ [ofptError, ofptEchoReply, ofptFeaturesReply] →
      message = wellFormed type request.xid body →
      openflow.Frame message ∧ replyHeader message = some (type, request.xid) ∧
        messageType message = type := by
    rintro type body small isReply rfl
    refine ⟨wellFormed_framed type request.xid small, ?_, rfl⟩
    rw [replyHeader, wellFormed_type, if_pos isReply, wellFormed_xid type body request.fits]
  unfold Request.reply at replies
  split at replies
  · rename_i features
    obtain ⟨body, length, shape⟩ := makeFeaturesReply_eq id request.xid
    cases replies
    obtain ⟨framed, header, type⟩ := spoken (by rw [length]; decide) (by decide) shape
    refine ⟨framed, ?_, by rw [type]; decide, fun _ => type⟩
    rw [header, answer, features]
  · rename_i vendor
    cases replies
    obtain ⟨framed, header, type⟩ := spoken (by decide) (by decide) (makeVendorReply_eq request.xid)
    refine ⟨framed, ?_, by rw [type]; decide, fun features => ?_⟩
    · rw [header, answer, vendor]
    · rw [vendor] at features
      cases features
  · rename_i echo
    cases replies
    obtain ⟨framed, header, type⟩ := spoken (by decide) (by decide) (makeEchoReply_eq request.xid)
    refine ⟨framed, ?_, by rw [type]; decide, fun features => ?_⟩
    · rw [header, answer, echo]
    · rw [echo] at features
      cases features
  · cases replies

theorem answer_of_silent {request : Request} {id : Int} (silent : request.reply id = none) :
    answer (.handled request) = none ∧ request.type ≠ .featuresRequest := by
  unfold Request.reply at silent
  unfold answer
  cases known : request.type <;> simp [known] at silent ⊢

section
variable {id : Int} {fs next : Fakeswitch} {acts : List Act}

theorem Speaking.probe (speaking : Speaking id fs acts) (ready : fs.readyToSend = 1)
    (queued : queueProbe fs = some next) :
    Speaking id next (acts ++ [.probe (makePacketIn fs.id 0 fs.currentMacAddress)]) := by
  obtain ⟨body, length, shape⟩ := makePacketIn_eq fs.id 0 fs.currentMacAddress
  have sending : fs.readyToSend ≠ 0 := by
    rw [ready]
    decide
  apply speaking.say
  · rw [queueProbe_eq queued]
  · rw [queueProbe_eq queued]
  · rw [shape]
    exact wellFormed_framed _ _ (by rw [length]; decide)
  · rfl
  · rfl
  · exact fun _ => sending
  · intro other same
    rw [← Act.probe.inj same, shape]
    rfl
  · exact fun _ => Or.inl sending

theorem Speaking.serve (speaking : Speaking id fs acts) {request : Request}
    (served : Served fs request next) : Speaking id next (acts ++ [.handled request]) := by
  have outbuf := served.outbuf
  have ready := served.readyToSend
  rw [speaking.own] at outbuf
  cases replies : request.reply id with
  | none =>
    obtain ⟨-, other⟩ := answer_of_silent replies
    rw [replies, Option.elim_none] at outbuf
    rw [if_neg other] at ready
    refine speaking.hush (outbuf ▸ speaking.bounds) served.id (by rw [outbuf]; rfl) ?_ ?_
    · rw [said, replies, Option.toList_none]
    · exact fun sending => ready ▸ sending
  | some message =>
    obtain ⟨framed, -, notPacket, features⟩ := reply_spoken replies
    rw [replies, Option.elim_some] at outbuf
    refine speaking.say outbuf served.id framed rfl ?_
      (fun isPacket => absurd (of_decide_eq_true isPacket) notPacket) nofun ?_
    · rw [said, replies, Option.toList_some]
    · intro sending
      by_cases isFeatures : request.type = .featuresRequest
      · exact Or.inr (features isFeatures)
      · rw [if_neg isFeatures] at ready
        exact Or.inl (ready ▸ sending)

end

theorem speaking_keeps (id : Int) : Keeps (Speaking id) where
  inbuf inbuf speaking :=
    ⟨speaking.bounds, speaking.own, speaking.output, speaking.wellSpoken, speaking.packets,
      speaking.ready⟩
  served speaking served := speaking.serve served
  queued := by
    intro fs acts n next speaking ready _ queued
    refine (queueProbes_acts (fun fs acts => fs.readyToSend = 1 ∧ Speaking id fs acts) ?_
      ⟨ready, speaking⟩ queued).2
    rintro fs acts next ⟨ready, speaking⟩ one
    exact ⟨by rw [queueProbe_eq one, ready], speaking.probe ready one⟩
  started := by
    intro fs acts now speaking waiting _
    refine speaking.hush speaking.bounds rfl rfl rfl (fun _ => ?_)
    rw [waiting]
    decide
  flushed := by
    intro fs acts sent outbuf speaking flushed
    obtain ⟨moved, bounds⟩ := flushed speaking.bounds
    exact speaking.hush bounds rfl moved rfl (fun sending => sending)
  counted := by
    intro fs acts speaking
    exact speaking.hush speaking.bounds rfl rfl rfl (fun sending => sending)

theorem init_speaking (id : Int) (bufsize : Nat) (positive : 0 < bufsize) (delay : Int)
    (mode : TestMode) (totalMacAddresses : Int) (delayStart : Timeval) (buffer : Nat → UInt8) :
    Speaking id
      (fakeswitchInit id bufsize positive delay mode totalMacAddresses delayStart buffer) [] := by
  have fresh := msgbufNew_inBounds bufsize positive buffer
  constructor
  · exact msgbufPush_inBounds makeHello fresh
  · rfl
  · exact msgbufPush_buffered makeHello fresh.ordered
  · refine ⟨?_, ⟨[], rfl⟩, ?_⟩
    · intro message member
      rw [List.mem_singleton.mp member, makeHello_eq]
      exact wellFormed_framed _ _ (by decide)
    · intro before message after split isPacket
      have member : message ∈ [makeHello] := by
        rw [show [makeHello] = spoken id [] from rfl, split]
        exact List.mem_append_right _ List.mem_cons_self
      rw [List.mem_singleton.mp member] at isPacket
      exact absurd isPacket (by decide)
  · nofun
  · intro sending
    exact absurd rfl sending

theorem said_answers {id : Int} {act : Act}
    (packet : ∀ message, act = .probe message → isPacketIn message = true) :
    (said id act).filterMap replyHeader = (answer act).toList := by
  cases act with
  | handled request =>
    cases replies : request.reply id with
    | none =>
      rw [(answer_of_silent replies).1, said, replies]
      rfl
    | some message =>
      obtain ⟨-, header, -⟩ := reply_spoken replies
      rw [said, replies, ← header]
      simp only [Option.toList_some, List.filterMap_cons, List.filterMap_nil]
      cases replyHeader message <;> rfl
  | probe message =>
    have isPacket : messageType message = ofptPacketIn := of_decide_eq_true (packet message rfl)
    simp only [said, List.filterMap_cons, List.filterMap_nil, replyHeader, isPacket]
    rfl
  | _ => rfl

theorem Speaking.answers {id : Int} {fs : Fakeswitch} {acts : List Act}
    (speaking : Speaking id fs acts) :
    (spoken id acts).filterMap replyHeader = acts.filterMap answer := by
  have each : ∀ act ∈ acts, (said id act).filterMap replyHeader = (answer act).toList := by
    intro act member
    apply said_answers
    rintro message rfl
    exact speaking.packets message member
  have hello : replyHeader makeHello = none := by decide
  rw [spoken, List.filterMap_cons_none hello, List.filterMap_flatMap,
    List.filterMap_eq_flatMap_toList]
  exact List.flatMap_congr each

theorem Speaking.filter_packets {id : Int} {fs : Fakeswitch} {acts part : List Act}
    (speaking : Speaking id fs acts) (inside : ∀ act ∈ part, act ∈ acts) :
    (part.flatMap (said id)).filter isPacketIn = part.filterMap probeOf := by
  have each : ∀ act ∈ part, (said id act).filter isPacketIn = (probeOf act).toList := by
    intro act member
    cases act with
    | handled request =>
      cases replies : request.reply id with
      | none =>
        rw [said, replies]
        rfl
      | some message =>
        obtain ⟨-, -, other, -⟩ := reply_spoken replies
        rw [said, replies]
        exact List.filter_cons_of_neg (fun isPacket => other (of_decide_eq_true isPacket))
    | probe message =>
      exact List.filter_cons_of_pos (speaking.packets message (inside _ member))
    | _ => rfl
  rw [List.filter_flatMap, List.filterMap_eq_flatMap_toList]
  exact List.flatMap_congr each

/-- In every run the output, as far as the socket has taken it and as far as it still waits, is
one well spoken sequence of messages; its replies are, in order, the answers to the requests that
`fakeswitch_handle_read` has handled, its packets are the probes, and the requests are the messages
of the stream that was read. -/
theorem switch_speaks_openflow (id : Int) (bufsize : Nat) (positive : 0 < bufsize) (delay : Int)
    (mode : TestMode) (totalMacAddresses : Int) (delayStart : Timeval) (buffer : Nat → UInt8)
    (clock : Nat → Timeval) {events : List Event} {final : Timed} {log : List (List Act)}
    (ran : run step
      ⟨fakeswitchInit id bufsize positive delay mode totalMacAddresses delayStart buffer, clock⟩
      events = some (final, log)) :
    (∃ messages, delivered log.flatten ++ buffered final.fs.outbuf = messages.flatten ∧
      WellSpoken messages ∧ messages.filterMap replyHeader = log.flatten.filterMap answer ∧
      messages.filter isPacketIn = log.flatten.filterMap probeOf) ∧
    HearsStream
      ⟨fakeswitchInit id bufsize positive delay mode totalMacAddresses delayStart buffer, clock⟩
      events log := by
  have start := init_speaking id bufsize positive delay mode totalMacAddresses delayStart buffer
  have speaking := (speaking_keeps id).run start ran
  refine ⟨⟨_, speaking.output, speaking.wellSpoken, speaking.answers, ?_⟩, ?_⟩
  · have hello : isPacketIn makeHello ≠ true := by decide
    rw [spoken, List.filter_cons_of_neg hello]
    exact speaking.filter_packets (fun _ member => member)
  · exact run_hearsStream (msgbufNew_inBounds bufsize positive buffer).compact ran

/-- A features request that comes in two parts, its reply and a probe. -/
theorem switch_speaks_openflow_features :
    let start : Timed :=
      ⟨fakeswitchInit 1 16 (by decide) 0 .latency 1 ⟨0, 0⟩ (fun _ => 0), fun _ => ⟨0, 0⟩⟩
    let events : List Event :=
      [.read 2 (.data [1, 5, 0]), .read 2 (.data [8, 0, 0, 0, 7]), .write 5, .write 1000]
    ∃ final log, run step start events = some (final, log) ∧
      (∃ messages, delivered log.flatten ++ buffered final.fs.outbuf = messages.flatten ∧
        WellSpoken messages ∧ messages.filterMap replyHeader = log.flatten.filterMap answer ∧
        messages.filter isPacketIn = log.flatten.filterMap probeOf) ∧
      HearsStream start events log := by
  intro start events
  have returns : (run step start events).isSome := by decide +kernel
  obtain ⟨⟨final, log⟩, ran⟩ := Option.isSome_iff_exists.mp returns
  exact ⟨final, log, ran, switch_speaks_openflow _ _ _ _ _ _ _ _ _ ran⟩

end Oflops.Cbench.Dialogue
