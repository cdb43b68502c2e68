import Rtdp.Lib.Network
import Rtdp.Transport.Issued
import Rtdp.Transport.Overflow
import Rtdp.Transport.Provenance
import Rtdp.Transport.Readings
import Rtdp.Transport.Restart

/-!
# Publisher and subscriber over UDP

One publisher with its replay thread and one subscriber worker, each with its
own configuration, and a network that loses, repeats, delays and reorders their
datagrams. What either side sends goes to the other.

The network invents no message, so neither does the system as long as the raw
frames handed to the publisher are DATA frames: all the subscriber forwards was
handed to the publisher, and every reply on the wire answers a request that the
worker has issued.
-/

namespace Rtdp

/-! ## The publisher's side -/

/-- A publisher with its replay thread, and all the frames it was given, newest first. -/
structure Source where
  publisher : UdpPublisher
  replayThread : ReplayThread
  history : List OwnedFrame

/-- A call of the application, or a packet that reaches the replay thread. -/
inductive SourceAction where
  | publish (call : PublishCall)
  | publishFrame (frame : OwnedFrame) (storeInRing : Bool)
  | storeInRingOnly (frame : OwnedFrame)
  | restart (newPublisherId : UInt64)
  | receive (packet : List UInt8)

/-- Raw frames are DATA frames. -/
def SourceAction.OfData : SourceAction → Prop
  | .publishFrame frame _ => frame.header.messageType = .data
  | .storeInRingOnly frame => frame.header.messageType = .data
  | _ => True

/-- A datagram that can be sent. -/
def Sendable (packet : List UInt8) : Bool := packet.length ≤ MAX_DATAGRAM

namespace Source

def new (config : UdpPublisherConfig) (pos : 0 < config.ringBufferCapacity) : Source where
  publisher := UdpPublisher.new config pos
  replayThread := ReplayThread.spawn config
  history := []

def step (crc32c : List UInt8 → UInt32) (self : Source) : SourceAction → Source
  | .publish c =>
    { self with
      publisher := self.publisher.call crc32c c
      history := self.publisher.nextFrame c.nowNs c.payload :: self.history }
  | .publishFrame frame storeInRing =>
    { self with
      publisher := (self.publisher.publishFrame crc32c frame storeInRing).2
      history := frame :: self.history }
  | .storeInRingOnly frame =>
    { self with
      publisher := self.publisher.storeInRingOnly frame
      history := frame :: self.history }
  | .restart newPublisherId =>
    { self with publisher := self.publisher.restartWithNewPublisherId newPublisherId }
  | .receive _ => self

/-- The packets a step passes to `send_to`. -/
def emits (crc32c : List UInt8 → UInt32) (self : Source) : SourceAction → List (List UInt8)
  | .receive packet => self.replayThread.turn crc32c self.publisher.ringBuffer packet
  | action => (self.step crc32c action).publisher.sent.drop self.publisher.sent.length

end Source

/-- The publisher as a party of the network. -/
def sourceParty (crc32c : List UInt8 → UInt32) : Network.Party Source SourceAction (List UInt8) (List UInt8) where
  step := Source.step crc32c
  takes
    | .receive packet => some packet
    | _ => none
  sends := fun source action => (source.emits crc32c action).filter Sendable

/-! ## The subscriber's side -/

structure UdpSubscriberConfig where
  streamId : UInt64
  mode : DeliveryMode
  recoveryConfig : RecoveryConfig
  maxFrameSize : Nat
  channelCapacity : Nat
  deriving DecidableEq, Repr

def UdpSubscriberConfig.default : UdpSubscriberConfig where
  streamId := 1
  mode := .reliableOrdered
  recoveryConfig := RecoveryConfig.default
  maxFrameSize := 1472
  channelCapacity := 10000

def UdpSubscriberConfig.codec (self : UdpSubscriberConfig) : FrameCodec :=
  FrameCodec.new { maxFrameSize := self.maxFrameSize, validateChecksum := true }

namespace Subscriber

def spawn (config : UdpSubscriberConfig) : Subscriber :=
  Subscriber.new config.streamId config.mode config.recoveryConfig

def work (crc32c : List UInt8 → UInt32) (config : UdpSubscriberConfig) (self : Subscriber) (t : Turn) :
    Subscriber :=
  self.turn crc32c config.codec config.streamId t

end Subscriber

/-- The worker as a party of the network: it sends the requests a turn has issued. -/
def workerParty (crc32c : List UInt8 → UInt32) (config : UdpSubscriberConfig) :
    Network.Party Subscriber Turn (List UInt8) (List UInt8) where
  step := Subscriber.work crc32c config
  takes
    | .packet _ bytes => some bytes
    | .timeouts _ _ => none
  sends := fun sub t =>
    (((sub.work crc32c config t).requested.drop sub.requested.length).flatMap
      (sendReplayRequest crc32c config.codec config.streamId)).filter Sendable

/-! ## The two together -/

abbrev System := Network.Link Source Subscriber (List UInt8) (List UInt8)

abbrev SystemMove := Network.Move SourceAction Turn

namespace System

variable (crc32c : List UInt8 → UInt32) (config : UdpSubscriberConfig)

def new (pubConfig : UdpPublisherConfig) (pos : 0 < pubConfig.ringBufferCapacity)
    (config : UdpSubscriberConfig) : System :=
  Network.Link.of (Source.new pubConfig pos) (Subscriber.spawn config)

def step (sys : System) (move : SystemMove) : System :=
  Network.Link.step (sourceParty crc32c) (workerParty crc32c config) sys move

/-- A packet that is handled has been sent. -/
def Delivers (sys : System) (move : SystemMove) : Prop :=
  Network.Link.Delivers (sourceParty crc32c) (workerParty crc32c config) sys move

/-- The raw frames of a move are DATA frames. -/
def OfData (_ : System) : SystemMove → Prop
  | .left action => action.OfData
  | .right _ => True

/-- A run of the system: packets come from the network, and raw frames are DATA frames. -/
def Possible (sys : System) (moves : List SystemMove) : Prop :=
  Runs.Each (step crc32c config) (Delivers crc32c config) sys moves ∧
    Runs.Each (step crc32c config) OfData sys moves

end System

/-! ## What is on the wire -/

/-- A packet on its way to the subscriber: the DATA packet of a frame of the history, or an answer to
an issued request, which replays a frame of its range. -/
inductive OnWire (crc32c : List UInt8 → UInt32) (source : Source) (sub : Subscriber) (packet : List UInt8) : Prop where
  | data (f : OwnedFrame) (known : f ∈ source.history) (sealed : packet = f.sealed crc32c)
  | response (req : ReplayRequestPayload) (f : OwnedFrame) (issued : req ∈ sub.requested)
      (known : f ∈ source.history) (inRange : req.fromSequence ≤ f.seq ∧ f.seq ≤ req.toSequence)
      (sealed : packet = (responseFrame req.requestId f).sealed crc32c)
  | notice (req : ReplayRequestPayload) (streamId publisherId first last : UInt64)
      (issued : req ∈ sub.requested)
      (sealed : packet = (unavailableFrame streamId publisherId ⟨req.requestId, first, last⟩).sealed crc32c)

/-- A packet that can be sent, and is one of these. -/
def ToSubscriber (crc32c : List UInt8 → UInt32) (source : Source) (sub : Subscriber) (packet : List UInt8) : Prop :=
  packet.length ≤ MAX_DATAGRAM ∧ OnWire crc32c source sub packet

/-- A packet on its way to the publisher is an issued request. -/
def ToPublisher (crc32c : List UInt8 → UInt32) (streamId : UInt64) (_ : Source) (sub : Subscriber)
    (packet : List UInt8) : Prop :=
  packet.length ≤ MAX_DATAGRAM ∧
    ∃ req ∈ sub.requested, packet = (requestFrame streamId req).sealed crc32c

/-- What both sides keep: the ring holds frames of the history, which are DATA frames, and so is what
the subscriber has. -/
structure Sound (source : Source) (sub : Subscriber) : Prop where
  data : ∀ f ∈ source.history, f.header.messageType = .data
  ring : ∀ f, source.publisher.ringBuffer.Holds f → f ∈ source.history
  carries : sub.Carries fun g => ∃ f ∈ source.history, Replayed f g

section Steps

variable {crc32c : List UInt8 → UInt32} {config : UdpSubscriberConfig} {source : Source} {sub : Subscriber}
  {packet : List UInt8}

/-- The history and the requests only grow. -/
theorem OnWire.mono (h : OnWire crc32c source sub packet) {source' : Source} {sub' : Subscriber}
    (history : ∀ f ∈ source.history, f ∈ source'.history)
    (requested : ∀ r ∈ sub.requested, r ∈ sub'.requested) : OnWire crc32c source' sub' packet := by
  cases h with
  | data f known hsealed => exact .data f (history f known) hsealed
  | response req f issued known inRange hsealed =>
    exact .response req f (requested req issued) (history f known) inRange hsealed
  | notice req streamId publisherId first last issued hsealed =>
    exact .notice req streamId publisherId first last (requested req issued) hsealed

namespace Source

theorem history_grows (crc32c : List UInt8 → UInt32) (source : Source) (action : SourceAction) :
    ∀ f ∈ source.history, f ∈ (source.step crc32c action).history := by
  intro f hf
  cases action with
  | publish c => exact List.mem_cons_of_mem _ hf
  | publishFrame frame storeInRing => exact List.mem_cons_of_mem _ hf
  | storeInRingOnly frame => exact List.mem_cons_of_mem _ hf
  | restart newPublisherId => exact hf
  | receive packet => exact hf

/-- What `publish_frame` puts into the ring, and what it sends. -/
theorem publishFrame_cases (crc32c : List UInt8 → UInt32) (pub : UdpPublisher) (frame : OwnedFrame) (storeInRing : Bool) :
    (∀ f, (pub.publishFrame crc32c frame storeInRing).2.ringBuffer.Holds f →
        f = frame ∨ pub.ringBuffer.Holds f) ∧
      ((pub.publishFrame crc32c frame storeInRing).2.sent = pub.sent ∨
        (pub.publishFrame crc32c frame storeInRing).2.sent = pub.sent ++ [frame.sealed crc32c]) := by
  obtain ⟨stored, hstored⟩ : ∃ stored : UdpPublisher, stored =
      if storeInRing then { pub with ringBuffer := pub.ringBuffer.push frame } else pub := ⟨_, rfl⟩
  have hring : ∀ f, stored.ringBuffer.Holds f → f = frame ∨ pub.ringBuffer.Holds f := by
    intro f hf
    rw [hstored] at hf
    split at hf
    · exact BoundedRingBuffer.holds_of_push hf
    · exact Or.inr hf
  have hsent : stored.sent = pub.sent := by
    rw [hstored]
    split <;> rfl
  unfold UdpPublisher.publishFrame
  rw [← hstored]
  dsimp only
  by_cases sendable : stored.config.codec.Sendable stored.config.maxFrameSize frame
  · rw [FrameCodec.encodePacket_ok crc32c sendable]
    exact ⟨hring, Or.inr (by rw [hsent])⟩
  · obtain ⟨e, he⟩ := FrameCodec.encodePacket_refused crc32c sendable
    rw [he]
    exact ⟨hring, Or.inl hsent⟩

/-- What a call of `publish` sends. -/
theorem call_sent (crc32c : List UInt8 → UInt32) (pub : UdpPublisher) (c : PublishCall) :
    (pub.call crc32c c).sent = pub.sent ∨
      (pub.call crc32c c).sent = pub.sent ++ [(pub.nextFrame c.nowNs c.payload).sealed crc32c] := by
  by_cases fits : pub.Fits c.payload
  · rw [UdpPublisher.call, UdpPublisher.publish_ok crc32c c.nowNs fits]
    exact Or.inr rfl
  · obtain ⟨e, he⟩ := UdpPublisher.publish_refused crc32c c.nowNs fits
    rw [UdpPublisher.call, he]
    exact Or.inl rfl

/-- A frame in the ring after a step is in the history. -/
theorem ring_step (ring : ∀ f, source.publisher.ringBuffer.Holds f → f ∈ source.history)
    (action : SourceAction) :
    ∀ f, (source.step crc32c action).publisher.ringBuffer.Holds f → f ∈ (source.step crc32c action).history := by
  intro f hf
  cases action with
  | publish c =>
    obtain ⟨-, -, hring⟩ := UdpPublisher.call_stores crc32c source.publisher c
    simp only [step] at hf ⊢
    rw [hring] at hf
    rcases BoundedRingBuffer.holds_of_push hf with rfl | hold
    · exact List.mem_cons_self
    · exact List.mem_cons_of_mem _ (ring f hold)
  | publishFrame frame storeInRing =>
    rcases (publishFrame_cases crc32c source.publisher frame storeInRing).1 f hf with rfl | hold
    · exact List.mem_cons_self
    · exact List.mem_cons_of_mem _ (ring f hold)
  | storeInRingOnly frame =>
    rcases BoundedRingBuffer.holds_of_push hf with rfl | hold
    · exact List.mem_cons_self
    · exact List.mem_cons_of_mem _ (ring f hold)
  | restart newPublisherId =>
    exact absurd hf (BoundedRingBuffer.new_holds source.publisher.ringBuffer.capacity _)
  | receive packet => exact ring f hf

end Source

/-- What the publisher sends while it handles the packet of an issued request. -/
theorem Source.answer_onWire (ring : ∀ f, source.publisher.ringBuffer.Holds f → f ∈ source.history)
    {streamId : UInt64} {request : List UInt8} (known : ToPublisher crc32c streamId source sub request)
    (h : packet ∈ source.emits crc32c (.receive request)) : OnWire crc32c source sub packet := by
  obtain ⟨small, req, issued, rfl⟩ := known
  rw [Source.emits, ReplayThread.turn] at h
  cases read : requestOf crc32c source.replayThread.codec ((requestFrame streamId req).sealed crc32c) with
  | none =>
    rw [read] at h
    cases h
  | some req' =>
    rw [read] at h
    obtain rfl := request_of_sealed small read
    rcases mem_handleReplayRequest h with ⟨f, found, hfrom, hto, rfl⟩ | ⟨first, last, rfl⟩
    · exact .response req' f issued (ring f (BoundedRingBuffer.holds_of_get found)) ⟨hfrom, hto⟩ rfl
    · exact .notice req' _ _ first last issued rfl

/-- What the publisher sends of its own accord is a frame of its history. -/
theorem Source.sent_onWire {action : SourceAction} (own : ∀ request, action ≠ .receive request)
    (h : packet ∈ source.emits crc32c action) :
    OnWire crc32c (source.step crc32c action) sub packet := by
  have silent : ∀ {sent : List (List UInt8)}, sent = source.publisher.sent →
      packet ∉ sent.drop source.publisher.sent.length := by
    rintro sent rfl hpacket
    rw [List.drop_length] at hpacket
    cases hpacket
  cases action with
  | publish c =>
    rcases Source.call_sent crc32c source.publisher c with hsent | hsent
    · exact absurd h (silent hsent)
    · simp only [Source.emits, Source.step] at h
      rw [hsent, List.drop_left] at h
      exact .data _ List.mem_cons_self (List.mem_singleton.mp h)
  | publishFrame frame storeInRing =>
    rcases (Source.publishFrame_cases crc32c source.publisher frame storeInRing).2 with hsent | hsent
    · exact absurd h (silent hsent)
    · simp only [Source.emits, Source.step] at h
      rw [hsent, List.drop_left] at h
      exact .data _ List.mem_cons_self (List.mem_singleton.mp h)
  | storeInRingOnly frame => exact absurd h (silent rfl)
  | restart newPublisherId => exact absurd h (silent rfl)
  | receive request => exact absurd rfl (own request)

/-- **Step** of the publisher. -/
theorem source_keeps {streamId : UInt64} (sound : Sound source sub) {action : SourceAction}
    (data : action.OfData)
    (taken : ∀ request, (sourceParty crc32c).takes action = some request →
      ToPublisher crc32c streamId source sub request) :
    Network.Link.Keeps Sound (ToSubscriber crc32c) (ToPublisher crc32c streamId) source sub
      (source.step crc32c action) sub ((source.emits crc32c action).filter Sendable) [] := by
  have grows := source.history_grows crc32c action
  refine ⟨⟨?_, Source.ring_step sound.ring action, ?_⟩, ?_, fun _ h => h, ?_, fun _ h => absurd h List.not_mem_nil⟩
  · intro f hf
    cases action with
    | publish c =>
      rcases List.mem_cons.mp hf with rfl | hold
      · rfl
      · exact sound.data f hold
    | publishFrame frame storeInRing =>
      rcases List.mem_cons.mp hf with rfl | hold
      · exact data
      · exact sound.data f hold
    | storeInRingOnly frame =>
      rcases List.mem_cons.mp hf with rfl | hold
      · exact data
      · exact sound.data f hold
    | restart newPublisherId => exact sound.data f hf
    | receive request => exact sound.data f hf
  · exact sound.carries.mono fun g ⟨f, hf, replayed⟩ => ⟨f, grows f hf, replayed⟩
  · exact fun _ ⟨small, known⟩ => ⟨small, known.mono grows fun _ h => h⟩
  · intro packet hpacket
    obtain ⟨hemits, hsendable⟩ := List.mem_filter.mp hpacket
    refine ⟨of_decide_eq_true hsendable, ?_⟩
    by_cases own : ∀ request, action ≠ .receive request
    · exact Source.sent_onWire own hemits
    · push Not at own
      obtain ⟨request, rfl⟩ := own
      exact Source.answer_onWire sound.ring (taken request rfl) hemits

/-- An event that the publisher's side has caused. -/
inductive Genuine (source : Source) (sub : Subscriber) : Event → Prop where
  | data (now : Instant) {f g : OwnedFrame} (known : f ∈ source.history) (replayed : Replayed f g) :
      Genuine source sub (.data now g)
  | response {req : ReplayRequestPayload} {f g : OwnedFrame} (issued : req ∈ sub.requested)
      (known : f ∈ source.history) (replayed : Replayed f g)
      (inRange : req.fromSequence ≤ g.seq ∧ g.seq ≤ req.toSequence) :
      Genuine source sub (.replayResponse req.requestId g)
  | notice {req : ReplayRequestPayload} (issued : req ∈ sub.requested) (first last : UInt64) :
      Genuine source sub (.replayUnavailable ⟨req.requestId, first, last⟩)

theorem genuine_of_onWire {streamId : UInt64} {codec : FrameCodec} {now : Instant} {e : Event}
    (data : ∀ f ∈ source.history, f.header.messageType = .data)
    (known : ToSubscriber crc32c source sub packet)
    (h : eventOf crc32c codec streamId now packet = some e) : Genuine source sub e := by
  obtain ⟨small, onWire⟩ := known
  cases onWire with
  | data f known hsealed =>
    subst hsealed
    obtain ⟨g, rfl, replayed⟩ := event_of_data (data f known) small h
    exact .data now known replayed
  | response req f issued known inRange hsealed =>
    subst hsealed
    obtain ⟨g, rfl, replayed⟩ := event_of_response small h
    refine .response issued known replayed ?_
    rw [OwnedFrame.seq, replayed.sequence]
    exact inRange
  | notice req streamId publisherId first last issued hsealed =>
    subst hsealed
    obtain rfl := event_of_notice small h
    exact .notice issued first last

theorem Genuine.brings {e : Event} (h : Genuine source sub e) :
    e.Brings fun g => ∃ f ∈ source.history, Replayed f g := by
  cases h with
  | data now known replayed => exact ⟨_, known, replayed⟩
  | response issued known replayed inRange => exact ⟨_, known, replayed⟩
  | notice issued first last => trivial

/-- A turn is a step over an event, or no step. -/
theorem Subscriber.turn_cases (crc32c : List UInt8 → UInt32) (codec : FrameCodec) (streamId : UInt64)
    (sub : Subscriber) (t : Turn) :
    sub.turn crc32c codec streamId t = sub ∨
      (∃ now order, t = .timeouts now order ∧
        sub.turn crc32c codec streamId t = sub.step (.timeouts now order)) ∨
      ∃ now bytes e, t = .packet now bytes ∧ eventOf crc32c codec streamId now bytes = some e ∧
        sub.turn crc32c codec streamId t = sub.step e := by
  cases t with
  | timeouts now order => exact Or.inr (Or.inl ⟨now, order, rfl, rfl⟩)
  | packet now bytes =>
    unfold Subscriber.turn
    dsimp only
    cases h : eventOf crc32c codec streamId now bytes with
    | none => exact Or.inl rfl
    | some e => exact Or.inr (Or.inr ⟨now, bytes, e, rfl, h, rfl⟩)

theorem Subscriber.turn_requested (crc32c : List UInt8 → UInt32) (codec : FrameCodec) (streamId : UInt64)
    (sub : Subscriber) (t : Turn) :
    ∃ batch, (sub.turn crc32c codec streamId t).requested = sub.requested ++ batch := by
  rcases sub.turn_cases crc32c codec streamId t with
    h | ⟨now, order, -, h⟩ | ⟨now, bytes, e, -, -, h⟩
  · exact ⟨[], by rw [h, List.append_nil]⟩
  · rw [h]
    exact sub.requested_grows _
  · rw [h]
    exact sub.requested_grows e

/-- **Step** of the worker. -/
theorem worker_keeps (sound : Sound source sub) {t : Turn}
    (taken : ∀ bytes, (workerParty crc32c config).takes t = some bytes →
      ToSubscriber crc32c source sub bytes) :
    Network.Link.Keeps Sound (ToSubscriber crc32c) (ToPublisher crc32c config.streamId) source sub
      source (sub.work crc32c config t) [] ((workerParty crc32c config).sends sub t) := by
  obtain ⟨batch, hbatch⟩ : ∃ batch, (sub.work crc32c config t).requested = sub.requested ++ batch :=
    sub.turn_requested _ _ _ t
  have grows : ∀ r ∈ sub.requested, r ∈ (sub.work crc32c config t).requested := by
    intro r hr
    rw [hbatch]
    exact List.mem_append_left _ hr
  refine ⟨⟨sound.data, sound.ring, ?_⟩, ?_, ?_, fun _ h => absurd h List.not_mem_nil, ?_⟩
  · rcases sub.turn_cases crc32c config.codec config.streamId t with
      h | ⟨now, order, -, h⟩ | ⟨now, bytes, e, rfl, hevent, h⟩
    · rw [Subscriber.work, h]
      exact sound.carries
    · rw [Subscriber.work, h]
      exact sound.carries.step trivial
    · rw [Subscriber.work, h]
      exact sound.carries.step (genuine_of_onWire sound.data (taken bytes rfl) hevent).brings
  · exact fun _ ⟨small, known⟩ => ⟨small, known.mono (fun _ h => h) grows⟩
  · exact fun _ ⟨small, req, issued, hsealed⟩ => ⟨small, req, grows req issued, hsealed⟩
  · intro packet hpacket
    obtain ⟨hsent, hsendable⟩ := List.mem_filter.mp hpacket
    refine ⟨of_decide_eq_true hsendable, ?_⟩
    rw [hbatch, List.drop_left] at hsent
    obtain ⟨req, hreq, hsealed⟩ := List.mem_flatMap.mp hsent
    refine ⟨req, ?_, eq_of_mem_sendReplayRequest hsealed⟩
    rw [hbatch]
    exact List.mem_append_right _ hreq

end Steps

namespace System

variable {crc32c : List UInt8 → UInt32} {config : UdpSubscriberConfig} {pubConfig : UdpPublisherConfig}
  {pos : 0 < pubConfig.ringBufferCapacity} {moves : List SystemMove}

theorem holds_new :
    Network.Link.Holds Sound (ToSubscriber crc32c) (ToPublisher crc32c config.streamId)
      (new pubConfig pos config) := by
  refine .of ⟨fun f hf => absurd hf List.not_mem_nil, fun f hf => ?_, .fresh _ _ _ _⟩
  exact absurd hf (BoundedRingBuffer.new_holds _ _)

/-- **Step** -/
theorem holds_step {sys : System} {move : SystemMove}
    (holds : Network.Link.Holds Sound (ToSubscriber crc32c) (ToPublisher crc32c config.streamId) sys)
    (delivers : Delivers crc32c config sys move) (data : OfData sys move) :
    Network.Link.Holds Sound (ToSubscriber crc32c) (ToPublisher crc32c config.streamId)
      (step crc32c config sys move) :=
  holds.step (L := sourceParty crc32c) (R := workerParty crc32c config) OfData
    (fun _ _ sound data taken => source_keeps sound data taken)
    (fun _ _ sound _ taken => worker_keeps sound taken) delivers data

/-- **Run**: whatever the network does. -/
theorem holds_run {sys : System}
    (holds : Network.Link.Holds Sound (ToSubscriber crc32c) (ToPublisher crc32c config.streamId) sys)
    (possible : Possible crc32c config sys moves) :
    Network.Link.Holds Sound (ToSubscriber crc32c) (ToPublisher crc32c config.streamId)
      (Runs.run (step crc32c config) sys moves) :=
  Network.Link.holds_run (L := sourceParty crc32c) (R := workerParty crc32c config)
    OfData (fun _ _ sound data taken => source_keeps sound data taken)
    (fun _ _ sound _ taken => worker_keeps sound taken) holds possible.1 possible.2

end System

/-- **Integrity end to end**: whatever the network loses, repeats, delays and reorders, whatever is
replayed, and however often the publisher restarts, in every mode and for any two configurations, if the
raw frames it is given are DATA frames, then a forwarded frame is one that was given to the publisher,
with its stream, sequence, timestamp, publisher and payload. -/
theorem system_integrity (crc32c : List UInt8 → UInt32) (pubConfig : UdpPublisherConfig)
    (pos : 0 < pubConfig.ringBufferCapacity) (config : UdpSubscriberConfig) (moves : List SystemMove)
    (possible : System.Possible crc32c config (System.new pubConfig pos config) moves) :
    let sys := Runs.run (System.step crc32c config) (System.new pubConfig pos config) moves
    ∀ g ∈ sys.right.forwarded, ∃ f ∈ sys.left.history, Replayed f g :=
  (System.holds_run System.holds_new possible).parties.carries.forwarded

/-- Frame 2 of a default publisher, the request it makes the worker issue when it comes first, and
the response for frame 1. -/
def secondPacket : List UInt8 := (OwnedFrame.newData 1 2 0 100 [8]).sealed crc32c

def firstRequest : List UInt8 := (requestFrame 1 ⟨1, 1, 1⟩).sealed crc32c

def firstResponse : List UInt8 := (responseFrame 1 (OwnedFrame.newData 1 1 0 100 [7])).sealed crc32c

/-- Frame 1 is lost, asked for, and replayed. -/
def lostAndReplayed : List SystemMove :=
  [.left (.publish ⟨0, [7]⟩), .left (.publish ⟨0, [8]⟩), .right (.packet 0 secondPacket),
    .left (.receive firstRequest), .right (.packet 0 firstResponse)]

theorem lostAndReplayed_possible :
    System.Possible crc32c UdpSubscriberConfig.default
      (System.new UdpPublisherConfig.default (by decide) UdpSubscriberConfig.default) lostAndReplayed := by
  refine ⟨⟨nofun, nofun, ?_, ?_, ?_, trivial⟩, trivial, trivial, trivial, trivial, trivial, trivial⟩
  all_goals
    rintro _ ⟨rfl⟩
    decide +kernel

theorem system_integrity_replayed :
    let sys := Runs.run (System.step crc32c UdpSubscriberConfig.default)
      (System.new UdpPublisherConfig.default (by decide) UdpSubscriberConfig.default) lostAndReplayed
    ∀ g ∈ sys.right.forwarded, ∃ f ∈ sys.left.history, Replayed f g :=
  system_integrity crc32c UdpPublisherConfig.default (by decide) UdpSubscriberConfig.default
    lostAndReplayed lostAndReplayed_possible

/-! ## Replies on the wire -/

namespace System

variable {crc32c : List UInt8 → UInt32} {config : UdpSubscriberConfig} {pubConfig : UdpPublisherConfig}
  {pos : 0 < pubConfig.ringBufferCapacity}

/-- **Run**: the ledger of the worker, while the ids suffice. -/
theorem ledger_run (moves : List SystemMove) :
    let sys := Runs.run (step crc32c config) (new pubConfig pos config) moves
    sys.right.requested.length + 1 < 2 ^ 64 → sys.right.KeepsLedger config.recoveryConfig := by
  apply Runs.always (fun sys : System => sys.right.requested.length + 1 < 2 ^ 64 →
    sys.right.KeepsLedger config.recoveryConfig)
  · intro sys move ih few
    cases move with
    | left action => exact ih few
    | right t =>
      have few : (sys.right.turn crc32c config.codec config.streamId t).requested.length + 1 < 2 ^ 64 := few
      show (sys.right.turn crc32c config.codec config.streamId t).KeepsLedger _
      rcases sys.right.turn_cases crc32c config.codec config.streamId t with
        h | ⟨now, order, -, h⟩ | ⟨now, bytes, e, -, -, h⟩
      · rw [h] at few ⊢
        exact ih few
      · rw [h] at few ⊢
        have hle := sys.right.requested_length_le (.timeouts now order)
        exact (ih (by omega)).step _ few
      · rw [h] at few ⊢
        have hle := sys.right.requested_length_le e
        exact (ih (by omega)).step _ few
  · exact fun _ => .fresh _ _ _

end System

/-- A reply fits the worker it is on its way to: it names an issued request, and a response replays a
frame of the history that the request asks for, if it is still outstanding. -/
def FitsRequest (source : Source) (sub : Subscriber) : Event → Prop
  | .replayResponse id g =>
    (∃ req ∈ sub.requested, req.requestId = id) ∧ (∃ f ∈ source.history, Replayed f g) ∧
      ∀ req, sub.receiver.recovery.outstandingRequests[id]? = some req → req.covers g.seq
  | .replayUnavailable unavail => ∃ req ∈ sub.requested, req.requestId = unavail.requestId
  | _ => True

theorem Genuine.fitsRequest {source : Source} {sub : Subscriber} {e : Event} {cfg : RecoveryConfig}
    (h : Genuine source sub e) (ledger : sub.KeepsLedger cfg) : FitsRequest source sub e := by
  cases h with
  | data now known replayed => trivial
  | @response req f g issued known replayed inRange =>
    refine ⟨⟨req, issued, rfl⟩, ⟨f, known, replayed⟩, fun active hactive => ?_⟩
    have hsame := ledger.issued.unique _ (ledger.issued.known _ active hactive) req issued rfl
    have hfrom := congrArg ReplayRequestPayload.fromSequence hsame
    have hto := congrArg ReplayRequestPayload.toSequence hsame
    simp only [ActiveReplayRequest.payload] at hfrom hto
    rw [ActiveReplayRequest.covers, hfrom, hto]
    exact inRange
  | notice issued first last => exact ⟨_, issued, rfl⟩

/-- **No stray replies**: in every run in which the worker sends fewer than `2^64 - 1` requests, each
reply on the wire answers a request of the worker. A response that finds its request outstanding lies
in its range, whatever was lost, repeated, delayed or reordered in between. -/
theorem system_replies_fit (crc32c : List UInt8 → UInt32) (pubConfig : UdpPublisherConfig)
    (pos : 0 < pubConfig.ringBufferCapacity) (config : UdpSubscriberConfig) (moves : List SystemMove)
    (possible : System.Possible crc32c config (System.new pubConfig pos config) moves) :
    let sys := Runs.run (System.step crc32c config) (System.new pubConfig pos config) moves
    sys.right.requested.length + 1 < 2 ^ 64 → ∀ packet ∈ sys.toRight, ∀ now e,
      eventOf crc32c config.codec config.streamId now packet = some e →
        FitsRequest sys.left sys.right e := by
  intro sys few packet hpacket now e hevent
  have holds := System.holds_run System.holds_new possible
  have genuine := genuine_of_onWire holds.parties.data (holds.toRight packet hpacket) hevent
  exact genuine.fitsRequest (System.ledger_run moves few)

theorem system_replies_fit_replayed :
    let sys := Runs.run (System.step crc32c UdpSubscriberConfig.default)
      (System.new UdpPublisherConfig.default (by decide) UdpSubscriberConfig.default) lostAndReplayed
    ∀ packet ∈ sys.toRight, ∀ now e,
      eventOf crc32c UdpSubscriberConfig.default.codec 1 now packet = some e →
        FitsRequest sys.left sys.right e :=
  system_replies_fit crc32c UdpPublisherConfig.default (by decide) UdpSubscriberConfig.default
    lostAndReplayed lostAndReplayed_possible (by decide +kernel)

end Rtdp
