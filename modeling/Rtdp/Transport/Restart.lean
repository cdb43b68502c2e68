import Rtdp.Core.Buffers.Retention
import Rtdp.Transport.Exchange
import Rtdp.Transport.Numbering

/-!
# A publisher that restarts

`restart_with_new_publisher_id` changes the id in the configuration and empties
the ring. The replay thread goes on with the id it captured when the publisher
was created. DATA packets and responses follow a restart: they carry the id of
the configuration and of the stored frames. A REPLAY_UNAVAILABLE does not, so a
restarted publisher keeps its identity exactly while it need not send one.
-/

namespace Rtdp

/-- What the replay thread captures when the publisher is created. -/
structure ReplayThread where
  codec : FrameCodec
  streamId : UInt64
  publisherId : UInt64

namespace ReplayThread

def spawn (config : UdpPublisherConfig) : ReplayThread where
  codec := config.codec
  streamId := config.streamId
  publisherId := config.publisherId

/-- One turn of the loop of the thread: what it sends for a packet. -/
def turn (crc32c : List UInt8 → UInt32) (self : ReplayThread) (ring : BoundedRingBuffer)
    (packet : List UInt8) : List (List UInt8) :=
  match requestOf crc32c self.codec packet with
  | some req => handleReplayRequest crc32c self.codec ring self.streamId self.publisherId req
  | none => []

end ReplayThread

/-- A publisher and its replay thread, with what happened since the latest restart. -/
structure RestartLog where
  publisher : UdpPublisher
  replayThread : ReplayThread
  /-- The id given to the latest restart. -/
  latestRestart : Option UInt64
  /-- The frames `publish` built since then, newest first. -/
  published : List OwnedFrame

/-- A call of the application, or a packet that reaches the replay thread. -/
inductive PublisherStep where
  | publish (call : PublishCall)
  | restart (newPublisherId : UInt64)
  | receive (packet : List UInt8)

namespace RestartLog

def new (config : UdpPublisherConfig) (pos : 0 < config.ringBufferCapacity) : RestartLog where
  publisher := UdpPublisher.new config pos
  replayThread := ReplayThread.spawn config
  latestRestart := none
  published := []

def step (crc32c : List UInt8 → UInt32) (self : RestartLog) : PublisherStep → RestartLog
  | .publish c =>
    { self with
      publisher := self.publisher.call crc32c c
      published := self.publisher.nextFrame c.nowNs c.payload :: self.published }
  | .restart newPublisherId =>
    { self with
      publisher := self.publisher.restartWithNewPublisherId newPublisherId
      latestRestart := some newPublisherId
      published := [] }
  | .receive _ => self

/-- The packets a step emits, to whatever address. -/
def emits (crc32c : List UInt8 → UInt32) (self : RestartLog) : PublisherStep → List (List UInt8)
  | .publish c => (self.publisher.call crc32c c).sent.drop self.publisher.sent.length
  | .restart _ => []
  | .receive packet => self.replayThread.turn crc32c self.publisher.ringBuffer packet

end RestartLog

/-- The packet carries the id, and replays nothing but one of the frames. -/
structure InNamespace (crc32c : List UInt8 → UInt32) (id : UInt64) (published : List OwnedFrame)
    (packet : List UInt8) : Prop where
  publisherId : (HeaderWords.ofBytes packet).publisherId = id
  replays : (HeaderWords.ofBytes packet).rawMsgType = MessageType.replayResponse.asU16 →
    ∃ requestId, ∃ f ∈ published, packet = (responseFrame requestId f).sealed crc32c

/-- After a restart, what the step emits belongs to the namespace of the latest one. -/
def RestartLog.KeepsIdentity (crc32c : List UInt8 → UInt32) (σ : RestartLog) (op : PublisherStep) : Prop :=
  ∀ id, σ.latestRestart = some id → ∀ packet ∈ σ.emits crc32c op, InNamespace crc32c id σ.published packet

/-- Each frame that is asked for is retained. -/
def BoundedRingBuffer.Satisfies (ring : BoundedRingBuffer) (req : ReplayRequestPayload) : Prop :=
  ∀ s, req.fromSequence ≤ s → s ≤ req.toSequence → ∃ f, ring.get s = some f

/-- `get_range` tells whether all of it is there. -/
instance (ring : BoundedRingBuffer) (req : ReplayRequestPayload) : Decidable (ring.Satisfies req) :=
  if ordered : req.fromSequence ≤ req.toSequence then
    match h : ring.getRange req.fromSequence req.toSequence with
    | .ok frames => .isTrue ((ring.getRange_ok_iff ordered).mp ⟨frames, h⟩)
    | .error _ => .isFalse fun satisfies => by
      obtain ⟨frames, hok⟩ := (ring.getRange_ok_iff ordered).mpr satisfies
      rw [h] at hok
      cases hok
  else .isTrue fun _ hfrom hto => absurd (UInt64.le_trans hfrom hto) ordered

/-- The id captured by the replay thread is the latest, or need not be used: the ring satisfies the
request. -/
def RestartLog.NeedsNoNotice (crc32c : List UInt8 → UInt32) (σ : RestartLog) : PublisherStep → Prop
  | .receive packet => ∀ id, σ.latestRestart = some id →
    id = σ.replayThread.publisherId ∨
      ∀ req, requestOf crc32c σ.replayThread.codec packet = some req → σ.publisher.ringBuffer.Satisfies req
  | _ => True

/-! ## What the replay thread sends -/

section Handle

variable {crc32c : List UInt8 → UInt32} {codec : FrameCodec} {ring : BoundedRingBuffer}
  {streamId publisherId id : UInt64} {req : ReplayRequestPayload} {packet : List UInt8}

/-- A frame of another type is in the namespace whose id it carries. -/
theorem InNamespace.of_id {frame : OwnedFrame} {published : List OwnedFrame}
    (own : frame.header.publisherId = id) (other : frame.header.messageType.asU16 ≠ MessageType.replayResponse.asU16) :
    InNamespace crc32c id published (frame.sealed crc32c) where
  publisherId := by rw [OwnedFrame.publisherId_sealed, own]
  replays := fun response => absurd ((OwnedFrame.rawMsgType_sealed crc32c frame).symm.trans response) other

/-- A satisfied request brings responses for retained frames, any other one notice. -/
inductive Handled (crc32c : List UInt8 → UInt32) (codec : FrameCodec) (ring : BoundedRingBuffer)
    (streamId publisherId : UInt64) (req : ReplayRequestPayload) : List (List UInt8) → Prop where
  | satisfied (satisfied : ring.Satisfies req) {packets : List (List UInt8)}
      (responses : ∀ packet ∈ packets, ∃ f, ring.get f.seq = some f ∧
        packet = (responseFrame req.requestId f).sealed crc32c) :
      Handled crc32c codec ring streamId publisherId req packets
  | unavailable (unsatisfied : ¬ ring.Satisfies req) (unavail : ReplayUnavailablePayload) :
      Handled crc32c codec ring streamId publisherId req
        (sendFrom1500 crc32c codec (unavailableFrame streamId publisherId unavail))

theorem handleReplayRequest_cases (crc32c : List UInt8 → UInt32) (codec : FrameCodec)
    (ring : BoundedRingBuffer) (streamId publisherId : UInt64)
    (ordered : req.fromSequence ≤ req.toSequence) :
    Handled crc32c codec ring streamId publisherId req
      (handleReplayRequest crc32c codec ring streamId publisherId req) := by
  have satisfied_iff := ring.getRange_ok_iff ordered
  unfold handleReplayRequest
  cases range : ring.getRange req.fromSequence req.toSequence with
  | ok frames =>
    apply Handled.satisfied (satisfied_iff.mp ⟨frames, range⟩)
    intro packet hpacket
    obtain ⟨f, hf, hpacket⟩ := List.mem_flatMap.mp hpacket
    exact ⟨f, (BoundedRingBuffer.getRange_ok range).found f hf, eq_of_mem_sendFrom1500 hpacket⟩
  | error e =>
    apply Handled.unavailable
    intro satisfied
    obtain ⟨frames, hframes⟩ := satisfied_iff.mpr satisfied
    rw [range] at hframes
    cases hframes

/-- A request that is not satisfied brings a packet with the id of the thread. -/
theorem notice_sent (room : 72 ≤ codec.config.maxFrameSize) (ordered : req.fromSequence ≤ req.toSequence)
    (unsatisfied : ¬ ring.Satisfies req) :
    ∃ packet ∈ handleReplayRequest crc32c codec ring streamId publisherId req,
      (HeaderWords.ofBytes packet).publisherId = publisherId := by
  have handled := handleReplayRequest_cases crc32c codec ring streamId publisherId ordered
  generalize handleReplayRequest crc32c codec ring streamId publisherId req = packets at handled ⊢
  cases handled with
  | satisfied satisfied => exact absurd satisfied unsatisfied
  | unavailable _ unavail =>
    obtain ⟨sent, -⟩ := eventOf_unavailable crc32c streamId streamId publisherId 0 unavail room
    rw [sent]
    exact ⟨_, List.mem_singleton_self _, OwnedFrame.publisherId_sealed crc32c _⟩

end Handle

namespace RestartLog

variable {crc32c : List UInt8 → UInt32} {σ : RestartLog} {c : PublishCall}

/-! ## What every step keeps -/

/-- The publisher is in the namespace of the latest restart, and so is its ring. -/
structure Consistent (σ : RestartLog) : Prop where
  current : ∀ id, σ.latestRestart = some id → σ.publisher.config.publisherId = id
  own : ∀ f ∈ σ.published, f.header.publisherId = σ.publisher.config.publisherId
  ring : σ.publisher.ringBuffer.Pushed σ.published

theorem Consistent.fresh (config : UdpPublisherConfig) (pos : 0 < config.ringBufferCapacity) :
    Consistent (new config pos) where
  current := fun id h => by cases h
  own := fun f hf => by cases hf
  ring := .fresh config.ringBufferCapacity pos

theorem mem_emits_publish {packet : List UInt8} (h : packet ∈ σ.emits crc32c (.publish c)) :
    packet = (σ.publisher.nextFrame c.nowNs c.payload).sealed crc32c := by
  simp only [emits, UdpPublisher.call] at h
  by_cases fits : σ.publisher.Fits c.payload
  · rw [UdpPublisher.publish_ok crc32c c.nowNs fits, List.drop_left] at h
    exact List.mem_singleton.mp h
  · obtain ⟨e, he⟩ := UdpPublisher.publish_refused crc32c c.nowNs fits
    rw [he, List.drop_length] at h
    cases h

theorem emits_request {packet : List UInt8} {req : ReplayRequestPayload}
    (read : requestOf crc32c σ.replayThread.codec packet = some req) :
    σ.emits crc32c (.receive packet) =
      handleReplayRequest crc32c σ.replayThread.codec σ.publisher.ringBuffer σ.replayThread.streamId
        σ.replayThread.publisherId req := by
  rw [emits, ReplayThread.turn, read]

theorem emits_other {packet : List UInt8} (unread : requestOf crc32c σ.replayThread.codec packet = none) :
    σ.emits crc32c (.receive packet) = [] := by
  rw [emits, ReplayThread.turn, unread]

/-- **Step** -/
theorem Consistent.step (h : Consistent σ) (op : PublisherStep) : Consistent (σ.step crc32c op) := by
  cases op with
  | publish c =>
    obtain ⟨hconfig, -, hring⟩ := UdpPublisher.call_stores crc32c σ.publisher c
    refine ⟨fun id hid => ?_, fun f hf => ?_, ?_⟩
    · show (σ.publisher.call crc32c c).config.publisherId = id
      rw [hconfig]
      exact h.current id hid
    · show f.header.publisherId = (σ.publisher.call crc32c c).config.publisherId
      rw [hconfig]
      rcases List.mem_cons.mp hf with rfl | hf
      · rfl
      · exact h.own f hf
    · show (σ.publisher.call crc32c c).ringBuffer.Pushed _
      rw [hring]
      exact h.ring.push _
  | restart newPublisherId =>
    refine ⟨fun id hid => ?_, fun f hf => ?_, ?_⟩
    · cases hid
      rfl
    · cases hf
    · exact BoundedRingBuffer.Pushed.clear _
  | receive packet => exact h

/-! ## Which requests are satisfied -/

/-- The frames since the latest restart are numbered from 1, and the last of them are retained. -/
structure Counted (σ : RestartLog) : Prop where
  counter : σ.publisher.sequenceCounter.toNat = σ.published.length + 1
  sequences : (σ.published.map fun f => f.seq.toNat) = (List.range' 1 σ.published.length).reverse
  ring : σ.publisher.ringBuffer.Published σ.published

namespace Counted

theorem fresh (config : UdpPublisherConfig) (pos : 0 < config.ringBufferCapacity) :
    Counted (new config pos) where
  counter := rfl
  sequences := rfl
  ring := .fresh config.ringBufferCapacity pos

theorem seq_le (h : Counted σ) {f : OwnedFrame} (hf : f ∈ σ.published) :
    f.seq.toNat ≤ σ.published.length := by
  have hmem : f.seq.toNat ∈ σ.published.map fun f => f.seq.toNat := List.mem_map_of_mem hf
  rw [h.sequences, List.mem_reverse, List.mem_range'_1] at hmem
  omega

theorem publish (h : Counted σ) (few : σ.published.length + 2 < 2 ^ 64) :
    Counted (σ.step crc32c (.publish c)) := by
  obtain ⟨-, hcounter, hring⟩ := UdpPublisher.call_stores crc32c σ.publisher c
  have hseq : (σ.publisher.nextFrame c.nowNs c.payload).seq.toNat = σ.published.length + 1 := h.counter
  refine ⟨?_, ?_, ?_⟩
  · show (σ.publisher.call crc32c c).sequenceCounter.toNat = σ.published.length + 1 + 1
    rw [hcounter, UInt64.toNat_add, h.counter, UInt64.toNat_one, Nat.mod_eq_of_lt (by omega)]
  · show List.map _ (_ :: σ.published) = (List.range' 1 (σ.published.length + 1)).reverse
    rw [List.map_cons, h.sequences, hseq, List.range'_concat, List.reverse_append]
    simp [Nat.add_comm]
  · show (σ.publisher.call crc32c c).ringBuffer.Published (_ :: σ.published)
    rw [hring]
    apply h.ring.push
    intro g hg
    have hle := h.seq_le hg
    omega

theorem restart (σ : RestartLog) (newPublisherId : UInt64) :
    Counted (σ.step crc32c (.restart newPublisherId)) where
  counter := rfl
  sequences := rfl
  ring := .clear σ.publisher.ringBuffer

/-- **Run**: as long as the `u64` numbers suffice. -/
theorem run (crc32c : List UInt8 → UInt32) (config : UdpPublisherConfig)
    (pos : 0 < config.ringBufferCapacity) (ops : List PublisherStep) :
    (Runs.run (RestartLog.step crc32c) (new config pos) ops).published.length + 1 < 2 ^ 64 →
      Counted (Runs.run (RestartLog.step crc32c) (new config pos) ops) := by
  apply Runs.always (fun σ : RestartLog => σ.published.length + 1 < 2 ^ 64 → Counted σ)
  · intro σ op ih few
    cases op with
    | publish c =>
      have few : σ.published.length + 1 + 1 < 2 ^ 64 := few
      exact (ih (by omega)).publish few
    | restart newPublisherId => exact .restart σ newPublisherId
    | receive packet => exact ih few
  · exact fun _ => .fresh config pos

theorem last_seq (h : Counted σ) {last : OwnedFrame} (hlast : last ∈ σ.published.head?) :
    last.seq.toNat = σ.published.length := by
  cases hpublished : σ.published with
  | nil =>
    rw [hpublished] at hlast
    cases hlast
  | cons newest older =>
    have hseqs := h.sequences
    rw [hpublished] at hlast hseqs
    cases hlast
    rw [List.map_cons, List.length_cons, List.range'_concat, List.reverse_append] at hseqs
    have hnewest := (List.cons_eq_cons.mp hseqs).1
    rw [List.length_cons]
    omega

/-- The retained sequences: published since the latest restart, and less than the capacity ago. -/
theorem retained_iff (h : Counted σ) (s : UInt64) :
    (∃ f, σ.publisher.ringBuffer.get s = some f) ↔
      0 < s.toNat ∧ s.toNat ≤ σ.published.length ∧
        σ.published.length < s.toNat + σ.publisher.ringBuffer.capacity.toNat := by
  have hmem : s.toNat ∈ (σ.published.map fun f => f.seq.toNat) ↔
      0 < s.toNat ∧ s.toNat ≤ σ.published.length := by
    rw [h.sequences, List.mem_reverse, List.mem_range'_1]
    omega
  rw [← and_assoc, ← hmem]
  constructor
  · rintro ⟨f, found⟩
    obtain ⟨hf, rfl, hwindow⟩ := h.ring.get_iff.mp found
    refine ⟨List.mem_map_of_mem hf, ?_⟩
    have hlast := List.head?_eq_some_head (List.ne_nil_of_mem hf)
    rw [← h.last_seq hlast]
    exact hwindow _ hlast
  · rintro ⟨hs, hwindow⟩
    obtain ⟨f, hf, hseq⟩ := List.mem_map.mp hs
    refine ⟨f, h.ring.get_iff.mpr ⟨hf, UInt64.toNat_inj.mp hseq, fun last hlast => ?_⟩⟩
    rw [h.last_seq hlast, hseq]
    exact hwindow

end Counted

theorem Counted.satisfies_iff (h : Counted σ) {req : ReplayRequestPayload}
    (ordered : req.fromSequence ≤ req.toSequence) :
    σ.publisher.ringBuffer.Satisfies req ↔
      0 < req.fromSequence.toNat ∧ req.toSequence.toNat ≤ σ.published.length ∧
        σ.published.length < req.fromSequence.toNat + σ.publisher.ringBuffer.capacity.toNat := by
  unfold BoundedRingBuffer.Satisfies
  simp only [h.retained_iff]
  constructor
  · intro satisfied
    obtain ⟨hpos, -, hwindow⟩ := satisfied req.fromSequence (UInt64.le_refl _) ordered
    exact ⟨hpos, (satisfied req.toSequence ordered (UInt64.le_refl _)).2.1, hwindow⟩
  · rintro ⟨hpos, hto, hwindow⟩ s hfrom hle
    rw [UInt64.le_iff_toNat_le] at hfrom hle
    omega

/-- No step resizes the ring. -/
theorem run_capacity (crc32c : List UInt8 → UInt32) (config : UdpPublisherConfig)
    (pos : 0 < config.ringBufferCapacity) (ops : List PublisherStep) :
    (Runs.run (RestartLog.step crc32c) (new config pos) ops).publisher.ringBuffer.capacity =
      config.ringBufferCapacity := by
  apply Runs.always fun σ : RestartLog => σ.publisher.ringBuffer.capacity = config.ringBufferCapacity
  · intro σ op same
    cases op with
    | publish c =>
      show (σ.publisher.call crc32c c).ringBuffer.capacity = config.ringBufferCapacity
      rw [(UdpPublisher.call_stores crc32c σ.publisher c).2.2, BoundedRingBuffer.push_capacity, same]
    | restart newPublisherId => exact same
    | receive packet => exact same
  · rfl

/-! ## Identity -/

/-- A response replays a frame of the namespace. -/
theorem Consistent.response (h : Consistent σ) {id requestId : UInt64} (latest : σ.latestRestart = some id)
    {f : OwnedFrame} (retained : σ.publisher.ringBuffer.get f.seq = some f) :
    InNamespace crc32c id σ.published ((responseFrame requestId f).sealed crc32c) := by
  have hf : f ∈ σ.published := List.mem_of_find?_eq_some (h.ring.latest retained)
  refine ⟨?_, fun _ => ⟨requestId, f, hf, rfl⟩⟩
  rw [OwnedFrame.publisherId_sealed]
  exact (h.own f hf).trans (h.current id latest)

/-- A reply to a request is in the namespace, or a notice under the id of the thread. -/
theorem Consistent.reply (h : Consistent σ) {id : UInt64} (latest : σ.latestRestart = some id)
    {packet reply : List UInt8} {req : ReplayRequestPayload}
    (read : requestOf crc32c σ.replayThread.codec packet = some req)
    (hreply : reply ∈ σ.emits crc32c (.receive packet)) :
    InNamespace crc32c id σ.published reply ∨
      ¬ σ.publisher.ringBuffer.Satisfies req ∧ ∃ unavail, reply =
        (unavailableFrame σ.replayThread.streamId σ.replayThread.publisherId unavail).sealed crc32c := by
  have handled := handleReplayRequest_cases crc32c σ.replayThread.codec σ.publisher.ringBuffer
    σ.replayThread.streamId σ.replayThread.publisherId (request_read read).2
  rw [← emits_request read] at handled
  generalize σ.emits crc32c (.receive packet) = packets at handled hreply
  cases handled with
  | satisfied _ responses =>
    obtain ⟨f, retained, rfl⟩ := responses reply hreply
    exact Or.inl (h.response latest retained)
  | unavailable unsatisfied unavail => exact Or.inr ⟨unsatisfied, unavail, eq_of_mem_sendFrom1500 hreply⟩

/-- The answer to a request is in the namespace exactly if the thread has the latest id or the ring
satisfies the request. -/
theorem Consistent.request_iff (h : Consistent σ) {id : UInt64} (latest : σ.latestRestart = some id)
    {packet : List UInt8} {req : ReplayRequestPayload}
    (read : requestOf crc32c σ.replayThread.codec packet = some req) :
    (∀ reply ∈ σ.emits crc32c (.receive packet), InNamespace crc32c id σ.published reply) ↔
      id = σ.replayThread.publisherId ∨ σ.publisher.ringBuffer.Satisfies req := by
  constructor
  · intro keeps
    by_contra hnot
    obtain ⟨stale, unsatisfied⟩ := not_or.mp hnot
    obtain ⟨room, ordered⟩ := request_read read
    obtain ⟨notice, sent, hid⟩ := notice_sent room ordered unsatisfied
    rw [← emits_request read] at sent
    exact stale ((keeps notice sent).publisherId.symm.trans hid)
  · intro either reply hreply
    rcases h.reply latest read hreply with inside | ⟨unsatisfied, unavail, rfl⟩
    · exact inside
    · exact .of_id (either.resolve_right unsatisfied).symm (show MessageType.replayUnavailable.asU16 ≠ _ by decide)

theorem Consistent.published (h : Consistent σ) {id : UInt64} (latest : σ.latestRestart = some id)
    {packet : List UInt8} (hpacket : packet ∈ σ.emits crc32c (.publish c)) :
    InNamespace crc32c id σ.published packet := by
  rw [mem_emits_publish hpacket]
  exact .of_id (h.current id latest) (show MessageType.data.asU16 ≠ _ by decide)

/-- **Step**: a step keeps the identity exactly if it needs no notice. -/
theorem Consistent.keepsIdentity_iff (h : Consistent σ) (op : PublisherStep) :
    σ.KeepsIdentity crc32c op ↔ σ.NeedsNoNotice crc32c op := by
  cases op with
  | publish c => exact iff_of_true (fun id latest packet => h.published latest) trivial
  | restart newPublisherId => exact iff_of_true (fun id latest => by simp [emits]) trivial
  | receive packet =>
    refine forall₂_congr fun id latest => ?_
    cases read : requestOf crc32c σ.replayThread.codec packet with
    | none =>
      rw [emits_other read]
      simp
    | some req =>
      rw [h.request_iff latest read]
      simp only [Option.some.injEq, forall_eq']

/-- A step that sends a packet outside the namespace sends a notice. -/
theorem Consistent.inNamespace (h : Consistent σ) {id : UInt64} (latest : σ.latestRestart = some id)
    (op : PublisherStep) {packet : List UInt8} (hpacket : packet ∈ σ.emits crc32c op)
    (other : (HeaderWords.ofBytes packet).rawMsgType ≠ MessageType.replayUnavailable.asU16) :
    InNamespace crc32c id σ.published packet := by
  cases op with
  | publish c => exact h.published latest hpacket
  | restart newPublisherId => cases hpacket
  | receive request =>
    cases read : requestOf crc32c σ.replayThread.codec request with
    | none =>
      rw [emits_other read] at hpacket
      cases hpacket
    | some req =>
      rcases h.reply latest read hpacket with inside | ⟨-, unavail, rfl⟩
      · exact inside
      · exact absurd (OwnedFrame.rawMsgType_sealed crc32c _) other

end RestartLog

/-- **A restarted publisher keeps its identity** exactly in the runs in which its replay thread
needs to send no notice after a restart to another id. -/
theorem restart_identity_iff (crc32c : List UInt8 → UInt32) (config : UdpPublisherConfig)
    (pos : 0 < config.ringBufferCapacity) (ops : List PublisherStep) :
    Runs.Each (RestartLog.step crc32c) (RestartLog.KeepsIdentity crc32c) (RestartLog.new config pos) ops ↔
      Runs.Each (RestartLog.step crc32c) (RestartLog.NeedsNoNotice crc32c) (RestartLog.new config pos) ops :=
  Runs.each_iff RestartLog.Consistent (fun _ op h => h.step op) (fun _ op h => h.keepsIdentity_iff op)
    (.fresh config pos)

/-- A request for frame 1 of stream 1. -/
def requestOne : List UInt8 := (requestFrame 1 ⟨7, 1, 1⟩).sealed crc32c

theorem requestOf_requestOne :
    requestOf crc32c UdpPublisherConfig.default.codec requestOne = some ⟨7, 1, 1⟩ :=
  requestOf_sealed crc32c (by decide) (by decide)

/-- The frame asked for has been published since the restart. -/
theorem restart_identity_iff_published :
    Runs.Each (RestartLog.step crc32c) (RestartLog.KeepsIdentity crc32c)
      (RestartLog.new UdpPublisherConfig.default (by decide))
      [.publish ⟨0, [1]⟩, .restart 200, .publish ⟨0, [2]⟩, .receive requestOne] := by
  refine (restart_identity_iff crc32c UdpPublisherConfig.default (by decide) _).mpr
    ⟨trivial, trivial, trivial, fun id latest => Or.inr fun req read => ?_, trivial⟩
  cases requestOf_requestOne.symm.trans read
  decide +kernel

/-- It has not: the notice goes out under the id from before the restart. -/
theorem restart_identity_lost :
    ¬ Runs.Each (RestartLog.step crc32c) (RestartLog.KeepsIdentity crc32c)
      (RestartLog.new UdpPublisherConfig.default (by decide)) [.restart 200, .receive requestOne] := by
  rintro ⟨-, keeps, -⟩
  have sent : RestartLog.emits crc32c
      (RestartLog.step crc32c (RestartLog.new UdpPublisherConfig.default (by decide)) (.restart 200))
      (.receive requestOne) = [(unavailableFrame 1 100 ⟨7, 1, 1⟩).sealed crc32c] := by
    refine Eq.trans (RestartLog.emits_request requestOf_requestOne) ?_
    decide +kernel
  have inside := keeps 200 rfl
  rw [sent] at inside
  have hid := (inside _ (List.mem_singleton_self _)).publisherId
  rw [OwnedFrame.publisherId_sealed] at hid
  exact absurd hid (by decide)

/-- **What a restarted publisher can replay**: a request is satisfied exactly if all it asks for has
been published since the latest restart, and the ring has room for all that followed. -/
theorem restart_satisfies_iff (crc32c : List UInt8 → UInt32) (config : UdpPublisherConfig)
    (pos : 0 < config.ringBufferCapacity) (ops : List PublisherStep) {req : ReplayRequestPayload}
    (ordered : req.fromSequence ≤ req.toSequence) :
    let σ := Runs.run (RestartLog.step crc32c) (RestartLog.new config pos) ops
    σ.published.length + 1 < 2 ^ 64 →
      (σ.publisher.ringBuffer.Satisfies req ↔
        0 < req.fromSequence.toNat ∧ req.toSequence.toNat ≤ σ.published.length ∧
          σ.published.length < req.fromSequence.toNat + config.ringBufferCapacity.toNat) := by
  intro σ few
  rw [← RestartLog.run_capacity crc32c config pos ops]
  exact (RestartLog.Counted.run crc32c config pos ops few).satisfies_iff ordered

/-- **Only notices leave the namespace**: in every run the DATA packets and the responses after a
restart are of the latest one. -/
theorem restart_namespace (crc32c : List UInt8 → UInt32) (config : UdpPublisherConfig)
    (pos : 0 < config.ringBufferCapacity) (ops : List PublisherStep) (op : PublisherStep) {id : UInt64} :
    let σ := Runs.run (RestartLog.step crc32c) (RestartLog.new config pos) ops
    σ.latestRestart = some id → ∀ packet ∈ σ.emits crc32c op,
      (HeaderWords.ofBytes packet).rawMsgType ≠ MessageType.replayUnavailable.asU16 →
        InNamespace crc32c id σ.published packet := by
  intro σ latest packet hpacket other
  have consistent : RestartLog.Consistent σ :=
    Runs.always RestartLog.Consistent (fun _ op h => h.step op) (.fresh config pos)
  exact consistent.inNamespace latest op hpacket other

end Rtdp
