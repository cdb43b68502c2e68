import Rtdp.Core.Delivery.InTurn
import Rtdp.Transport.Paths
import Rtdp.Transport.System

/-!
# Over a network that loses nothing

The network hands over each packet of the publisher once and in order. Then the
worker forwards what was published, frame by frame, in every mode, and sends no
request: the publisher's numbering, the codecs at both ends and the receiver fit
together. How far the publisher may restart depends on the mode.
-/

namespace Rtdp

/-- The system over such a network, with the packets that are still on their way. -/
abbrev DirectSystem := Network.Queue Source Subscriber (List UInt8) (List UInt8)

/-- The frame a worker of any configuration makes of the DATA packet of a frame. -/
def OwnedFrame.received (crc32c : List UInt8 → UInt32) (f : OwnedFrame) : OwnedFrame :=
  (f.sealedView crc32c).toOwned

namespace DirectSystem

variable (crc32c : List UInt8 → UInt32) (config : UdpSubscriberConfig)

def new (pubConfig : UdpPublisherConfig) (pos : 0 < pubConfig.ringBufferCapacity)
    (config : UdpSubscriberConfig) : DirectSystem :=
  Network.Queue.of (Source.new pubConfig pos) (Subscriber.spawn config)

def step (sys : DirectSystem) (move : SystemMove) : DirectSystem :=
  Network.Queue.step (sourceParty crc32c) (workerParty crc32c config) sys move

/-- Packets are handed over in order. -/
def InOrder (sys : DirectSystem) (move : SystemMove) : Prop :=
  Network.Queue.InOrder (sourceParty crc32c) (workerParty crc32c config) sys move

/-- What the application does: it publishes payloads that fit at both ends, while the numbers suffice,
and restarts the publisher only as the mode can follow. -/
def Orderly (sys : DirectSystem) : SystemMove → Prop
  | .left (.publish c) =>
    sys.link.left.publisher.Fits c.payload ∧ 48 + c.payload.length ≤ config.maxFrameSize ∧
      48 + c.payload.length ≤ MAX_DATAGRAM ∧ sys.link.left.publisher.sequenceCounter.toNat + 1 < 2 ^ 64
  | .left (.restart newPublisherId) => MayStart config.mode sys.link.left.history newPublisherId
  | .left (.publishFrame _ _) => False
  | .left (.storeInRingOnly _) => False
  | .left (.receive _) => True
  | .right _ => True

end DirectSystem

/-- Each of the frames, newest first, is the next one after those before it. -/
def AllNext (m : DeliveryMode) : List OwnedFrame → Prop
  | [] => True
  | f :: fs => Next m fs f ∧ f.seq.toNat + 1 < 2 ^ 64 ∧ AllNext m fs

/-- The next frame will be the next one. -/
def Source.Ready (m : DeliveryMode) (source : Source) : Prop :=
  source.publisher.sequenceCounter = 1 ∧ MayStart m source.history source.publisher.config.publisherId ∨
    ∃ last, source.history.head? = some last ∧
      source.publisher.config.publisherId = last.header.publisherId ∧
      source.publisher.sequenceCounter.toNat = last.seq.toNat + 1

/-- A worker of this configuration reads the DATA packet of the frame, and nothing of it is changed. -/
structure Readable (crc32c : List UInt8 → UInt32) (config : UdpSubscriberConfig) (f : OwnedFrame) : Prop where
  event : ∀ now, eventOf crc32c config.codec config.streamId now (f.sealed crc32c) =
    some (.data now (f.received crc32c))
  same : (f.received crc32c).withoutChecksum = f.withoutChecksum

/-- The frames are split into those that wait and those that were forwarded. -/
structure Accounts (crc32c : List UInt8 → UInt32) (m : DeliveryMode) (sys : DirectSystem)
    (waiting handed : List OwnedFrame) : Prop where
  history : sys.link.left.history = waiting ++ handed
  packets : sys.waiting = waiting.reverse.map (·.sealed crc32c)
  inTurn : InTurn m (handed.map (·.received crc32c)) sys.link.right.receiver
  forwarded : sys.link.right.forwarded = handed.reverse.map (·.received crc32c)

/-- What a run over such a network keeps. -/
structure Flows (crc32c : List UInt8 → UInt32) (config : UdpSubscriberConfig) (sys : DirectSystem) : Prop where
  streamId : sys.link.left.publisher.config.streamId = config.streamId
  ready : sys.link.left.Ready config.mode
  numbered : AllNext config.mode sys.link.left.history
  readable : ∀ f ∈ sys.link.left.history, Readable crc32c config f
  accounts : ∃ waiting handed, Accounts crc32c config.mode sys waiting handed
  requested : sys.link.right.requested = []
  toLeft : sys.link.toLeft = []

variable {crc32c : List UInt8 → UInt32} {config : UdpSubscriberConfig} {sys : DirectSystem}
  {waiting handed : List OwnedFrame} {m : DeliveryMode} {f : OwnedFrame}

/-! ## Frames in turn on the wire -/

/-- Being the next one is a matter of publishers and sequences. -/
theorem Next.received (h : Next m handed f) :
    Next m (handed.map (·.received crc32c)) (f.received crc32c) := by
  cases h with
  | start first may =>
    refine .start first ?_
    cases m with
    | bestEffort => trivial
    | atLeastOnce => trivial
    | latest =>
      obtain rfl : handed = [] := may
      rfl
    | reliableOrdered =>
      intro g hg
      obtain ⟨g', hg', rfl⟩ := List.mem_map.mp hg
      exact may g' hg'
  | go last head same hseq =>
    exact .go (last.received crc32c) (by rw [List.head?_map, head, Option.map_some]) same hseq

theorem AllNext.of_append (h : AllNext m (waiting ++ handed)) : AllNext m handed := by
  induction waiting with
  | nil => exact h
  | cons f fs ih => exact ih h.2.2

/-- What `publish` sends is readable for a worker of the same stream with room for it. -/
theorem readable_nextFrame (pub : UdpPublisher) (streamId : pub.config.streamId = config.streamId)
    {c : PublishCall} (room : 48 + c.payload.length ≤ config.maxFrameSize)
    (small : 48 + c.payload.length ≤ MAX_DATAGRAM) :
    Readable crc32c config (pub.nextFrame c.nowNs c.payload) := by
  have hpayload : c.payload.length < 2 ^ 32 := by
    have hmax : MAX_DATAGRAM = 65507 := rfl
    omega
  refine ⟨fun now => ?_, rfl⟩
  rw [← streamId]
  exact eventOf_published crc32c now pub c.nowNs room hpayload

variable {source : Source}

theorem Source.Ready.next (h : source.Ready m) (c : PublishCall) :
    Next m source.history (source.publisher.nextFrame c.nowNs c.payload) := by
  rcases h with ⟨first, may⟩ | ⟨last, head, same, hseq⟩
  · exact .start first may
  · exact .go last head same hseq

theorem Source.ready_publish (c : PublishCall) (few : source.publisher.sequenceCounter.toNat + 1 < 2 ^ 64) :
    (source.step crc32c (.publish c)).Ready m := by
  obtain ⟨hconfig, hcounter, -⟩ := UdpPublisher.call_stores crc32c source.publisher c
  refine Or.inr ⟨_, rfl, ?_, ?_⟩
  · show (source.publisher.call crc32c c).config.publisherId = _
    rw [hconfig]
    rfl
  · show (source.publisher.call crc32c c).sequenceCounter.toNat = _
    rw [hcounter]
    exact Counter.toNat_succ few

/-- A publish puts its packet on the wire. -/
theorem emits_publish {c : PublishCall} (fits : source.publisher.Fits c.payload)
    (small : 48 + c.payload.length ≤ MAX_DATAGRAM) :
    (sourceParty crc32c).sends source (.publish c) =
      [(source.publisher.nextFrame c.nowNs c.payload).sealed crc32c] := by
  have hsent : (source.publisher.call crc32c c).sent =
      source.publisher.sent ++ [(source.publisher.nextFrame c.nowNs c.payload).sealed crc32c] := by
    rw [UdpPublisher.call, UdpPublisher.publish_ok crc32c c.nowNs fits]
  have hlen : ((source.publisher.nextFrame c.nowNs c.payload).sealed crc32c).length = 48 + c.payload.length := by
    rw [OwnedFrame.sealed, OwnedFrame.wireBytes_length]
    rfl
  show (List.drop _ (source.publisher.call crc32c c).sent).filter Sendable = _
  rw [hsent, List.drop_left]
  refine List.filter_eq_self.mpr fun packet hpacket => ?_
  rw [List.mem_singleton.mp hpacket, Sendable, decide_eq_true_iff, hlen]
  exact small

/-- A frame that is passed on by itself is forwarded, and nothing is asked for. -/
theorem handleData_passed {sub : Subscriber} {now : Instant}
    (passed : InTurn.Passed m handed f (sub.receiver.processDataFrame now f)) :
    sub.handleData now f =
      { sub with
        receiver := (sub.receiver.processDataFrame now f).2
        forwarded := sub.forwarded ++ [f] } := by
  have hresult : sub.receiver.processDataFrame now f =
      (.ok ([f], none), (sub.receiver.processDataFrame now f).2) := Prod.ext passed.outcome rfl
  rw [Subscriber.handleData, hresult]
  simp only [Option.toList_none, List.append_nil]

/-! ## Steps -/

namespace Flows

theorem fresh (crc32c : List UInt8 → UInt32) (pubConfig : UdpPublisherConfig)
    (pos : 0 < pubConfig.ringBufferCapacity) (config : UdpSubscriberConfig)
    (same : pubConfig.streamId = config.streamId) :
    Flows crc32c config (DirectSystem.new pubConfig pos config) where
  streamId := same
  ready := by
    refine Or.inl ⟨rfl, ?_⟩
    cases config.mode with
    | bestEffort => trivial
    | latest => rfl
    | atLeastOnce => trivial
    | reliableOrdered => exact fun f hf => absurd hf List.not_mem_nil
  numbered := trivial
  readable := fun f hf => absurd hf List.not_mem_nil
  accounts := ⟨[], [], rfl, rfl, .fresh _ _ _, rfl⟩
  requested := rfl
  toLeft := rfl

theorem publish (h : Flows crc32c config sys) {c : PublishCall}
    (orderly : DirectSystem.Orderly config sys (.left (.publish c))) :
    Flows crc32c config (DirectSystem.step crc32c config sys (.left (.publish c))) := by
  obtain ⟨fits, room, small, few⟩ := orderly
  obtain ⟨waiting, handed, account⟩ := h.accounts
  have hsends : (sourceParty crc32c).sends sys.link.left (.publish c) =
      [(sys.link.left.publisher.nextFrame c.nowNs c.payload).sealed crc32c] := emits_publish fits small
  obtain ⟨hconfig, -, -⟩ := UdpPublisher.call_stores crc32c sys.link.left.publisher c
  refine ⟨?_, Source.ready_publish c few, ⟨h.ready.next c, few, h.numbered⟩, ?_, ?_, h.requested, h.toLeft⟩
  · show (sys.link.left.publisher.call crc32c c).config.streamId = _
    rw [hconfig]
    exact h.streamId
  · exact List.forall_mem_cons.mpr ⟨readable_nextFrame _ h.streamId room small, h.readable⟩
  · refine ⟨_ :: waiting, handed, congrArg _ account.history, ?_, account.inTurn, account.forwarded⟩
    show sys.waiting ++ (sourceParty crc32c).sends sys.link.left (.publish c) = _
    rw [hsends, account.packets, List.reverse_cons, List.map_append]
    rfl

theorem restart (h : Flows crc32c config sys) {id : UInt64}
    (orderly : DirectSystem.Orderly config sys (.left (.restart id))) :
    Flows crc32c config (DirectSystem.step crc32c config sys (.left (.restart id))) := by
  obtain ⟨waiting, handed, account⟩ := h.accounts
  refine ⟨h.streamId, Or.inl ⟨rfl, orderly⟩, h.numbered, h.readable, ?_, h.requested, h.toLeft⟩
  refine ⟨waiting, handed, account.history, ?_, account.inTurn, account.forwarded⟩
  show sys.waiting ++ (List.drop sys.link.left.publisher.sent.length sys.link.left.publisher.sent).filter Sendable = _
  rw [List.drop_length, List.filter_nil, List.append_nil]
  exact account.packets

/-- With nothing outstanding, a check of the timeouts does nothing. -/
theorem timeouts (h : Flows crc32c config sys) (now : Instant) (order : List UInt64) :
    Flows crc32c config (DirectSystem.step crc32c config sys (.right (.timeouts now order))) := by
  obtain ⟨waiting, handed, account⟩ := h.accounts
  have hidle : sys.link.right.work crc32c config (.timeouts now order) = sys.link.right := by
    show sys.link.right.handleTimeouts now order = _
    rw [Subscriber.handleTimeouts, RecoveryEngine.checkTimeouts_idle account.inTurn.outstanding]
    simp only [List.append_nil]
  have hquiet : (workerParty crc32c config).sends sys.link.right (.timeouts now order) = [] := by
    simp only [workerParty, hidle, List.drop_length, List.flatMap_nil, List.filter_nil]
  have hsame : DirectSystem.step crc32c config sys (.right (.timeouts now order)) = sys := by
    simp only [DirectSystem.step, Network.Queue.step, Network.Link.step, hquiet, List.append_nil]
    rw [show (workerParty crc32c config).step sys.link.right (.timeouts now order) = sys.link.right from hidle]
    rfl
  rw [hsame]
  exact h

/-- The packet handed over is that of the oldest frame that waits: it is forwarded. -/
theorem packet (h : Flows crc32c config sys) (now : Instant) {bytes : List UInt8}
    (inOrder : DirectSystem.InOrder crc32c config sys (.right (.packet now bytes))) :
    Flows crc32c config (DirectSystem.step crc32c config sys (.right (.packet now bytes))) := by
  obtain ⟨waiting, handed, account⟩ := h.accounts
  have hhead : sys.waiting.head? = some bytes := inOrder bytes rfl
  obtain rfl | ⟨later, f, rfl⟩ := waiting.eq_nil_or_concat
  · rw [account.packets] at hhead
    cases hhead
  · rw [List.concat_eq_append] at account
    have hpackets := account.packets
    rw [List.reverse_append, List.reverse_singleton, List.singleton_append, List.map_cons] at hpackets
    obtain rfl : f.sealed crc32c = bytes := by
      rw [hpackets] at hhead
      exact Option.some.inj hhead
    have hhistory : sys.link.left.history = later ++ (f :: handed) := by
      rw [account.history, List.append_assoc, List.singleton_append]
    have numbered := h.numbered
    rw [hhistory] at numbered
    obtain ⟨next, few, -⟩ := numbered.of_append
    have readable := h.readable f (by rw [hhistory]; exact List.mem_append_right _ List.mem_cons_self)
    have passed := account.inTurn.step now next.received few
    have hwork : sys.link.right.work crc32c config (.packet now (f.sealed crc32c)) =
        { sys.link.right with
          receiver := (sys.link.right.receiver.processDataFrame now (f.received crc32c)).2
          forwarded := sys.link.right.forwarded ++ [f.received crc32c] } := by
      simp only [Subscriber.work, Subscriber.turn, readable.event now]
      exact handleData_passed passed
    have hquiet : (workerParty crc32c config).sends sys.link.right (.packet now (f.sealed crc32c)) = [] := by
      simp only [workerParty, hwork, List.drop_length, List.flatMap_nil, List.filter_nil]
    refine ⟨h.streamId, h.ready, h.numbered, h.readable, ⟨later, f :: handed, hhistory, ?_, ?_, ?_⟩, ?_, ?_⟩
    · show sys.waiting.tail = _
      rw [hpackets]
      rfl
    · show InTurn config.mode _ (sys.link.right.work crc32c config (.packet now (f.sealed crc32c))).receiver
      rw [hwork]
      exact passed.after
    · show (sys.link.right.work crc32c config (.packet now (f.sealed crc32c))).forwarded = _
      rw [hwork, List.reverse_cons, List.map_append, ← account.forwarded]
      rfl
    · show (sys.link.right.work crc32c config (.packet now (f.sealed crc32c))).requested = _
      rw [hwork]
      exact h.requested
    · show sys.link.toLeft ++ (workerParty crc32c config).sends sys.link.right (.packet now (f.sealed crc32c)) = _
      rw [hquiet, List.append_nil]
      exact h.toLeft

/-- **Step** -/
theorem step (h : Flows crc32c config sys) {move : SystemMove}
    (inOrder : DirectSystem.InOrder crc32c config sys move) (orderly : DirectSystem.Orderly config sys move) :
    Flows crc32c config (DirectSystem.step crc32c config sys move) := by
  cases move with
  | left action =>
    cases action with
    | publish c => exact h.publish orderly
    | publishFrame frame storeInRing => exact orderly.elim
    | storeInRingOnly frame => exact orderly.elim
    | restart id => exact h.restart orderly
    | receive request =>
      -- no request was ever sent
      have hsent : request ∈ sys.link.toLeft := inOrder request rfl
      rw [h.toLeft] at hsent
      cases hsent
  | right t =>
    cases t with
    | timeouts now order => exact h.timeouts now order
    | packet now bytes => exact h.packet now inOrder

end Flows

/-- **Over a network that loses nothing** everything arrives, once and in order, in every mode and at any
two configurations of one stream: the frames published are those the worker has forwarded, up to their
checksums, and then those whose packets are on their way. The worker sends nothing. -/
theorem system_direct (crc32c : List UInt8 → UInt32) (pubConfig : UdpPublisherConfig)
    (pos : 0 < pubConfig.ringBufferCapacity) (config : UdpSubscriberConfig)
    (same : pubConfig.streamId = config.streamId) (moves : List SystemMove)
    (inOrder : Runs.Each (DirectSystem.step crc32c config) (DirectSystem.InOrder crc32c config)
      (DirectSystem.new pubConfig pos config) moves)
    (orderly : Runs.Each (DirectSystem.step crc32c config) (DirectSystem.Orderly config)
      (DirectSystem.new pubConfig pos config) moves) :
    let sys := Runs.run (DirectSystem.step crc32c config) (DirectSystem.new pubConfig pos config) moves
    sys.link.right.requested = [] ∧ sys.link.toLeft = [] ∧
      ∃ handed waiting, sys.link.left.history.reverse = handed ++ waiting ∧
        sys.link.right.forwarded.map OwnedFrame.withoutChecksum = handed.map OwnedFrame.withoutChecksum ∧
        sys.waiting = waiting.map (·.sealed crc32c) := by
  intro sys
  have flows : Flows crc32c config sys :=
    Runs.invariant (Flows crc32c config) (fun _ _ h hmove => h.step hmove.1 hmove.2)
      (.fresh crc32c pubConfig pos config same) (inOrder.and orderly)
  obtain ⟨waiting, handed, account⟩ := flows.accounts
  refine ⟨flows.requested, flows.toLeft, handed.reverse, waiting.reverse, ?_, ?_, account.packets⟩
  · rw [account.history, List.reverse_append]
  · rw [account.forwarded, List.map_map]
    refine List.map_congr_left fun f hf => (flows.readable f ?_).same
    rw [account.history]
    exact List.mem_append_right _ (List.mem_reverse.mp hf)

/-- Two frames, the second after a restart. -/
def acrossRestart : List SystemMove :=
  [.left (.publish ⟨0, [7]⟩), .left (.restart 200), .left (.publish ⟨0, [8]⟩),
    .right (.packet 0 ((OwnedFrame.newData 1 1 0 100 [7]).sealed Rtdp.crc32c)),
    .right (.packet 0 ((OwnedFrame.newData 1 1 0 200 [8]).sealed Rtdp.crc32c))]

theorem system_direct_restart :
    let sys := Runs.run (DirectSystem.step Rtdp.crc32c UdpSubscriberConfig.default)
      (DirectSystem.new UdpPublisherConfig.default (by decide) UdpSubscriberConfig.default) acrossRestart
    sys.link.right.requested = [] ∧ sys.link.toLeft = [] ∧
      ∃ handed waiting, sys.link.left.history.reverse = handed ++ waiting ∧
        sys.link.right.forwarded.map OwnedFrame.withoutChecksum = handed.map OwnedFrame.withoutChecksum ∧
        sys.waiting = waiting.map (·.sealed Rtdp.crc32c) := by
  apply system_direct Rtdp.crc32c UdpPublisherConfig.default (by decide) UdpSubscriberConfig.default rfl
    acrossRestart
  · refine ⟨nofun, nofun, nofun, ?_, ?_, trivial⟩
    all_goals
      rintro _ ⟨rfl⟩
      decide +kernel
  · refine ⟨⟨by decide +kernel, by decide, by decide, by decide +kernel⟩, ?_,
      ⟨by decide +kernel, by decide, by decide, by decide +kernel⟩, trivial, trivial, trivial⟩
    exact List.forall_mem_singleton.mpr (by decide +kernel)

end Rtdp
