import Rtdp.Transport.Completeness

/-!
# Nothing published is missing

One publisher that only publishes and answers, and one worker in
`ReliableOrdered` or `AtLeastOnce` mode, over any network. As long as no request
is refused or given up, whenever none is outstanding all frames published up to
a forwarded one have been forwarded. Nothing more is assumed of what the worker
is handed: frames are numbered and responses fit their requests because the
publisher made them.
-/

namespace Rtdp

/-- The publisher keeps its id and sends no raw frames. -/
def SourceAction.Steady : SourceAction → Prop
  | .publish _ => True
  | .receive _ => True
  | _ => False

instance : DecidablePred SourceAction.Steady
  | .publish _ => inferInstanceAs (Decidable True)
  | .receive _ => inferInstanceAs (Decidable True)
  | .publishFrame _ _ => inferInstanceAs (Decidable False)
  | .storeInRingOnly _ => inferInstanceAs (Decidable False)
  | .restart _ => inferInstanceAs (Decidable False)

namespace Source

variable {crc32c : List UInt8 → UInt32} {config : UdpPublisherConfig} {source : Source}

/-- A publisher that never restarted. -/
def log (self : Source) : RestartLog where
  publisher := self.publisher
  replayThread := self.replayThread
  latestRestart := none
  published := self.history

/-- All frames carry the stream and the id of the publisher, and are numbered from 1. -/
structure Numbered (config : UdpPublisherConfig) (source : Source) : Prop where
  configured : source.publisher.config = config
  listener : source.replayThread = ReplayThread.spawn config
  own : ∀ f ∈ source.history, f.header.publisherId = config.publisherId
  stream : ∀ f ∈ source.history, f.header.streamId = config.streamId
  counted : source.log.Counted

namespace Numbered

theorem fresh (config : UdpPublisherConfig) (pos : 0 < config.ringBufferCapacity) :
    Numbered config (Source.new config pos) where
  configured := rfl
  listener := rfl
  own := fun _ hf => absurd hf List.not_mem_nil
  stream := fun _ hf => absurd hf List.not_mem_nil
  counted := .fresh config pos

/-- **Step**: as long as the `u64` numbers suffice. -/
theorem step (h : Numbered config source) {action : SourceAction} (steady : action.Steady)
    (few : (source.step crc32c action).history.length + 1 < 2 ^ 64) :
    Numbered config (source.step crc32c action) := by
  cases action with
  | publish c =>
    obtain ⟨hconfig, -, -⟩ := UdpPublisher.call_stores crc32c source.publisher c
    refine ⟨hconfig.trans h.configured, h.listener, fun f hf => ?_, fun f hf => ?_, h.counted.publish few⟩
    · rcases List.mem_cons.mp hf with rfl | hold
      · exact congrArg UdpPublisherConfig.publisherId h.configured
      · exact h.own f hold
    · rcases List.mem_cons.mp hf with rfl | hold
      · exact congrArg UdpPublisherConfig.streamId h.configured
      · exact h.stream f hold
  | receive packet => exact h
  | publishFrame frame storeInRing => exact steady.elim
  | storeInRingOnly frame => exact steady.elim
  | restart newPublisherId => exact steady.elim

theorem pos (h : Numbered config source) {f : OwnedFrame} (hf : f ∈ source.history) : 0 < f.seq := by
  have hmem : f.seq.toNat ∈ source.history.map fun f => f.seq.toNat := List.mem_map_of_mem hf
  have hseqs : source.history.map (fun f => f.seq.toNat) = _ := h.counted.sequences
  rw [hseqs, List.mem_reverse, List.mem_range'_1] at hmem
  rw [UInt64.lt_iff_toNat_lt, UInt64.toNat_zero]
  exact hmem.1

theorem unique (h : Numbered config source) {f g : OwnedFrame} (hf : f ∈ source.history)
    (hg : g ∈ source.history) (same : f.seq = g.seq) : f = g := by
  have hnodup : (source.history.map fun f => f.seq.toNat).Nodup := by
    have hseqs : source.history.map (fun f => f.seq.toNat) = _ := h.counted.sequences
    rw [hseqs, List.nodup_reverse]
    exact List.nodup_range'
  exact List.inj_on_of_nodup_map hnodup hf hg (congrArg UInt64.toNat same)

end Numbered

theorem history_length_le (crc32c : List UInt8 → UInt32) (source : Source) (action : SourceAction) :
    source.history.length ≤ (source.step crc32c action).history.length := by
  cases action with
  | publish c => exact Nat.le_succ _
  | publishFrame frame storeInRing => exact Nat.le_succ _
  | storeInRingOnly frame => exact Nat.le_succ _
  | restart newPublisherId => exact Nat.le_refl _
  | receive packet => exact Nat.le_refl _

end Source

/-- What a numbered publisher causes is fitting. -/
theorem Genuine.fitting {source : Source} {sub : Subscriber} {e : Event} {pubConfig : UdpPublisherConfig}
    {cfg : RecoveryConfig} (h : Genuine source sub e) (numbered : source.Numbered pubConfig)
    (ledger : sub.KeepsLedger cfg) : sub.Fitting e := by
  have fits := h.fitsRequest ledger
  cases h with
  | data now known replayed =>
    show 0 < _
    rw [OwnedFrame.seq, replayed.sequence]
    exact numbered.pos known
  | response issued known replayed inRange => exact fits.2.2
  | notice issued first last => trivial

theorem Genuine.ofPublisher {source : Source} {sub : Subscriber} {e : Event} {pubConfig : UdpPublisherConfig}
    (h : Genuine source sub e) (numbered : source.Numbered pubConfig) :
    e.OfPublisher pubConfig.publisherId := by
  cases h with
  | data now known replayed => exact replayed.publisherId.trans (numbered.own _ known)
  | response issued known replayed inRange => trivial
  | notice issued first last => trivial

namespace System

variable {crc32c : List UInt8 → UInt32} {config : UdpSubscriberConfig} {pubConfig : UdpPublisherConfig}
  {pos : 0 < pubConfig.ringBufferCapacity} {sys : System} {move : SystemMove} {moves : List SystemMove}

/-- The event of a turn, if any. -/
def eventOfTurn (crc32c : List UInt8 → UInt32) (config : UdpSubscriberConfig) : Turn → Option Event
  | .timeouts now order => some (.timeouts now order)
  | .packet now bytes => eventOf crc32c config.codec config.streamId now bytes

/-- The publisher is steady, and the worker persists. -/
def Lasting (crc32c : List UInt8 → UInt32) (config : UdpSubscriberConfig) (sys : System) : SystemMove → Prop
  | .left action => action.Steady
  | .right t => ∀ e ∈ eventOfTurn crc32c config t, sys.right.Persists e

instance (sys : System) : DecidablePred (Lasting crc32c config sys)
  | .left action => inferInstanceAs (Decidable action.Steady)
  | .right _ => inferInstanceAs (Decidable (∀ e ∈ _, _))

/-- The numbers of frames and requests suffice. -/
def Few (sys : System) : Prop :=
  sys.left.history.length + 1 < 2 ^ 64 ∧ sys.right.requested.length + 1 < 2 ^ 64

/-- What a lasting run keeps on top of what every run keeps. -/
structure Converging (pubConfig : UdpPublisherConfig) (config : UdpSubscriberConfig) (sys : System) : Prop where
  numbered : sys.left.Numbered pubConfig
  ledger : sys.right.KeepsLedger config.recoveryConfig
  closing : sys.right.Closing pubConfig.publisherId

theorem Converging.worker (h : Converging pubConfig config sys) {e : Event}
    (genuine : Genuine sys.left sys.right e ∨ ∃ now order, e = .timeouts now order)
    (persists : sys.right.Persists e) (few : (sys.right.step e).requested.length + 1 < 2 ^ 64) :
    (sys.right.step e).KeepsLedger config.recoveryConfig ∧
      (sys.right.step e).Closing pubConfig.publisherId ∧
      ∀ k, sys.right.Has k → (sys.right.step e).Has k := by
  have hfits : e.OfPublisher pubConfig.publisherId ∧ sys.right.Fitting e := by
    rcases genuine with genuine | ⟨now, order, rfl⟩
    · exact ⟨genuine.ofPublisher h.numbered, genuine.fitting h.numbered h.ledger⟩
    · exact ⟨trivial, trivial⟩
  obtain ⟨closing, grow, -⟩ := h.closing.step h.ledger hfits.1 ⟨hfits.2, persists⟩
  exact ⟨h.ledger.step e few, closing, grow⟩

/-- **Step**: what the worker has only grows. -/
theorem Converging.step (h : Converging pubConfig config sys) (lasting : Lasting crc32c config sys move)
    (holds : Network.Link.Holds Sound (ToSubscriber crc32c) (ToPublisher crc32c config.streamId) sys)
    (delivers : Delivers crc32c config sys move) (few : Few (step crc32c config sys move)) :
    Converging pubConfig config (step crc32c config sys move) ∧
      ∀ k, sys.right.Has k → (step crc32c config sys move).right.Has k := by
  cases move with
  | left action => exact ⟨⟨h.numbered.step lasting few.1, h.ledger, h.closing⟩, fun _ hk => hk⟩
  | right t =>
    have few : (sys.right.turn crc32c config.codec config.streamId t).requested.length + 1 < 2 ^ 64 := few.2
    suffices hworker :
        (sys.right.turn crc32c config.codec config.streamId t).KeepsLedger config.recoveryConfig ∧
          (sys.right.turn crc32c config.codec config.streamId t).Closing pubConfig.publisherId ∧
          ∀ k, sys.right.Has k → (sys.right.turn crc32c config.codec config.streamId t).Has k from
      ⟨⟨h.numbered, hworker.1, hworker.2.1⟩, hworker.2.2⟩
    rcases sys.right.turn_cases crc32c config.codec config.streamId t with
      hidle | ⟨now, order, rfl, hstep⟩ | ⟨now, bytes, e, rfl, hevent, hstep⟩
    · rw [hidle]
      exact ⟨h.ledger, h.closing, fun _ hk => hk⟩
    · rw [hstep] at few ⊢
      exact h.worker (Or.inr ⟨now, order, rfl⟩) (lasting _ rfl) few
    · rw [hstep] at few ⊢
      have known := holds.toRight bytes (delivers bytes rfl)
      exact h.worker (Or.inl (genuine_of_onWire holds.parties.data known hevent)) (lasting e hevent) few

theorem few_of_step (few : Few (step crc32c config sys move)) : Few sys := by
  obtain ⟨hleft, hright⟩ := few
  cases move with
  | left action =>
    have hle := sys.left.history_length_le crc32c action
    exact ⟨lt_of_le_of_lt (Nat.succ_le_succ hle) hleft, hright⟩
  | right t =>
    obtain ⟨batch, hbatch⟩ := sys.right.turn_requested crc32c config.codec config.streamId t
    have hright : (sys.right.turn crc32c config.codec config.streamId t).requested.length + 1 < 2 ^ 64 := hright
    rw [hbatch, List.length_append] at hright
    exact ⟨hleft, by omega⟩

theorem few_of_run (few : Few (Runs.run (step crc32c config) sys moves)) : Few sys := by
  induction moves generalizing sys with
  | nil => exact few
  | cons move moves ih => exact few_of_step (ih few)

/-- **Run** -/
theorem Converging.run (h : Converging pubConfig config sys)
    (holds : Network.Link.Holds Sound (ToSubscriber crc32c) (ToPublisher crc32c config.streamId) sys)
    (possible : Possible crc32c config sys moves)
    (lasting : Runs.Each (System.step crc32c config) (Lasting crc32c config) sys moves)
    (few : Few (Runs.run (System.step crc32c config) sys moves)) :
    Converging pubConfig config (Runs.run (System.step crc32c config) sys moves) ∧
      ∀ k, sys.right.Has k → (Runs.run (System.step crc32c config) sys moves).right.Has k := by
  induction moves generalizing sys with
  | nil => exact ⟨h, fun _ hk => hk⟩
  | cons move moves ih =>
    obtain ⟨⟨delivers, delivered⟩, data, datas⟩ := possible
    obtain ⟨hstep, grow⟩ := h.step lasting.1 holds delivers (few_of_run few)
    obtain ⟨hrun, grows⟩ := ih hstep (holds_step holds delivers data) ⟨delivered, datas⟩ lasting.2 few
    exact ⟨hrun, fun k hk => grows k (grow k hk)⟩

theorem converging_new (recovers : config.mode = .reliableOrdered ∨ config.mode = .atLeastOnce) :
    Converging pubConfig config (new pubConfig pos config) :=
  ⟨.fresh _ _, .fresh _ _ _, .fresh _ _ _ recovers⟩

/-- Once nothing is outstanding, each frame up to a sequence the worker has is forwarded. -/
theorem Converging.forwarded_of_idle (h : Converging pubConfig config sys)
    (holds : Network.Link.Holds Sound (ToSubscriber crc32c) (ToPublisher crc32c config.streamId) sys)
    (idle : sys.right.receiver.recovery.outstandingRequests = ∅) {f : OwnedFrame} {s : UInt64}
    (hf : f ∈ sys.left.history) (has : sys.right.Has s) (hle : f.seq ≤ s) :
    ∃ g ∈ sys.right.forwarded, Replayed f g := by
  obtain ⟨g, hg, hseq⟩ := List.mem_map.mp (h.closing.forwarded_of_idle idle has (h.numbered.pos hf) hle)
  obtain ⟨f', hf', replayed⟩ := holds.parties.carries.forwarded g hg
  obtain rfl := h.numbered.unique hf' hf (replayed.sequence.symm.trans hseq)
  exact ⟨g, hg, replayed⟩

end System

/-- **Convergence**: whatever the network loses, repeats, delays and reorders, as long as no request is
refused or given up: whenever none is outstanding, each frame published up to a forwarded one has been
forwarded. -/
theorem system_complete (crc32c : List UInt8 → UInt32) (pubConfig : UdpPublisherConfig)
    (pos : 0 < pubConfig.ringBufferCapacity) (config : UdpSubscriberConfig)
    (recovers : config.mode = .reliableOrdered ∨ config.mode = .atLeastOnce) (moves : List SystemMove)
    (possible : System.Possible crc32c config (System.new pubConfig pos config) moves)
    (lasting : Runs.Each (System.step crc32c config) (System.Lasting crc32c config)
      (System.new pubConfig pos config) moves) :
    let sys := Runs.run (System.step crc32c config) (System.new pubConfig pos config) moves
    System.Few sys → sys.right.receiver.recovery.outstandingRequests = ∅ →
      ∀ f ∈ sys.left.history, ∀ g ∈ sys.right.forwarded, f.seq ≤ g.seq →
        ∃ g' ∈ sys.right.forwarded, Replayed f g' := by
  intro sys few idle f hf g hg hle
  obtain ⟨converging, -⟩ := (System.converging_new recovers).run System.holds_new possible lasting few
  exact converging.forwarded_of_idle (System.holds_run System.holds_new possible) idle hf (Or.inl (List.mem_map_of_mem hg)) hle

/-- Frame 1 is lost, asked for and replayed: both frames have been forwarded then. -/
theorem system_complete_replayed :
    let sys := Runs.run (System.step crc32c UdpSubscriberConfig.default)
      (System.new UdpPublisherConfig.default (by decide) UdpSubscriberConfig.default) lostAndReplayed
    ∀ f ∈ sys.left.history, ∀ g ∈ sys.right.forwarded, f.seq ≤ g.seq →
      ∃ g' ∈ sys.right.forwarded, Replayed f g' :=
  system_complete crc32c UdpPublisherConfig.default (by decide) UdpSubscriberConfig.default
    (Or.inl rfl) lostAndReplayed lostAndReplayed_possible (by decide +kernel)
    ⟨by decide +kernel, by decide +kernel⟩ (Std.ExtTreeMap.isEmpty_iff.mp (by decide +kernel))

end Rtdp
