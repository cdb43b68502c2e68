import Rtdp.Transport.Subscriber
import Rtdp.Core.Delivery.ReliableOrdered
import Rtdp.Lib.Channel

/-!
# The hand-over to the application

The worker passes each frame to a bounded channel with `try_send` and ignores
the result: a frame that meets a full channel is gone, and the receiver has
already moved past it. When the frames arrive in order nothing is lost exactly
while the channel has room for each. One packet hands over at most one frame
then, so it does not matter whether the application receives before or after
the worker's own steps on that packet.
-/

namespace Rtdp

/-- The worker, the channel `delivered_tx`/`delivered_rx` and what the application has taken from
it, oldest first. -/
structure Handover (capacity : ℕ) where
  worker : Subscriber
  channel : BoundedChannel OwnedFrame capacity
  received : List OwnedFrame

/-- A step of the worker, or a `try_recv` of the application. -/
inductive HandoverStep where
  | worker (event : Event)
  | receive

/-- The DATA frames the worker handles, in order. -/
def framesOf (steps : List HandoverStep) : List OwnedFrame :=
  steps.filterMap fun
    | .worker (.data _ frame) => some frame
    | _ => none

@[simp] theorem framesOf_data (now : Instant) (f : OwnedFrame) (rest : List HandoverStep) :
    framesOf (.worker (.data now f) :: rest) = f :: framesOf rest := rfl

@[simp] theorem framesOf_receive (rest : List HandoverStep) :
    framesOf (.receive :: rest) = framesOf rest := rfl

theorem framesOf_other {e : Event} (notData : ∀ now f, e ≠ .data now f) (rest : List HandoverStep) :
    framesOf (.worker e :: rest) = framesOf rest := by
  cases e with
  | data now f => exact absurd rfl (notData now f)
  | timeouts now order => rfl
  | replayResponse id f => rfl
  | replayUnavailable u => rfl

@[simp] theorem framesOf_receives (k : ℕ) : framesOf (List.replicate k .receive) = [] := by
  induction k with
  | zero => rfl
  | succ k ih => rw [List.replicate_succ, framesOf_receive, ih]

namespace Handover

variable {capacity : ℕ}

def new (streamId : UInt64) (cfg : RecoveryConfig) (capacity : ℕ) : Handover capacity where
  worker := Subscriber.new streamId .reliableOrdered cfg
  channel := .bounded capacity
  received := []

/-- `let _ = delivered_tx.try_send(f)`. -/
def send (channel : BoundedChannel OwnedFrame capacity) (f : OwnedFrame) :
    BoundedChannel OwnedFrame capacity :=
  (channel.trySend f).2

def step (self : Handover capacity) : HandoverStep → Handover capacity
  | .worker event =>
    let worker := self.worker.step event
    let batch := worker.forwarded.drop self.worker.forwarded.length
    { self with worker, channel := batch.foldl send self.channel }
  | .receive =>
    let (frame, channel) := self.channel.tryRecv
    { self with channel, received := self.received ++ frame.toList }

/-- The channel has room when a DATA frame is handled. -/
def HasRoom (self : Handover capacity) : HandoverStep → Prop
  | .worker (.data _ _) => ¬ self.channel.IsFull
  | _ => True

instance (self : Handover capacity) : DecidablePred self.HasRoom
  | .worker (.data _ _) => inferInstanceAs (Decidable (¬ _))
  | .worker (.timeouts _ _) => inferInstanceAs (Decidable True)
  | .worker (.replayResponse _ _) => inferInstanceAs (Decidable True)
  | .worker (.replayUnavailable _) => inferInstanceAs (Decidable True)
  | .receive => inferInstanceAs (Decidable True)

end Handover

/-- The frames carry the sequences `1, 2, …`, none missing. -/
def Holeless (frames : List OwnedFrame) : Prop :=
  (frames.map fun f => f.seq.toNat) = List.range' 1 frames.length

instance (frames : List OwnedFrame) : Decidable (Holeless frames) := inferInstanceAs (Decidable (_ = _))

/-- A part of what was sent without holes, from its start, has none. -/
theorem Holeless.of_prefix {front : List OwnedFrame} (back : List OwnedFrame) {n : ℕ}
    (h : ((front ++ back).map fun f => f.seq.toNat) = List.range' 1 n) : Holeless front := by
  rw [List.map_append] at h
  obtain ⟨k, hk, hfront, -⟩ := List.range'_eq_append_iff.mp h.symm
  have hlen : front.length = k := by simpa using congrArg List.length hfront
  rw [Holeless, hfront, hlen]

/-! ## A receiver fed in order -/

/-- The receiver has handled the frames `1..n` of `p`, in order, and nothing else came of it. -/
structure InStep (p : UInt64) (n : ℕ) (rx : StreamReceiver) : Prop where
  mode : rx.mode = .reliableOrdered
  live : rx.tracker.activePublisherId = none ∨ rx.tracker.activePublisherId = some p
  expected : rx.tracker.expectedFor p = UInt64.ofNat (n + 1)
  buffered : ∀ k : UInt64, rx.recovery.bufferedOutOfOrder[k]? = none
  outstanding : ∀ id : UInt64, rx.recovery.outstandingRequests[id]? = none
  recorded : ∀ key ∈ rx.dedup.recentKeys, key.sequence.toNat ≤ n

namespace InStep

variable {p : UInt64} {n : ℕ} {rx : StreamReceiver} {f : OwnedFrame}

theorem fresh (cfg : RecoveryConfig) (streamId p : UInt64) :
    InStep p 0 (StreamReceiver.new streamId .reliableOrdered cfg) := by
  refine ⟨rfl, Or.inl rfl, rfl, fun k => ?_, fun id => ?_, fun key hkey => ?_⟩
  · simp
  · simp
  · simp [StreamReceiver.new, DuplicateFilter.new] at hkey

/-- **Step**: the next frame is delivered by itself. -/
theorem step (h : InStep p n rx) (now : Instant) (hp : f.header.publisherId = p)
    (hseq : f.seq.toNat = n + 1) :
    InStep p (n + 1) (rx.processDataFrame now f).2 ∧ (rx.processDataFrame now f).1.frames = [f] := by
  have hnext : f.seq = UInt64.ofNat (n + 1) := by
    rw [← hseq, UInt64.ofNat_toNat]
  have expected : f.seq = rx.expectedOf f := by
    rw [StreamReceiver.expectedOf, hp, h.expected, hnext]
  have fresh : rx.keyOf f ∉ rx.dedup.recentKeys := by
    intro hkey
    have hle := h.recorded _ hkey
    rw [StreamReceiver.keyOf_sequence] at hle
    omega
  have hcall := StreamReceiver.processDataFrame_inOrder h.mode now (hp ▸ h.live) ⟨fresh, expected⟩
  have hspec := StreamReceiver.deliverInOrder_spec (rx.observed f) f f.seq
  rw [StreamReceiver.observed_recovery, drainFrom_none (h.buffered _)] at hspec
  rw [hcall]
  refine ⟨⟨?_, ?_, ?_, ?_, ?_, ?_⟩, by rw [hspec.frames]; rfl⟩
  · rw [hspec.mode]
    exact h.mode
  · rw [hspec.active, StreamReceiver.observed_active, hp]
    exact Or.inr rfl
  · rw [StreamSequenceTracker.expectedFor_active (by rw [hspec.active]; simp [hp]), hspec.expected,
      StreamReceiver.observed_expected, if_pos expected, ← expected, hnext]
    exact (UInt64.ofNat_add (n + 1) 1).symm
  · rw [hspec.recovery]
    exact h.buffered
  · rw [hspec.recovery]
    exact h.outstanding
  · intro key hkey
    rw [hspec.dedup] at hkey
    rcases StreamReceiver.observed_recorded hkey with rfl | hkey
    · rw [StreamReceiver.keyOf_sequence, hseq]
    · exact Nat.le_succ_of_le (h.recorded key hkey)

end InStep

/-- The worker has handled `1..n`, and passed on each of them. -/
structure Fed (p : UInt64) (n : ℕ) (worker : Subscriber) : Prop where
  inStep : InStep p n worker.receiver
  forwarded : (worker.forwarded.map fun f => f.seq.toNat) = List.range' 1 n

namespace Fed

variable {p : UInt64} {n : ℕ} {worker : Subscriber} {f : OwnedFrame}

theorem data (h : Fed p n worker) (now : Instant) (hp : f.header.publisherId = p)
    (hseq : f.seq.toNat = n + 1) :
    Fed p (n + 1) (worker.step (.data now f)) ∧
      (worker.step (.data now f)).forwarded = worker.forwarded ++ [f] := by
  obtain ⟨hstep, hframes⟩ := h.inStep.step now hp hseq
  have hforwarded : (worker.handleData now f).forwarded = worker.forwarded ++ [f] := by
    rw [Subscriber.handleData_forwarded, hframes]
  refine ⟨⟨?_, ?_⟩, hforwarded⟩
  · show InStep p (n + 1) (worker.handleData now f).receiver
    rw [Subscriber.handleData_receiver]
    exact hstep
  · show ((worker.handleData now f).forwarded.map fun f => f.seq.toNat) = List.range' 1 (n + 1)
    rw [hforwarded, List.map_append, h.forwarded, List.range'_concat]
    simp [hseq, Nat.add_comm]

/-- With nothing missing, nothing else the worker handles matters. -/
theorem other (h : Fed p n worker) {e : Event} (notData : ∀ now f, e ≠ .data now f) :
    Fed p n (worker.step e) ∧ (worker.step e).forwarded = worker.forwarded := by
  obtain ⟨⟨mode, live, expected, buffered, outstanding, recorded⟩, hforwarded⟩ := h
  cases e with
  | data now f => exact absurd rfl (notData now f)
  | timeouts now order =>
    simp only [Subscriber.step, Subscriber.handleTimeouts,
      RecoveryEngine.checkTimeouts_idle outstanding, List.append_nil]
    exact ⟨⟨⟨mode, live, expected, buffered, outstanding, recorded⟩, hforwarded⟩, trivial⟩
  | replayResponse id g =>
    simp only [Subscriber.step, Subscriber.handleReplayResponse,
      RecoveryEngine.handleReplayResponse_unknown (outstanding id)]
    exact ⟨⟨⟨mode, live, expected, buffered, outstanding, recorded⟩, hforwarded⟩, trivial⟩
  | replayUnavailable u =>
    refine ⟨⟨⟨mode, live, expected, buffered, fun id => ?_, recorded⟩, hforwarded⟩, rfl⟩
    simp only [Subscriber.step, Subscriber.handleReplayUnavailable,
      RecoveryEngine.handleReplayUnavailable, OrderedMap.get_erase]
    split
    · rfl
    · exact outstanding id

end Fed

namespace Handover

variable {capacity : ℕ} {p : UInt64} {n m : ℕ} {σ : Handover capacity} {f : OwnedFrame}

/-- Nothing has been lost between the worker and the application. -/
def Conserved (σ : Handover capacity) : Prop :=
  σ.received ++ σ.channel.entries = σ.worker.forwarded

@[simp] theorem step_received (e : Event) : (σ.step (.worker e)).received = σ.received := rfl

@[simp] theorem step_worker (e : Event) : (σ.step (.worker e)).worker = σ.worker.step e := rfl

theorem step_channel {e : Event} {batch : List OwnedFrame}
    (h : (σ.worker.step e).forwarded = σ.worker.forwarded ++ batch) :
    (σ.step (.worker e)).channel = batch.foldl send σ.channel := by
  simp only [step, h, List.drop_left]

/-- A receive moves a frame from the channel to the application. -/
theorem step_receive (σ : Handover capacity) :
    (σ.step .receive).received ++ (σ.step .receive).channel.entries =
      σ.received ++ σ.channel.entries := by
  show σ.received ++ σ.channel.tryRecv.1.toList ++ σ.channel.tryRecv.2.entries = _
  rw [List.append_assoc, BoundedChannel.tryRecv_append]

theorem Conserved.receive (h : Conserved σ) : Conserved (σ.step .receive) := by
  rw [Conserved, step_receive]
  exact h

theorem Conserved.data (h : Conserved σ) {now : Instant}
    (hforwarded : (σ.worker.step (.data now f)).forwarded = σ.worker.forwarded ++ [f])
    (room : ¬ σ.channel.IsFull) : Conserved (σ.step (.worker (.data now f))) := by
  rw [Conserved, step_received, step_worker, step_channel hforwarded, hforwarded, ← h, List.append_assoc]
  congr 1
  exact BoundedChannel.trySend_entries room

theorem Conserved.other (h : Conserved σ) {e : Event}
    (hforwarded : (σ.worker.step e).forwarded = σ.worker.forwarded) :
    Conserved (σ.step (.worker e)) := by
  have hchannel : (σ.step (.worker e)).channel = List.foldl send σ.channel [] :=
    step_channel (by rw [hforwarded, List.append_nil])
  rw [Conserved, step_received, step_worker, hchannel, hforwarded]
  exact h

/-- **Run**: frames in order keep the worker in step, and while there is room nothing is lost. -/
theorem run_fed (steps : List HandoverStep) (hp : ∀ f ∈ framesOf steps, f.header.publisherId = p)
    (inOrder : ((framesOf steps).map fun f => f.seq.toNat) = List.range' (n + 1) m)
    (fed : Fed p n σ.worker) :
    Fed p (n + m) (Runs.run step σ steps).worker ∧
      (Conserved σ → Runs.Each step HasRoom σ steps → Conserved (Runs.run step σ steps)) := by
  induction steps generalizing σ n m with
  | nil =>
    obtain rfl : m = 0 := by simpa [framesOf] using (congrArg List.length inOrder).symm
    exact ⟨fed, fun h _ => h⟩
  | cons first rest ih =>
    cases first with
    | receive =>
      obtain ⟨hfed, hconserved⟩ := ih (σ := σ.step .receive) hp inOrder fed
      exact ⟨hfed, fun h room => hconserved h.receive room.2⟩
    | worker e =>
      by_cases isData : ∃ now f, e = .data now f
      · obtain ⟨now, f, rfl⟩ := isData
        rw [framesOf_data] at hp inOrder
        obtain ⟨m, rfl⟩ : ∃ k, m = k + 1 := by
          refine ⟨m - 1, ?_⟩
          have := congrArg List.length inOrder
          simp at this
          omega
        rw [List.map_cons, List.range'_succ] at inOrder
        obtain ⟨hseq, hrest⟩ := List.cons_eq_cons.mp inOrder
        obtain ⟨hf, hpRest⟩ := List.forall_mem_cons.mp hp
        obtain ⟨hfed, hforwarded⟩ := fed.data now hf hseq
        obtain ⟨hrun, hconserved⟩ := ih (σ := σ.step (.worker (.data now f))) hpRest hrest hfed
        rw [Nat.add_right_comm] at hrun
        exact ⟨hrun, fun h room => hconserved (h.data hforwarded room.1) room.2⟩
      · have notData : ∀ now f, e ≠ .data now f := fun now f heq => isData ⟨now, f, heq⟩
        rw [framesOf_other notData] at hp inOrder
        obtain ⟨hfed, hforwarded⟩ := fed.other notData
        obtain ⟨hrun, hconserved⟩ := ih (σ := σ.step (.worker e)) hp inOrder hfed
        exact ⟨hrun, fun h room => hconserved (h.other hforwarded) room.2⟩

/-- The application empties the channel. -/
theorem run_receive (k : ℕ) (hk : σ.channel.entries.length ≤ k) :
    (Runs.run step σ (List.replicate k .receive)).received = σ.received ++ σ.channel.entries := by
  induction k generalizing σ with
  | zero =>
    have hnil : σ.channel.entries = [] := List.length_eq_zero_iff.mp (by omega)
    rw [hnil, List.append_nil]
    rfl
  | succ k ih =>
    rw [List.replicate_succ, Runs.run_cons, ih, step_receive]
    show σ.channel.tryRecv.2.entries.length ≤ k
    simp only [BoundedChannel.tryRecv, List.length_tail]
    omega

/-- A frame that meets a full channel is missed as soon as a later one gets through. -/
theorem drop_shows (fed : Fed p n σ.worker) (conserved : Conserved σ) (now : Instant)
    (hp : f.header.publisherId = p) (hseq : f.seq.toNat = n + 1) (full : σ.channel.IsFull)
    (pos : 0 < capacity) (more : n + 2 < 2 ^ 64) :
    ∃ rest : List HandoverStep, (∀ g ∈ framesOf rest, g.header.publisherId = p) ∧
      ((framesOf rest).map fun g => g.seq.toNat) = [n + 2] ∧
      ¬ Holeless (Runs.run step σ (.worker (.data now f) :: rest)).received := by
  let g := OwnedFrame.newData 1 (UInt64.ofNat (n + 2)) 0 p []
  have hg : g.seq.toNat = n + 1 + 1 := UInt64.toNat_ofNat_of_lt' more
  obtain ⟨hfed, hforwarded⟩ := fed.data now hp hseq
  -- the channel drops `f`, then the application makes room for `g`
  let after := (σ.step (.worker (.data now f))).step .receive
  have hchannel : (σ.step (.worker (.data now f))).channel = σ.channel := by
    rw [step_channel hforwarded]
    exact congrArg Prod.snd (BoundedChannel.trySend_full full)
  have hkept : after.received ++ after.channel.entries = σ.worker.forwarded := by
    rw [step_receive, step_received, hchannel]
    exact conserved
  have hroom : ¬ after.channel.IsFull := BoundedChannel.tryRecv_room pos
  have hafter : Fed p (n + 1) after.worker := hfed
  obtain ⟨-, hpassed⟩ := hafter.data now (f := g) rfl hg
  have hsent : (after.step (.worker (.data now g))).channel.entries = after.channel.entries ++ [g] := by
    rw [step_channel hpassed]
    exact BoundedChannel.trySend_entries hroom
  have hframes : framesOf (.receive :: .worker (.data now g) :: List.replicate capacity .receive) = [g] := by
    rw [framesOf_receive, framesOf_data, framesOf_receives]
  refine ⟨.receive :: .worker (.data now g) :: List.replicate capacity .receive, ?_, ?_, ?_⟩
  · rw [hframes]
    exact List.forall_mem_singleton.mpr rfl
  · rw [hframes, List.map_singleton, hg]
  · rw [Runs.run_cons, Runs.run_cons, Runs.run_cons, run_receive capacity (BoundedChannel.length_le _),
      hsent, step_received, ← List.append_assoc, hkept, Holeless, List.map_append, fed.forwarded,
      List.map_singleton, hg, List.length_append, List.length_singleton]
    have hlen : σ.worker.forwarded.length = n := by
      simpa using congrArg List.length fed.forwarded
    rw [hlen, List.range'_concat]
    intro heq
    have hlast := List.append_cancel_left heq
    simp at hlast
    omega

end Handover

/-- **Nothing is lost at the hand-over** of frames that arrive in order, in any interleaving in
which the channel has room for each; a frame that meets a full channel leaves a hole in what some
continuation receives. -/
theorem handover_lossless (capacity : ℕ) (streamId p : UInt64) (cfg : RecoveryConfig)
    (steps : List HandoverStep) (n : ℕ) (hp : ∀ f ∈ framesOf steps, f.header.publisherId = p)
    (inOrder : ((framesOf steps).map fun f => f.seq.toNat) = List.range' 1 n)
    (room : Runs.Each Handover.step Handover.HasRoom (Handover.new streamId cfg capacity) steps) :
    let σ := Runs.run Handover.step (Handover.new streamId cfg capacity) steps
    Holeless σ.received ∧
      ∀ (now : Instant) (f : OwnedFrame), f.header.publisherId = p → f.seq.toNat = n + 1 →
        n + 2 < 2 ^ 64 → 0 < capacity → σ.channel.IsFull →
        ∃ rest, (∀ g ∈ framesOf rest, g.header.publisherId = p) ∧
          ((framesOf rest).map fun g => g.seq.toNat) = [n + 2] ∧
          ¬ Holeless (Runs.run Handover.step (Handover.new streamId cfg capacity)
            (steps ++ .worker (.data now f) :: rest)).received := by
  intro σ
  have hfresh : Fed p 0 (Handover.new streamId cfg capacity).worker :=
    ⟨InStep.fresh cfg streamId p, rfl⟩
  obtain ⟨hfed, hconserved⟩ := Handover.run_fed steps hp inOrder hfresh
  rw [Nat.zero_add] at hfed
  have hconserved : Handover.Conserved σ := hconserved rfl room
  constructor
  · apply Holeless.of_prefix σ.channel.entries (n := n)
    rw [hconserved]
    exact hfed.forwarded
  · intro now f hf hseq more pos full
    obtain ⟨rest, hrest, hseqs, hhole⟩ := Handover.drop_shows hfed hconserved now hf hseq full pos more
    refine ⟨rest, hrest, hseqs, ?_⟩
    rw [Runs.run_append]
    exact hhole

/-- Empty frames of a publisher with these sequences, with no receive in between. -/
def burst (publisherId : UInt64) (sequences : List UInt64) : List HandoverStep :=
  (dataEvents publisherId sequences).map .worker

/-- A channel of two, emptied in time. -/
theorem handover_lossless_in_time :
    Holeless (Runs.run Handover.step (Handover.new 1 RecoveryConfig.default 2)
      (burst 9 [1, 2] ++ [.receive] ++ burst 9 [3] ++ [.receive, .receive])).received :=
  (handover_lossless 2 1 9 RecoveryConfig.default
    (burst 9 [1, 2] ++ [.receive] ++ burst 9 [3] ++ [.receive, .receive]) 3
    (by decide) (by decide) (by decide +kernel)).1

/-- A channel of one, and two frames before the first receive: frame 2 is lost. -/
theorem handover_drops :
    ¬ Holeless (Runs.run Handover.step (Handover.new 1 RecoveryConfig.default 1)
      (burst 9 [1, 2] ++ [.receive] ++ burst 9 [3] ++ [.receive])).received := by
  decide +kernel

end Rtdp
