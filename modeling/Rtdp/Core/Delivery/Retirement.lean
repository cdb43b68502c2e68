import Rtdp.Core.Delivery.Ledger

/-!
# Requests for gaps that close by themselves

A gap that late DATA fills leaves its request outstanding: `process_data_frame`
never retires one, and `check_timeouts` goes on retrying until it gives up on a
stream with nothing missing. No request outlives its gap exactly while no frame
in order is the last one a request waits for.
-/

namespace Rtdp

/-- No outstanding request asks only for what has been delivered. -/
def NoneServed (delivered : List OwnedFrame) (eng : RecoveryEngine) : Prop :=
  ∀ (id : UInt64) (req : ActiveReplayRequest), eng.outstandingRequests[id]? = some req →
    ∃ j, req.covers j ∧ ∀ g ∈ delivered, g.seq ≠ j

/-- If the frame is the expected one, every outstanding request still waits for a sequence behind
it that is not buffered. -/
def LeavesOpen (rx : StreamReceiver) (f : OwnedFrame) : Prop :=
  f.seq = rx.expectedOf f →
    ∀ (id : UInt64) (req : ActiveReplayRequest), rx.recovery.outstandingRequests[id]? = some req →
      ∃ j, f.seq < j ∧ j ≤ req.toSequence ∧ rx.recovery.bufferedOutOfOrder[j]? = none

/-- Calls of `check_timeouts`, one after the other. -/
def RecoveryEngine.poll (eng : RecoveryEngine) (polls : List (Instant × List UInt64)) : RecoveryEngine :=
  polls.foldl (fun eng poll => (eng.checkTimeouts poll.1 poll.2).2) eng

theorem RecoveryEngine.poll_idle {eng : RecoveryEngine}
    (idle : ∀ id : UInt64, eng.outstandingRequests[id]? = none)
    (polls : List (Instant × List UInt64)) : eng.poll polls = eng := by
  induction polls with
  | nil => rfl
  | cons poll polls ih =>
    rw [RecoveryEngine.poll, List.foldl_cons, checkTimeouts_idle idle]
    exact ih

namespace Ledger

variable {p : UInt64} {delivered : List OwnedFrame} {rx : StreamReceiver} {f : OwnedFrame}

/-- A request has been served when the expectation has passed its end. -/
theorem noneServed_iff (h : Ledger p delivered rx) :
    NoneServed delivered rx.recovery ↔
      ∀ (id : UInt64) (req : ActiveReplayRequest), rx.recovery.outstandingRequests[id]? = some req →
        rx.tracker.expectedFor p ≤ req.toSequence := by
  constructor
  · intro unserved id req hget
    obtain ⟨j, hj, hundelivered⟩ := unserved id req hget
    refine UInt64.le_trans (UInt64.not_lt.mp fun hlt => ?_) hj.2
    have hpos := UInt64.lt_of_lt_of_le (h.spans id req hget).1 hj.1
    obtain ⟨g, hg, heq⟩ := (h.delivered j).mpr ⟨hpos, hlt⟩
    exact hundelivered g hg heq
  · intro waiting id req hget
    refine ⟨rx.tracker.expectedFor p, ⟨(h.spans id req hget).2.1, waiting id req hget⟩, fun g hg heq => ?_⟩
    exact UInt64.lt_irrefl _ ((h.delivered _).mp ⟨g, hg, heq⟩).2

/-- **Step**: a call leaves every request something to wait for exactly when its frame does. -/
theorem noneServed_step (h : Ledger p delivered rx) (unserved : NoneServed delivered rx.recovery)
    (now : Instant) (hp : f.header.publisherId = p) (unwrapped : Unwrapped rx f) :
    NoneServed (delivered ++ (rx.processDataFrame now f).1.frames) (rx.processDataFrame now f).2.recovery ↔
      LeavesOpen rx f := by
  have hE : rx.expectedOf f = rx.tracker.expectedFor p := by rw [StreamReceiver.expectedOf, hp]
  have hwaits := h.noneServed_iff.mp unserved
  rw [(h.step now hp unwrapped).noneServed_iff]
  obtain ⟨htidy, houtcome⟩ := h.toTidy.step now hp unwrapped
  generalize rx.processDataFrame now f = result at htidy houtcome ⊢
  cases houtcome with
  | idle unexpected =>
    refine iff_of_true ?_ fun hexp => absurd hexp unexpected
    rw [← hp, StreamReceiver.observed_expectedFor unexpected, hE]
    exact hwaits
  | gap fresh unexpected ahead =>
    refine iff_of_true (fun id req hget => ?_) fun hexp => absurd hexp unexpected
    rw [StreamReceiver.bufferGap_tracker, ← hp, StreamReceiver.observed_expectedFor unexpected]
    rcases StreamReceiver.bufferGap_outstanding now hget with hold | ⟨-, hto⟩
    · rw [hE]
      exact hwaits id req hold
    · rw [hto]
      exact StreamReceiver.gap_span (hE ▸ ahead)
  | @inOrder expected drained left n _ rel =>
    have hE' : (result.2.tracker.expectedFor p).toNat = f.seq.toNat + 1 + n := by
      rw [← htidy.expected]
      exact rel.next
    rw [rel.recovery]
    constructor
    · intro waiting _ id req hget
      refine ⟨result.2.tracker.expectedFor p, ?_, waiting id req hget, rel.stop _ hE'⟩
      rw [UInt64.lt_iff_toNat_lt, hE']
      omega
    · intro leaves id req hget
      obtain ⟨j, hj, hjto, hnone⟩ := leaves expected id req hget
      refine UInt64.le_trans ?_ hjto
      rw [UInt64.le_iff_toNat_le, hE']
      rw [UInt64.lt_iff_toNat_lt] at hj
      by_contra hlt
      obtain ⟨g, hg⟩ := rel.toStretch.buffered_of_lt hj (by omega)
      rw [hnone] at hg
      cases hg

/-- DATA retires no request: one that has been served stays so. -/
theorem noneServed_of_step (h : Ledger p delivered rx) (now : Instant) (hp : f.header.publisherId = p)
    (unserved : NoneServed (delivered ++ (rx.processDataFrame now f).1.frames)
      (rx.processDataFrame now f).2.recovery) : NoneServed delivered rx.recovery := by
  intro id req hget
  have hkept := StreamReceiver.outstanding_kept h.sole.mode now f h.sole.numbered
    (by rw [hp]; exact h.sole.live.imp_right Or.inl) hget
  obtain ⟨j, hj, hundelivered⟩ := unserved id req hkept
  exact ⟨j, hj, fun g hg => hundelivered g (List.mem_append_left _ hg)⟩

/-- The last sequence of every range has a successor: no frame carried sequence 0. -/
def Bounded (eng : RecoveryEngine) : Prop :=
  ∀ (id : UInt64) (req : ActiveReplayRequest), eng.outstandingRequests[id]? = some req →
    req.toSequence.toNat + 1 < 2 ^ 64

theorem bounded_step (bounded : Bounded rx.recovery) (h : Ledger p delivered rx) (now : Instant)
    (hf : 1 ≤ f.seq) : Bounded (rx.processDataFrame now f).2.recovery := by
  intro id req hget
  rcases StreamReceiver.outstanding_step h.sole.mode now f hget with hold | hrequest
  · exact bounded id req hold
  · obtain ⟨-, heq⟩ := (StreamReceiver.request_iff h.sole.mode now f).mp hrequest
    obtain ⟨-, -, hto⟩ := ReplayRequestPayload.mk.inj heq
    have hpos : 0 < f.seq := UInt64.lt_of_lt_of_le (by decide) hf
    have hlt := UInt64.lt_iff_toNat_lt.mp hpos
    have h64 := f.seq.toNat_lt
    rw [hto, Counter.toNat_pred hpos]
    omega

/-- With no request served and nothing buffered, nothing is outstanding: the frame that opened a
request has been delivered, and the range before it. -/
theorem idle (h : Ledger p delivered rx) (bounded : Bounded rx.recovery)
    (unserved : NoneServed delivered rx.recovery) (empty : rx.recovery.bufferedOutOfOrder = ∅)
    (id : UInt64) : rx.recovery.outstandingRequests[id]? = none := by
  cases hget : rx.recovery.outstandingRequests[id]? with
  | none => rfl
  | some req =>
    have hle := UInt64.le_iff_toNat_le.mp (h.noneServed_iff.mp unserved id req hget)
    rcases h.opener id req hget with hlt | ⟨g, hg⟩
    · rw [UInt64.lt_iff_toNat_lt, Counter.toNat_succ (bounded id req hget)] at hlt
      omega
    · rw [empty] at hg
      simp at hg

end Ledger

/-- **Closed gaps retire**: while no drain wraps, no outstanding request asks only for delivered
sequences exactly in the runs in which no frame in order is the last one a request waits for. With
nothing buffered the state is then `Live`, and stays so under any polling. -/
theorem closed_gaps_retire (cfg : RecoveryConfig) (streamId p : UInt64) (arrivals : List Arrival)
    (hp : ∀ y ∈ arrivals, y.frame.header.publisherId = p ∧ 1 ≤ y.frame.seq)
    (unwrapped : Runs.Each Feed.call (fun σ y => Unwrapped σ.receiver y.frame)
      (Feed.of (StreamReceiver.new streamId .reliableOrdered cfg)) arrivals) :
    let rx := StreamReceiver.new streamId .reliableOrdered cfg
    let after := rx.feed arrivals
    (NoneServed after.delivered after.receiver.recovery ↔
        Runs.Each Feed.call (fun σ y => LeavesOpen σ.receiver y.frame) (Feed.of rx) arrivals) ∧
      (NoneServed after.delivered after.receiver.recovery →
        after.receiver.recovery.bufferedOutOfOrder = ∅ →
          ∀ polls, (after.receiver.recovery.poll polls).state = .live) := by
  intro rx after
  have inputs : Runs.Each Feed.call (fun σ y => Unwrapped σ.receiver y.frame ∧
      y.frame.header.publisherId = p ∧ 1 ≤ y.frame.seq) (Feed.of rx) arrivals :=
    unwrapped.and (Runs.each_of_forall hp)
  constructor
  · apply Runs.iff_each (fun σ : Feed => Ledger p σ.delivered σ.receiver)
      (fun σ : Feed => NoneServed σ.delivered σ.receiver.recovery) ?_ ?_ (fun _ => id) ?_ ?_
      (by exact Ledger.fresh cfg streamId p) ?_ inputs
    · rintro σ y hσ ⟨hunwrapped, hy, -⟩
      exact hσ.call hy hunwrapped
    · rintro σ y hσ ⟨-, hy, -⟩ h
      rw [Feed.call_delivered] at h
      exact hσ.noneServed_of_step y.now hy h
    · rintro σ y hσ unserved ⟨hunwrapped, hy, -⟩
      rw [Feed.call_delivered]
      exact hσ.noneServed_step unserved y.now hy hunwrapped
    · rintro σ y hσ unserved ⟨hunwrapped, hy, -⟩ leaves
      rw [Feed.call_delivered]
      exact (hσ.noneServed_step unserved y.now hy hunwrapped).mpr leaves
    · intro id req hget
      simp [Feed.of, rx] at hget
  · intro unserved empty polls
    obtain ⟨hledger, hbounded⟩ : Ledger p after.delivered after.receiver ∧
        Ledger.Bounded after.receiver.recovery := by
      refine Runs.invariant
        (fun σ : Feed => Ledger p σ.delivered σ.receiver ∧ Ledger.Bounded σ.receiver.recovery) ?_
        ⟨Ledger.fresh cfg streamId p, ?_⟩ inputs
      · rintro σ y ⟨hσ, hbounded⟩ ⟨hunwrapped, hy, hpos⟩
        exact ⟨hσ.call hy hunwrapped, Ledger.bounded_step hbounded hσ y.now hpos⟩
      · intro id req hget
        simp [Feed.of, rx] at hget
    have hidle := hledger.idle hbounded unserved empty
    rw [RecoveryEngine.poll_idle hidle]
    refine hledger.state.resolve_right ?_
    rintro ⟨id, req, hget⟩
    rw [hidle id] at hget
    cases hget

/-- Frame 1, then frame 3: the request for 2 waits. -/
theorem closed_gaps_retire_open :
    NoneServed ((StreamReceiver.new 1 .reliableOrdered RecoveryConfig.default).feed
        (arrivalsOf 9 [1, 3])).delivered
      ((StreamReceiver.new 1 .reliableOrdered RecoveryConfig.default).feed
        (arrivalsOf 9 [1, 3])).receiver.recovery := by
  refine (closed_gaps_retire RecoveryConfig.default 1 9 (arrivalsOf 9 [1, 3]) (by decide) ?_).1.mpr ?_
  · refine ⟨fun _ => ⟨2, by decide, by decide +kernel⟩, fun heq => ?_, trivial⟩
    exact absurd heq (by decide +kernel)
  · refine ⟨fun _ id req hget => ?_, fun heq => absurd heq (by decide +kernel), trivial⟩
    simp [Feed.of] at hget

/-- Frames 1, 3 and 2 are all delivered, the request for 2 is still outstanding, and four polls
later the stream counts as failed. -/
theorem closed_gaps_linger :
    let after := (StreamReceiver.new 1 .reliableOrdered RecoveryConfig.default).feed
      (arrivalsOf 9 [1, 3, 2])
    ¬ NoneServed after.delivered after.receiver.recovery ∧
      after.delivered.map OwnedFrame.seq = [1, 2, 3] ∧
      after.receiver.recovery.bufferedOutOfOrder.isEmpty ∧
      (after.receiver.recovery.poll
        [(50000000, [1]), (100000000, [1]), (150000000, [1]), (200000000, [1])]).state =
          .recoveryFailed := by
  intro after
  refine ⟨fun unserved => ?_, by decide +kernel, by decide +kernel, by decide +kernel⟩
  obtain ⟨j, hj, hundelivered⟩ := unserved 1 ⟨1, 2, 2, 0, 0, 0, []⟩ (by decide +kernel)
  refine hundelivered (OwnedFrame.newData 1 2 0 9 []) (by decide +kernel) ?_
  exact UInt64.le_antisymm hj.1 hj.2

end Rtdp
