import Rtdp.Core.Delivery.Ledger

/-!
# What a receiver asks for

The range of a replay request comes from the tracker, which knows neither what
is buffered nor what has been asked for: every frame past the expected sequence
asks for everything from there up to itself. The requests stay selective exactly
while each gap is asked for by the first frame past it.
-/

namespace Rtdp

/-- What the call asks for, if anything, has been neither delivered nor buffered, and no
outstanding request covers it. -/
def AsksSelectively (σ : Feed) (a : Arrival) : Prop :=
  ∀ r, (σ.receiver.processDataFrame a.now a.frame).1.request = some r →
    ∀ j, r.fromSequence ≤ j → j ≤ r.toSequence →
      (∀ g ∈ (σ.call a).delivered, g.seq ≠ j) ∧
        (σ.call a).receiver.recovery.bufferedOutOfOrder[j]? = none ∧
        ¬ CoveredBy σ.receiver.recovery j

/-- If the frame opens a request, it is the first one past the expected sequence: that sequence is
not asked for yet, and nothing is buffered between it and the frame. -/
def FirstPast (rx : StreamReceiver) (f : OwnedFrame) : Prop :=
  OpensRequest rx f →
    ¬ CoveredBy rx.recovery (rx.expectedOf f) ∧
      ∀ k, rx.expectedOf f ≤ k → k ≤ f.seq - 1 → rx.recovery.bufferedOutOfOrder[k]? = none

/-- No sequence is asked for twice. -/
def OutstandingDisjoint (eng : RecoveryEngine) : Prop :=
  ∀ (id id' : UInt64) (req req' : ActiveReplayRequest),
    eng.outstandingRequests[id]? = some req → eng.outstandingRequests[id']? = some req' → id ≠ id' →
    ∀ j, req.covers j → ¬ req'.covers j

/-- Neither delivered nor buffered. -/
def Missing (σ : Feed) (k : UInt64) : Prop :=
  (∀ g ∈ σ.delivered, g.seq ≠ k) ∧ σ.receiver.recovery.bufferedOutOfOrder[k]? = none

/-- Two requests that ask for parts of one gap, an unbroken stretch of missing sequences, are
the same request. -/
def OneSlotPerGap (σ : Feed) : Prop :=
  ∀ (id id' : UInt64) (req req' : ActiveReplayRequest),
    σ.receiver.recovery.outstandingRequests[id]? = some req →
    σ.receiver.recovery.outstandingRequests[id']? = some req' →
    ∀ j j', req.covers j → req'.covers j' → j ≤ j' → (∀ k, j ≤ k → k ≤ j' → Missing σ k) → id = id'

namespace Ledger

variable {p : UInt64} {σ : Feed} {a : Arrival}

/-- A request below the expected sequence covers it as soon as it covers anything from there on. -/
theorem covers_expected {delivered : List OwnedFrame} {rx : StreamReceiver}
    (h : Ledger p delivered rx) {j : UInt64} (covered : CoveredBy rx.recovery j)
    (hj : rx.tracker.expectedFor p ≤ j) : CoveredBy rx.recovery (rx.tracker.expectedFor p) := by
  obtain ⟨id, req, hget, -, hto⟩ := covered
  exact ⟨id, req, hget, (h.spans id req hget).2.1, UInt64.le_trans hj hto⟩

/-- **Step**: a call asks selectively exactly when its frame is the first past the gap. -/
theorem asksSelectively_iff (h : Ledger p σ.delivered σ.receiver)
    (hp : a.frame.header.publisherId = p) :
    AsksSelectively σ a ↔ FirstPast σ.receiver a.frame := by
  have hE : σ.receiver.expectedOf a.frame = σ.receiver.tracker.expectedFor p := by
    rw [StreamReceiver.expectedOf, hp]
  constructor
  · intro selective opens
    have hrequest := (StreamReceiver.request_iff h.sole.mode a.now a.frame).mpr ⟨opens, rfl⟩
    have hall := selective _ hrequest
    dsimp only at hall
    obtain ⟨fresh, unexpected, ahead, accepted⟩ := opens
    have hspan := StreamReceiver.gap_span (StreamReceiver.gap_ahead unexpected ahead)
    refine ⟨(hall _ UInt64.le_rfl hspan).2.2, fun k hk hks => ?_⟩
    have hnone := (hall k hk hks).2.1
    rw [Feed.call_receiver, StreamReceiver.processDataFrame_gap h.sole.mode a.now fresh unexpected ahead,
      StreamReceiver.bufferGap_get] at hnone
    split at hnone
    · cases hnone
    · exact hnone
  · intro first r hrequest j hj hjr
    obtain ⟨opens, rfl⟩ := (StreamReceiver.request_iff h.sole.mode a.now a.frame).mp hrequest
    obtain ⟨uncovered, hbuffer⟩ := first opens
    obtain ⟨fresh, unexpected, ahead, accepted⟩ := opens
    dsimp only at hj hjr
    have hcall := StreamReceiver.processDataFrame_gap h.sole.mode a.now fresh unexpected ahead
    refine ⟨?_, ?_, ?_⟩
    · rw [Feed.call_delivered, hcall, (StreamReceiver.bufferGap_spec _ _ _ _ _).1, List.append_nil]
      intro g hg heq
      have hlt := ((h.delivered j).mp ⟨g, hg, heq⟩).2
      rw [hE] at hj
      exact absurd hlt (UInt64.not_lt.mpr hj)
    · rw [Feed.call_receiver, hcall, StreamReceiver.bufferGap_get, if_neg]
      · exact hbuffer j hj hjr
      · -- the frame itself is not in the range
        rintro rfl
        rw [UInt64.le_iff_toNat_le] at hj hjr
        rcases StreamReceiver.gap_ahead unexpected ahead with hzero | hlt
        · have hpos := UInt64.lt_iff_toNat_lt.mp h.pos
          rw [← hE] at hpos
          rw [hzero] at hj
          omega
        · rw [Counter.toNat_pred (UInt64.lt_of_le_of_lt UInt64.zero_le hlt)] at hjr
          rw [UInt64.lt_iff_toNat_lt] at hlt
          omega
    · intro covered
      rw [hE] at hj uncovered
      exact uncovered (h.covers_expected covered hj)

end Ledger

/-- While every request is opened first past its gap, the requests lie one behind the other. -/
def Successive (eng : RecoveryEngine) : Prop :=
  ∀ (id id' : UInt64) (req req' : ActiveReplayRequest),
    eng.outstandingRequests[id]? = some req → eng.outstandingRequests[id']? = some req' → id ≠ id' →
    req.toSequence < req'.fromSequence ∨ req'.toSequence < req.fromSequence

theorem Successive.fresh (cfg : RecoveryConfig) (streamId : UInt64) :
    Successive (StreamReceiver.new streamId .reliableOrdered cfg).recovery := by
  intro id id' req req' hget
  simp at hget

/-- **Step**: a request opened first past its gap starts behind all others. -/
theorem Successive.step {p : UInt64} {delivered : List OwnedFrame} {rx : StreamReceiver}
    {f : OwnedFrame} (h : Successive rx.recovery) (ledger : Ledger p delivered rx) (now : Instant)
    (hp : f.header.publisherId = p) (first : FirstPast rx f) :
    Successive (rx.processDataFrame now f).2.recovery := by
  have hE : rx.expectedOf f = rx.tracker.expectedFor p := by rw [StreamReceiver.expectedOf, hp]
  -- an outstanding request is an old one, or the new one behind all old ones
  have hnew : ∀ (id : UInt64) req,
      (rx.processDataFrame now f).2.recovery.outstandingRequests[id]? = some req →
        rx.recovery.outstandingRequests[id]? = some req ∨
          id = rx.recovery.nextRequestId ∧
            ∀ (id' : UInt64) req', rx.recovery.outstandingRequests[id']? = some req' →
              req'.toSequence < req.fromSequence := by
    intro id req hget
    refine (StreamReceiver.outstanding_step ledger.sole.mode now f hget).imp_right fun hrequest => ?_
    obtain ⟨opens, heq⟩ := (StreamReceiver.request_iff ledger.sole.mode now f).mp hrequest
    obtain ⟨hid, hfrom, -⟩ := ReplayRequestPayload.mk.inj heq
    refine ⟨hid, fun id' req' hget' => ?_⟩
    by_contra hreach
    rw [hfrom] at hreach
    have hle := (ledger.spans id' req' hget').2.1
    refine (first opens).1 ⟨id', req', hget', hE ▸ hle, ?_⟩
    exact UInt64.not_lt.mp hreach
  intro id id' req req' hget hget' hne
  rcases hnew id req hget with hold | ⟨hid, hbehind⟩ <;>
    rcases hnew id' req' hget' with hold' | ⟨hid', hbehind'⟩
  · exact h id id' req req' hold hold' hne
  · exact Or.inl (hbehind' id req hold)
  · exact Or.inr (hbehind id' req' hold')
  · exact absurd (hid.trans hid'.symm) hne

theorem Successive.disjoint {eng : RecoveryEngine} (h : Successive eng) : OutstandingDisjoint eng := by
  intro id id' req req' hget hget' hne j hj hj'
  rcases h id id' req req' hget hget' hne with hlt | hlt
  · exact absurd (UInt64.le_trans hj'.1 hj.2) (UInt64.not_le.mpr hlt)
  · exact absurd (UInt64.le_trans hj.1 hj'.2) (UInt64.not_le.mpr hlt)

/-- What lies between two requests has been delivered. -/
theorem Successive.oneSlot {p : UInt64} {σ : Feed} (h : Successive σ.receiver.recovery)
    (ledger : Ledger p σ.delivered σ.receiver) : OneSlotPerGap σ := by
  intro id id' req req' hget hget' j j' hj hj' hle hmissing
  by_contra hne
  rcases h id id' req req' hget hget' hne with hlt | hlt
  · have hpos := UInt64.lt_of_lt_of_le (ledger.spans id req hget).1 hj.1
    have hbelow : j < σ.receiver.tracker.expectedFor p :=
      UInt64.lt_of_le_of_lt hj.2 (UInt64.lt_of_lt_of_le hlt (ledger.spans id' req' hget').2.1)
    obtain ⟨g, hg, heq⟩ := (ledger.delivered j).mpr ⟨hpos, hbelow⟩
    exact (hmissing j UInt64.le_rfl hle).1 g hg heq
  · have hlt' := UInt64.lt_of_le_of_lt (UInt64.le_trans hle hj'.2) hlt
    exact absurd hj.1 (UInt64.not_le.mpr hlt')

/-- **Selective replay**: while no drain wraps, the calls of a run ask only for what is missing and
not asked for exactly when every request is opened first past its gap; the outstanding ranges are
then disjoint, with one request for each open gap. -/
theorem selective_replay (cfg : RecoveryConfig) (streamId p : UInt64) (arrivals : List Arrival)
    (hp : ∀ y ∈ arrivals, y.frame.header.publisherId = p)
    (unwrapped : Runs.Each Feed.call (fun σ y => Unwrapped σ.receiver y.frame)
      (Feed.of (StreamReceiver.new streamId .reliableOrdered cfg)) arrivals) :
    let rx := StreamReceiver.new streamId .reliableOrdered cfg
    (Runs.Each Feed.call AsksSelectively (Feed.of rx) arrivals ↔
        Runs.Each Feed.call (fun σ y => FirstPast σ.receiver y.frame) (Feed.of rx) arrivals) ∧
      (Runs.Each Feed.call (fun σ y => FirstPast σ.receiver y.frame) (Feed.of rx) arrivals →
        OutstandingDisjoint (rx.feed arrivals).receiver.recovery ∧
          OneSlotPerGap (rx.feed arrivals)) := by
  intro rx
  have hpub : Runs.Each Feed.call (fun _ y => y.frame.header.publisherId = p) (Feed.of rx) arrivals :=
    Runs.each_of_forall hp
  constructor
  · refine Runs.each_congr (fun σ : Feed => Ledger p σ.delivered σ.receiver) ?_ ?_
      (Ledger.fresh cfg streamId p) (unwrapped.and hpub)
    · rintro σ y hσ ⟨hunwrapped, hy⟩
      exact hσ.call hy hunwrapped
    · rintro σ y hσ ⟨-, hy⟩
      exact hσ.asksSelectively_iff hy
  · intro each
    have hsuccessive : Ledger p (rx.feed arrivals).delivered (rx.feed arrivals).receiver ∧
        Successive (rx.feed arrivals).receiver.recovery := by
      refine Runs.invariant
        (fun σ : Feed => Ledger p σ.delivered σ.receiver ∧ Successive σ.receiver.recovery) ?_
        ⟨Ledger.fresh cfg streamId p, Successive.fresh cfg streamId⟩ ((unwrapped.and hpub).and each)
      rintro σ y ⟨hσ, hsuccessive⟩ ⟨⟨hunwrapped, hy⟩, hfirst⟩
      exact ⟨hσ.call hy hunwrapped, hsuccessive.step hσ y.now hy hfirst⟩
    obtain ⟨hledger, hsuccessive⟩ := hsuccessive
    exact ⟨hsuccessive.disjoint, hsuccessive.oneSlot hledger⟩

/-- Frame 1, then frame 3: the request for 2 is the first past the gap. -/
theorem selective_replay_gap :
    OutstandingDisjoint ((StreamReceiver.new 1 .reliableOrdered RecoveryConfig.default).feed
      (arrivalsOf 9 [1, 3])).receiver.recovery := by
  refine ((selective_replay RecoveryConfig.default 1 9 (arrivalsOf 9 [1, 3]) (by decide) ?_).2 ?_).1
  · refine ⟨fun _ => ⟨2, by decide, by decide +kernel⟩, fun heq => ?_, trivial⟩
    exact absurd heq (by decide +kernel)
  · let σ := (Feed.of (StreamReceiver.new 1 .reliableOrdered RecoveryConfig.default)).call
      ⟨0, OwnedFrame.newData 1 1 0 9 []⟩
    have hout : σ.receiver.recovery.outstandingRequests = ∅ :=
      Std.ExtTreeMap.isEmpty_iff.mp (by decide +kernel)
    have hbuf : σ.receiver.recovery.bufferedOutOfOrder = ∅ :=
      Std.ExtTreeMap.isEmpty_iff.mp (by decide +kernel)
    have hfirst : FirstPast σ.receiver (OwnedFrame.newData 1 3 0 9 []) := by
      refine fun _ => ⟨?_, fun k _ _ => by rw [hbuf]; rfl⟩
      rintro ⟨id, req, hget, -⟩
      rw [hout] at hget
      cases hget
    exact ⟨fun opens => absurd opens (by decide +kernel), hfirst, trivial⟩

/-- Frames 1, 3 and 4: the second request asks for 2 again, and for frame 3, which is buffered. -/
theorem selective_replay_overlaps :
    ¬ Runs.Each Feed.call AsksSelectively
      (Feed.of (StreamReceiver.new 1 .reliableOrdered RecoveryConfig.default)) (arrivalsOf 9 [1, 3, 4]) := by
  rintro ⟨-, -, selective, -⟩
  have hbuffered := (selective ⟨2, 2, 3⟩ (by decide +kernel) 3 (by decide) (by decide)).2.1
  exact absurd hbuffered (by decide +kernel)

end Rtdp
