import Rtdp.Core.Delivery.Stall
import Rtdp.Core.Recovery.Responses
import Rtdp.Core.Recovery.Timeouts
import Rtdp.Transport.System

/-!
# Nothing is missing once nothing is outstanding

A worker in `ReliableOrdered` or `AtLeastOnce` mode asks for whatever is missing
below a frame it has, as long as no request is refused or given up. Each missing
sequence is then covered by an outstanding request. So whenever none is
outstanding, all frames below a forwarded one have been forwarded, in some
order: whatever was lost, repeated, delayed or reordered.
-/

namespace Rtdp

/-- What a request waits for: its range, and what has arrived of it. -/
def ActiveReplayRequest.progress (self : ActiveReplayRequest) : UInt64 × UInt64 × List UInt64 :=
  (self.fromSequence, self.toSequence, self.receivedSequences)

theorem progress_eq_iff {req req' : ActiveReplayRequest} : req.progress = req'.progress ↔
    req.fromSequence = req'.fromSequence ∧ req.toSequence = req'.toSequence ∧
      req.receivedSequences = req'.receivedSequences := by
  rw [ActiveReplayRequest.progress, ActiveReplayRequest.progress, Prod.mk.injEq, Prod.mk.injEq]

namespace RecoveryEngine

/-- **Run**: the scan of a check leaves what each request waits for, in whatever order it visits them. -/
theorem scan_progress (config : RecoveryConfig) (now : Instant) (order : List UInt64) (scan : TimeoutScan)
    (id : UInt64) :
    (order.foldl (scanTimeout config now) scan).outstanding[id]?.map ActiveReplayRequest.progress =
      scan.outstanding[id]?.map ActiveReplayRequest.progress := by
  induction order generalizing scan with
  | nil => rfl
  | cons k ks ih =>
    rw [List.foldl_cons, ih, scanTimeout_outstanding]
    split
    · rw [Option.map_map]
      congr 1
      funext req
      simp only [Function.comp, scanned]
      split <;> rfl
    · rfl

theorem checkTimeouts_progress {eng : RecoveryEngine} {now : Instant} {order : List UInt64}
    {retries : List ReplayRequestPayload} (hok : (eng.checkTimeouts now order).1 = .ok retries) (id : UInt64) :
    (eng.checkTimeouts now order).2.outstandingRequests[id]?.map ActiveReplayRequest.progress =
      eng.outstandingRequests[id]?.map ActiveReplayRequest.progress := by
  have hscan := scan_progress eng.config now order ⟨eng.outstandingRequests, [], []⟩ id
  unfold checkTimeouts at hok ⊢
  generalize order.foldl (scanTimeout eng.config now) ⟨eng.outstandingRequests, [], []⟩ = scan at hok hscan ⊢
  dsimp only at hok ⊢
  cases hfailed : scan.failed with
  | nil => exact hscan
  | cons failure rest =>
    rw [hfailed] at hok
    cases hok

end RecoveryEngine

namespace Subscriber

variable {sub next : Subscriber} {p : UInt64}

/-- Replay traffic takes nothing away. -/
theorem RecoveryStep.grow {e : Event}
    (keyed : OrderedMap.Keyed OwnedFrame.seq sub.receiver.recovery.bufferedOutOfOrder)
    (hstep : RecoveryStep sub e next) : ∀ k, sub.Has k → next.Has k := by
  cases hstep with
  | quiet notData notComplete buffered =>
    intro k hk
    rw [Has, buffered]
    exact hk
  | @pending id frame recovery notComplete buffered =>
    rintro k (hk | ⟨g, hg⟩)
    · exact Or.inl hk
    right
    rw [buffered, OrderedMap.get_insert]
    split
    · exact ⟨frame, rfl⟩
    · exact ⟨g, hg⟩
  | @released id frame recovery drained complete buffered drain =>
    refine fun k hk => Or.inl ?_
    rw [List.map_append, List.mem_append]
    refine hk.imp_right fun hbuffered => ?_
    rw [drain, RecoveryEngine.mem_released keyed]
    exact Or.inr hbuffered

/-- An outstanding request still waits for the sequence. -/
def Pending (sub : Subscriber) (k : UInt64) : Prop :=
  ∃ (id : UInt64) (req : ActiveReplayRequest), sub.receiver.recovery.outstandingRequests[id]? = some req ∧
    req.covers k ∧ k ∉ req.receivedSequences

/-- No request is refused or given up: the gap of a DATA frame can be asked for, or its frame is a
known one; a check finds no request out of retries; a notice is for no outstanding request. -/
def Persists (sub : Subscriber) : Event → Prop
  | .data _ f => ¬ sub.receiver.GapRefused f ∨
      sub.receiver.mode = .reliableOrdered ∧ sub.receiver.keyOf f ∈ sub.receiver.dedup.recentKeys
  | .timeouts now order => ∃ retries, (sub.receiver.recovery.checkTimeouts now order).1 = .ok retries
  | .replayUnavailable unavail => sub.receiver.recovery.outstandingRequests[unavail.requestId]? = none
  | .replayResponse _ _ => True

instance (sub : Subscriber) : DecidablePred sub.Persists
  | .data _ _ => inferInstanceAs (Decidable (_ ∨ _))
  | .timeouts now order =>
    match h : (sub.receiver.recovery.checkTimeouts now order).1 with
    | .ok retries => .isTrue ⟨retries, h⟩
    | .error _ => .isFalse fun ⟨retries, hok⟩ => by rw [h] at hok; cases hok
  | .replayUnavailable _ => inferInstanceAs (Decidable (_ = none))
  | .replayResponse _ _ => inferInstanceAs (Decidable True)

/-- A DATA frame is numbered, and a response lies in the range of its request. -/
def Fitting (sub : Subscriber) : Event → Prop
  | .data _ f => 0 < f.seq
  | .replayResponse id f =>
    ∀ req ∈ sub.receiver.recovery.outstandingRequests[id]?, req.covers f.seq
  | _ => True

instance (sub : Subscriber) : DecidablePred sub.Fitting
  | .data _ _ => inferInstanceAs (Decidable (_ < _))
  | .timeouts _ _ => inferInstanceAs (Decidable True)
  | .replayUnavailable _ => inferInstanceAs (Decidable True)
  | .replayResponse _ _ => inferInstanceAs (Decidable (∀ req ∈ _, _))

def Served (sub : Subscriber) (e : Event) : Prop := sub.Fitting e ∧ sub.Persists e

instance (sub : Subscriber) : DecidablePred sub.Served := fun _ => inferInstanceAs (Decidable (_ ∧ _))

/-- Below each sequence the worker has, it has all others or waits for them. -/
structure Closing (p : UInt64) (sub : Subscriber) : Prop extends Accounted p sub where
  closed : ∀ s, sub.Has s → ∀ k, 0 < k → k < s → sub.Has k ∨ sub.Pending k
  ordered : ∀ (id : UInt64) req, sub.receiver.recovery.outstandingRequests[id]? = some req →
    req.fromSequence ≤ req.toSequence
  ends : ∀ (id : UInt64) req, sub.receiver.recovery.outstandingRequests[id]? = some req →
    ∃ s, sub.Has s ∧ req.toSequence < s
  received : ∀ (id : UInt64) req, sub.receiver.recovery.outstandingRequests[id]? = some req →
    ∀ s ∈ req.receivedSequences, sub.Has s
  empties : (∀ id : UInt64, sub.receiver.recovery.outstandingRequests[id]? = none) →
    ∀ k : UInt64, sub.receiver.recovery.bufferedOutOfOrder[k]? = none

namespace Closing

theorem fresh (streamId p : UInt64) (cfg : RecoveryConfig) {mode : DeliveryMode}
    (hmode : mode = .reliableOrdered ∨ mode = .atLeastOnce) :
    Closing p (Subscriber.new streamId mode cfg) where
  toAccounted := .fresh streamId p cfg hmode
  closed := by
    rintro s (hs | ⟨g, hg⟩)
    · cases hs
    · simp [Subscriber.new] at hg
  ordered := fun id req h => by simp [Subscriber.new] at h
  ends := fun id req h => by simp [Subscriber.new] at h
  received := fun id req h => by simp [Subscriber.new] at h
  empties := fun _ k => by simp [Subscriber.new]

/-- The worker has what it had, and below whatever is new it has all or waits for it. -/
theorem closed_of (h : Closing p sub) (grow : ∀ k, sub.Has k → next.Has k)
    (new : ∀ s, next.Has s → sub.Has s ∨ ∀ k, 0 < k → k < s → next.Has k ∨ next.Pending k)
    (pending : ∀ k, sub.Pending k → next.Has k ∨ next.Pending k) :
    ∀ s, next.Has s → ∀ k, 0 < k → k < s → next.Has k ∨ next.Pending k := by
  intro s hs k hpos hlt
  rcases new s hs with hold | hnew
  · rcases h.closed s hold k hpos hlt with hhas | hpending
    · exact Or.inl (grow k hhas)
    · exact pending k hpending
  · exact hnew k hpos hlt

/-- A step that touches neither the requests nor what the worker has below `s`, which it has then. -/
theorem of_has (h : Closing p sub) (acc : Accounted p next) (grow : ∀ k, sub.Has k → next.Has k)
    (outstanding : next.receiver.recovery.outstandingRequests = sub.receiver.recovery.outstandingRequests)
    (new : ∀ s, next.Has s → sub.Has s ∨ ∀ k, 0 < k → k < s → next.Has k)
    (shrinks : (∀ k : UInt64, sub.receiver.recovery.bufferedOutOfOrder[k]? = none) →
      ∀ k : UInt64, next.receiver.recovery.bufferedOutOfOrder[k]? = none) : Closing p next where
  toAccounted := acc
  closed := by
    apply h.closed_of grow
    · exact fun s hs => (new s hs).imp_right fun hall k hpos hlt => Or.inl (hall k hpos hlt)
    · rintro k ⟨id, req, hget, hcovers, hmissing⟩
      exact Or.inr ⟨id, req, by rw [outstanding]; exact hget, hcovers, hmissing⟩
  ordered := by
    intro id req hget
    rw [outstanding] at hget
    exact h.ordered id req hget
  ends := by
    intro id req hget
    rw [outstanding] at hget
    obtain ⟨s, hs, hlt⟩ := h.ends id req hget
    exact ⟨s, grow s hs, hlt⟩
  received := by
    intro id req hget s hs
    rw [outstanding] at hget
    exact grow s (h.received id req hget s hs)
  empties := by
    intro none
    rw [outstanding] at none
    exact shrinks (h.empties none)

/-- A gap from `e` to a frame the worker has then, for which it has asked under a free id. -/
theorem of_gap (h : Closing p sub) (acc : Accounted p next) {e s : UInt64} {now : Instant}
    (expected : e = sub.receiver.tracker.expectedFor p) (ahead : e < s)
    (grow : ∀ k, sub.Has k → next.Has k) (has : ∀ k, next.Has k → sub.Has k ∨ k = s) (hs : next.Has s)
    (free : sub.receiver.recovery.outstandingRequests[sub.receiver.recovery.nextRequestId]? = none)
    (outstanding : next.receiver.recovery.outstandingRequests =
      sub.receiver.recovery.outstandingRequests.insert sub.receiver.recovery.nextRequestId
        (sub.receiver.recovery.freshRequest now e (s - 1))) : Closing p next := by
  have hend : s - 1 < s := by
    have hpos : 0 < s := UInt64.lt_of_le_of_lt UInt64.zero_le ahead
    rw [UInt64.lt_iff_toNat_lt, UInt64.toNat_zero] at hpos
    rw [UInt64.lt_iff_toNat_lt, Counter.toNat_pred (UInt64.lt_of_le_of_lt UInt64.zero_le ahead)]
    omega
  have hkept : ∀ (id : UInt64) req, sub.receiver.recovery.outstandingRequests[id]? = some req →
      next.receiver.recovery.outstandingRequests[id]? = some req := by
    intro id req hget
    rw [outstanding, OrderedMap.get_insert, if_neg]
    · exact hget
    · rintro rfl
      rw [free] at hget
      cases hget
  refine ⟨acc, h.closed_of grow (fun t ht => (has t ht).imp_right ?_) ?_, ?_, ?_, ?_, ?_⟩
  · rintro rfl k hpos hlt
    by_cases hbelow : k < e
    · exact Or.inl (grow k (h.below k hpos (expected ▸ hbelow)))
    · refine Or.inr ⟨sub.receiver.recovery.nextRequestId, _, by rw [outstanding, OrderedMap.get_insert, if_pos rfl],
        ⟨UInt64.not_lt.mp hbelow, ?_⟩, List.not_mem_nil⟩
      exact Counter.le_pred_of_lt hlt
  · rintro k ⟨id, req, hget, hcovers, hmissing⟩
    exact Or.inr ⟨id, req, hkept id req hget, hcovers, hmissing⟩
  · rw [outstanding]
    exact OrderedMap.forall_get_insert (Counter.le_pred_of_lt ahead) fun id req _ hold => h.ordered id req hold
  · rw [outstanding]
    refine OrderedMap.forall_get_insert ⟨s, hs, hend⟩ fun id req _ hold => ?_
    obtain ⟨t, ht, hlt⟩ := h.ends id req hold
    exact ⟨t, grow t ht, hlt⟩
  · rw [outstanding]
    refine OrderedMap.forall_get_insert (fun t ht => absurd ht List.not_mem_nil) fun id req _ hold t ht => ?_
    exact grow t (h.received id req hold t ht)
  · intro none
    have := none sub.receiver.recovery.nextRequestId
    rw [outstanding, OrderedMap.get_insert, if_pos rfl] at this
    cases this

end Closing

/-- The next id is free, as long as the ledger is kept. -/
theorem KeepsLedger.next_free {cfg : RecoveryConfig} (h : KeepsLedger cfg sub) :
    sub.receiver.recovery.outstandingRequests[sub.receiver.recovery.nextRequestId]? = none := by
  cases hget : sub.receiver.recovery.outstandingRequests[sub.receiver.recovery.nextRequestId]? with
  | none => rfl
  | some req => exact absurd (h.issued.below _ (h.issued.known _ req hget)) (UInt64.lt_irrefl _)

/-- A step that keeps all the worker has, and gains the sequence of the frame. -/
structure Gains (p : UInt64) (f : OwnedFrame) (sub next : Subscriber) : Prop where
  closing : Closing p next
  grow : ∀ k, sub.Has k → next.Has k
  has : next.Has f.seq

namespace Closing

variable {cfg : RecoveryConfig} {f : OwnedFrame}

/-- A DATA frame that is dropped, as the worker has its sequence. -/
theorem data_dropped (h : Closing p sub) (acc : Accounted p next) (hforwarded : next.forwarded = sub.forwarded)
    (hreceiver : next.receiver = sub.receiver.observed f) (hhas : sub.Has f.seq) : Gains p f sub next := by
  have hiff : ∀ k, next.Has k ↔ sub.Has k := by
    intro k
    rw [Has, Has, hforwarded, hreceiver, StreamReceiver.observed_recovery]
  refine ⟨h.of_has acc (fun k => (hiff k).mpr) (by rw [hreceiver]; rfl) (fun s hs => Or.inl ((hiff s).mp hs))
    (fun none => ?_), fun k => (hiff k).mpr, (hiff _).mpr hhas⟩
  rw [hreceiver]
  exact none

/-- The expected DATA frame, delivered with what was buffered behind it. -/
theorem data_inOrder (h : Closing p sub) (acc : Accounted p next)
    (expected : f.seq = sub.receiver.tracker.expectedFor p)
    (hforwarded : next.forwarded =
      sub.forwarded ++ ((sub.receiver.observed f).deliverInOrder f f.seq).1.frames)
    (hreceiver : next.receiver = ((sub.receiver.observed f).deliverInOrder f f.seq).2) :
    Gains p f sub next := by
  obtain ⟨drained, left, n, hspec, hd⟩ := StreamReceiver.deliverInOrder_drained h.keyed f
  rw [hspec.frames, Delivery.frames] at hforwarded
  have hleft : next.receiver.recovery.bufferedOutOfOrder = left := by
    rw [hreceiver, hspec.recovery]
  have hmem : ∀ k, k ∈ next.forwarded.map OwnedFrame.seq ↔
      k ∈ sub.forwarded.map OwnedFrame.seq ∨ k = f.seq ∨ k ∈ drained.map OwnedFrame.seq := by
    intro k
    rw [hforwarded, List.map_append, List.mem_append, List.map_cons, List.mem_cons]
  have grow : ∀ k, sub.Has k → next.Has k := by
    rintro k (hk | ⟨g, hg⟩)
    · exact Or.inl ((hmem k).mpr (Or.inl hk))
    · by_cases hin : k ∈ drained.map OwnedFrame.seq
      · exact Or.inl ((hmem k).mpr (Or.inr (Or.inr hin)))
      · exact Or.inr ⟨g, by rw [hleft, hd.left_get, if_neg hin, hg]⟩
  refine ⟨h.of_has acc grow ?_ ?_ ?_, grow, Or.inl ((hmem _).mpr (Or.inr (Or.inl rfl)))⟩
  · rw [hreceiver, hspec.recovery]
    rfl
  · rintro s (hs | ⟨g, hg⟩)
    · rcases (hmem s).mp hs with hold | rfl | hdrained
      · exact Or.inl (Or.inl hold)
      · exact Or.inr fun k hk hlt => grow k (h.below k hk (expected ▸ hlt))
      · obtain ⟨g, hg, rfl⟩ := List.mem_map.mp hdrained
        exact Or.inl (Or.inr ⟨g, hd.taken g hg⟩)
    · rw [hleft, hd.left_get] at hg
      split at hg
      · cases hg
      · exact Or.inl (Or.inr ⟨g, hg⟩)
  · intro none k
    rw [hleft, hd.left_get]
    split
    · rfl
    · exact none k

/-- A DATA frame that is buffered behind a gap, which is asked for. -/
theorem data_buffered (h : Closing p sub) (ledger : KeepsLedger cfg sub) (acc : Accounted p next) {now : Instant}
    (hp : f.header.publisherId = p) (ahead : sub.receiver.expectedOf f < f.seq)
    (accepted : ¬ sub.receiver.recovery.Refuses (sub.receiver.expectedOf f) (f.seq - 1))
    (hforwarded : next.forwarded = sub.forwarded)
    (hreceiver : next.receiver =
      ((sub.receiver.observed f).bufferGap now f (sub.receiver.expectedOf f) (f.seq - 1)).2) :
    Gains p f sub next := by
  have hbuffered : ∀ k : UInt64, next.receiver.recovery.bufferedOutOfOrder[k]? =
      if k = f.seq then some f else sub.receiver.recovery.bufferedOutOfOrder[k]? := by
    intro k
    rw [hreceiver, StreamReceiver.bufferGap_get, StreamReceiver.observed_recovery]
  rw [StreamReceiver.bufferGap_accepted (sub.receiver.observed f) now f accepted] at hreceiver
  have hhas : next.Has f.seq := Or.inr ⟨f, by rw [hbuffered, if_pos rfl]⟩
  have grow : ∀ k, sub.Has k → next.Has k := by
    rintro k (hk | ⟨g, hg⟩)
    · left
      rwa [hforwarded]
    · right
      rw [hbuffered]
      split
      · exact ⟨f, rfl⟩
      · exact ⟨g, hg⟩
  have hsame : sub.receiver.expectedOf f = sub.receiver.tracker.expectedFor p := by
    rw [StreamReceiver.expectedOf, hp]
  refine ⟨h.of_gap acc hsame ahead grow ?_ hhas ledger.next_free (by rw [hreceiver]; rfl), grow, hhas⟩
  rintro k (hk | ⟨g, hg⟩)
  · rw [hforwarded] at hk
    exact Or.inl (Or.inl hk)
  · rw [hbuffered] at hg
    split at hg
    · rename_i heq
      exact Or.inr heq
    · exact Or.inl (Or.inr ⟨g, hg⟩)

/-- A DATA frame in `ReliableOrdered` mode. -/
theorem data_reliable (h : Closing p sub) (ledger : KeepsLedger cfg sub)
    (mode : sub.receiver.mode = .reliableOrdered) (now : Instant) (hp : f.header.publisherId = p)
    (served : sub.Served (.data now f)) : Gains p f sub (sub.handleData now f) := by
  have acc := h.toAccounted.data_reliable mode now hp
  have hcases := StreamReceiver.reliable_cases mode now f
  have hforwarded : (sub.handleData now f).forwarded = _ := handleData_forwarded
  have hreceiver : (sub.handleData now f).receiver = _ := handleData_receiver
  generalize sub.handleData now f = next at acc hforwarded hreceiver ⊢
  generalize sub.receiver.processDataFrame now f = result at hcases hforwarded hreceiver
  obtain ⟨hpos, hgap⟩ := served
  have hsame : sub.receiver.expectedOf f = sub.receiver.tracker.expectedFor p := by
    rw [StreamReceiver.expectedOf, hp]
  cases hcases with
  | suppressed dup =>
    exact h.data_dropped acc (hforwarded.trans (List.append_nil _)) hreceiver (h.recorded _ dup hp hpos)
  | inOrder fresh live expected => exact h.data_inOrder acc (expected.trans hsame) hforwarded hreceiver
  | reset fresh other started first =>
    rw [hp] at other
    exact (h.live.elim started other).elim
  | gap fresh unexpected ahead =>
    have accepted : ¬ sub.receiver.recovery.Refuses (sub.receiver.expectedOf f) (f.seq - 1) := by
      intro refused
      rcases hgap with hnot | ⟨-, dup⟩
      · exact hnot ⟨unexpected, ahead, refused⟩
      · exact fresh dup
    have hahead := (StreamReceiver.gap_ahead unexpected ahead).resolve_left (UInt64.pos_iff_ne_zero.mp hpos)
    rw [(StreamReceiver.bufferGap_spec _ now f _ _).1, List.append_nil] at hforwarded
    exact h.data_buffered ledger acc hp hahead accepted hforwarded hreceiver
  | old fresh same behind =>
    refine h.data_dropped acc (hforwarded.trans (List.append_nil _)) hreceiver (h.below _ hpos ?_)
    rwa [← hsame]

/-- A DATA frame in `AtLeastOnce` mode. -/
theorem data_atLeastOnce (h : Closing p sub) (ledger : KeepsLedger cfg sub)
    (mode : sub.receiver.mode = .atLeastOnce) (now : Instant) (hp : f.header.publisherId = p)
    (served : sub.Served (.data now f)) : Gains p f sub (sub.handleData now f) := by
  have acc := h.toAccounted.data_atLeastOnce mode now hp
  obtain ⟨hpos, hgap⟩ := served
  have hgap : ¬ sub.receiver.GapRefused f := by
    rcases hgap with hnot | ⟨reliable, -⟩
    · exact hnot
    · rw [mode] at reliable
      cases reliable
  have hdelivers := (StreamReceiver.atLeastOnce_delivers mode now f).mpr hgap
  have hown := StreamReceiver.atLeastOnce_own mode now f
  have hprocess := StreamReceiver.processDataFrame_atLeastOnce mode now f
  have hbuffered : (sub.receiver.processDataFrame now f).2.recovery.bufferedOutOfOrder =
      sub.receiver.recovery.bufferedOutOfOrder := by
    rw [hprocess, (StreamReceiver.processAtLeastOnce_after _ now f f.seq _).buffered]
  have hforwarded : (sub.handleData now f).forwarded = _ := handleData_forwarded
  have hreceiver : (sub.handleData now f).receiver = _ := handleData_receiver
  generalize sub.handleData now f = next at acc hforwarded hreceiver ⊢
  have hhas : ∀ k, next.Has k ↔ sub.Has k ∨ k = f.seq := by
    intro k
    rw [Has, Has, hreceiver, hbuffered, hforwarded, List.map_append, List.mem_append, or_right_comm]
    refine or_congr_right ?_
    constructor
    · intro hk
      obtain ⟨g, hg, rfl⟩ := List.mem_map.mp hk
      rw [hown g hg]
    · rintro rfl
      exact List.mem_map_of_mem hdelivers
  have grow : ∀ k, sub.Has k → next.Has k := fun k hk => (hhas k).mpr (Or.inl hk)
  have hnext : next.Has f.seq := (hhas _).mpr (Or.inr rfl)
  -- a frame that opens no gap comes no later than the expected one
  have still : f.seq ≤ sub.receiver.tracker.expectedFor p →
      next.receiver.recovery = sub.receiver.recovery → Closing p next := by
    intro hle hrecovery
    refine h.of_has acc grow (by rw [hrecovery]) (fun s hs => ((hhas s).mp hs).imp_right ?_) fun none => ?_
    · rintro rfl k hk hlt
      exact grow k (h.below k hk (UInt64.lt_of_lt_of_le hlt hle))
    · rw [hrecovery]
      exact none
  refine ⟨?_, grow, hnext⟩
  rw [hprocess] at hreceiver
  by_cases hexp : f.seq = sub.receiver.tracker.expectedFor f.header.publisherId
  · rw [StreamSequenceTracker.observe_status_same (by rw [hp]; exact h.live) hexp] at hreceiver
    refine still ?_ (by rw [hreceiver]; rfl)
    rw [← hp, ← hexp]
    exact UInt64.le_refl _
  rcases StreamSequenceTracker.observe_status_other hexp with ⟨status, ahead⟩ | ⟨status, same, behind⟩
  · have hahead : sub.receiver.tracker.expectedFor f.header.publisherId < f.seq :=
      (StreamReceiver.gap_ahead hexp ahead).resolve_left (UInt64.pos_iff_ne_zero.mp hpos)
    have accepted : ¬ sub.receiver.recovery.Refuses
        (sub.receiver.tracker.expectedFor f.header.publisherId) (f.seq - 1) :=
      fun refused => hgap ⟨hexp, ahead, refused⟩
    rw [status] at hreceiver
    unfold StreamReceiver.processAtLeastOnce at hreceiver
    dsimp only at hreceiver
    rw [RecoveryEngine.createReplayRequest_accepted accepted] at hreceiver
    exact h.of_gap acc (by rw [hp]) hahead grow (fun k => (hhas k).mp) hnext ledger.next_free
      (by rw [hreceiver])
  · rw [status] at hreceiver
    refine still ?_ (by rw [hreceiver]; rfl)
    rw [← hp]
    exact UInt64.le_of_lt behind

/-! ## Replay traffic -/

/-- A response in range: the worker has its frame then, and its request notes the arrival or has
nothing left to wait for. The other requests are as they were. -/
theorem of_response (h : Closing p sub) (acc : Accounted p next) {id : UInt64} {req : ActiveReplayRequest}
    (hget : sub.receiver.recovery.outstandingRequests[id]? = some req) (hcovers : req.covers f.seq)
    (has : ∀ k, next.Has k ↔ sub.Has k ∨ k = f.seq)
    (others : ∀ k ≠ id, next.receiver.recovery.outstandingRequests[k]? =
      sub.receiver.recovery.outstandingRequests[k]?)
    (own : next.receiver.recovery.outstandingRequests[id]? = some (req.recordReceived f.seq) ∨
      next.receiver.recovery.outstandingRequests[id]? = none ∧ (req.recordReceived f.seq).allArrived = true)
    (empties : (∀ k : UInt64, next.receiver.recovery.outstandingRequests[k]? = none) →
      ∀ k : UInt64, next.receiver.recovery.bufferedOutOfOrder[k]? = none) : Closing p next := by
  obtain ⟨t, ht, hend⟩ := h.ends id req hget
  have hmem := RecoveryEngine.mem_recordReceived hcovers
  have hsame := RecoveryEngine.recordReceived_covers req f.seq
  have grow : ∀ k, sub.Has k → next.Has k := fun k hk => (has k).mpr (Or.inl hk)
  have hself : next.Has f.seq := (has _).mpr (Or.inr rfl)
  have active : ∀ (k : UInt64) req', next.receiver.recovery.outstandingRequests[k]? = some req' →
      k = id ∧ req' = req.recordReceived f.seq ∨ sub.receiver.recovery.outstandingRequests[k]? = some req' := by
    intro k req' hk
    by_cases hid : k = id
    · subst hid
      rcases own with hown | ⟨hnone, -⟩
      · rw [hown] at hk
        cases hk
        exact Or.inl ⟨rfl, rfl⟩
      · rw [hnone] at hk
        cases hk
    · rw [others k hid] at hk
      exact Or.inr hk
  have pending : ∀ k, sub.Pending k → next.Has k ∨ next.Pending k := by
    rintro k ⟨id', req', hget', hcov, hmissing⟩
    by_cases hk : k = f.seq
    · rw [hk]
      exact Or.inl hself
    right
    by_cases hid : id' = id
    · subst hid
      rw [hget] at hget'
      cases hget'
      have hstill : k ∉ (req.recordReceived f.seq).receivedSequences := by
        rw [hmem]
        exact fun hor => hor.elim hmissing hk
      rcases own with hown | ⟨-, hall⟩
      · exact ⟨id', _, hown, (hsame k).mpr hcov, hstill⟩
      · exact absurd (ActiveReplayRequest.allArrived_iff.mp hall k ((hsame k).mpr hcov)) hstill
    · exact ⟨id', req', by rw [others id' hid, hget'], hcov, hmissing⟩
  refine ⟨acc, h.closed_of grow (fun s hs => ((has s).mp hs).imp_right ?_) pending, ?_, ?_, ?_, empties⟩
  · -- the request ends below a sequence the worker has
    rintro rfl k hpos hlt
    have hbelow : k < t := UInt64.lt_trans hlt (UInt64.lt_of_le_of_lt hcovers.2 hend)
    rcases h.closed t ht k hpos hbelow with hhas | hpending
    · exact Or.inl (grow k hhas)
    · exact pending k hpending
  · intro k req' hk
    rcases active k req' hk with ⟨-, rfl⟩ | hold
    · rw [RecoveryEngine.recordReceived_eq]
      exact h.ordered id req hget
    · exact h.ordered k req' hold
  · intro k req' hk
    rcases active k req' hk with ⟨-, rfl⟩ | hold
    · rw [RecoveryEngine.recordReceived_eq]
      exact ⟨t, grow t ht, hend⟩
    · obtain ⟨u, hu, hlt⟩ := h.ends k req' hold
      exact ⟨u, grow u hu, hlt⟩
  · intro k req' hk s hs
    rcases active k req' hk with ⟨-, rfl⟩ | hold
    · rcases (hmem s).mp hs with hold | rfl
      · exact grow s (h.received id req hget s hold)
      · exact hself
    · exact grow s (h.received k req' hold s hs)

/-- A response in the range of its request, or to none. -/
theorem replayResponse (h : Closing p sub) {id : UInt64} (served : sub.Served (.replayResponse id f)) :
    Closing p (sub.handleReplayResponse id f) := by
  have acc : Accounted p (sub.handleReplayResponse id f) := h.toAccounted.recovery (sub.replayResponse_cases id f)
  unfold handleReplayResponse at acc ⊢
  cases hget : sub.receiver.recovery.outstandingRequests[id]? with
  | none =>
    rw [RecoveryEngine.handleReplayResponse_unknown hget]
    exact h
  | some req =>
    have hcovers := served.1 req hget
    cases hcomplete : sub.receiver.recovery.completes id f.seq with
    | false =>
      rw [RecoveryEngine.handleReplayResponse_pending hget hcomplete] at acc ⊢
      refine h.of_response acc hget hcovers (fun k => ?_) (fun k hk => ?_) (Or.inl ?_) fun none => ?_
      · rw [Has, Has, or_assoc]
        refine or_congr_right ?_
        simp only [OrderedMap.get_insert]
        by_cases hk : k = f.seq <;> simp [hk]
      · simp only [OrderedMap.get_insert, if_neg hk]
      · simp only [OrderedMap.get_insert, if_true]
      · have hnone := none id
        simp only [OrderedMap.get_insert, if_true] at hnone
        cases hnone
    | true =>
      obtain ⟨hok, -⟩ := RecoveryEngine.handleReplayResponse_complete hcomplete
      have hretires := RecoveryEngine.handleReplayResponse_retires hget hcomplete
      have hall : (req.recordReceived f.seq).allArrived = true := by
        unfold RecoveryEngine.completes at hcomplete
        rwa [hget] at hcomplete
      generalize sub.receiver.recovery.handleReplayResponse id f = result at hok hretires acc ⊢
      obtain ⟨outcome, recovery⟩ := result
      obtain rfl : outcome = _ := hok
      obtain rfl : recovery = _ := hretires
      dsimp only at acc ⊢
      rw [foldl_forwardDrained] at acc ⊢
      refine h.of_response acc hget hcovers (fun k => ?_) (fun k hk => ?_) (Or.inr ⟨?_, hall⟩) fun _ k => ?_
      · have hempty : ¬ ∃ g, (∅ : OrderedMap UInt64 OwnedFrame)[k]? = some g := by simp
        rw [Has, or_iff_left hempty, List.map_append, List.mem_append, RecoveryEngine.mem_released h.keyed,
          or_comm (a := k = f.seq), ← or_assoc]
        rfl
      · simp only [OrderedMap.get_erase, if_neg hk]
      · simp only [OrderedMap.get_erase, if_true]
      · simp

/-- A step that leaves what the worker has, and what each request waits for. -/
theorem of_progress (h : Closing p sub) (acc : Accounted p next) (forwarded : next.forwarded = sub.forwarded)
    (buffered : next.receiver.recovery.bufferedOutOfOrder = sub.receiver.recovery.bufferedOutOfOrder)
    (progress : ∀ id : UInt64, next.receiver.recovery.outstandingRequests[id]?.map ActiveReplayRequest.progress =
      sub.receiver.recovery.outstandingRequests[id]?.map ActiveReplayRequest.progress) : Closing p next := by
  have hiff : ∀ k, next.Has k ↔ sub.Has k := fun k => by rw [Has, Has, forwarded, buffered]
  have hback : ∀ (id : UInt64) req, next.receiver.recovery.outstandingRequests[id]? = some req →
      ∃ req', sub.receiver.recovery.outstandingRequests[id]? = some req' ∧ req'.progress = req.progress := by
    intro id req hget
    have hsame := progress id
    rw [hget] at hsame
    exact Option.map_eq_some_iff.mp hsame.symm
  refine ⟨acc, h.closed_of (fun k => (hiff k).mpr) (fun s hs => Or.inl ((hiff s).mp hs)) ?_, ?_, ?_, ?_, ?_⟩
  · rintro k ⟨id, req, hget, hcovers, hmissing⟩
    have hsame := progress id
    rw [hget] at hsame
    obtain ⟨req', hget', heq⟩ := Option.map_eq_some_iff.mp hsame
    obtain ⟨hfrom, hto, hreceived⟩ := progress_eq_iff.mp heq
    refine Or.inr ⟨id, req', hget', ?_, by rwa [hreceived]⟩
    rwa [ActiveReplayRequest.covers, hfrom, hto]
  · intro id req hget
    obtain ⟨req', hget', heq⟩ := hback id req hget
    obtain ⟨hfrom, hto, -⟩ := progress_eq_iff.mp heq
    rw [← hfrom, ← hto]
    exact h.ordered id req' hget'
  · intro id req hget
    obtain ⟨req', hget', heq⟩ := hback id req hget
    obtain ⟨s, hs, hlt⟩ := h.ends id req' hget'
    exact ⟨s, (hiff s).mpr hs, by rwa [(progress_eq_iff.mp heq).2.1] at hlt⟩
  · intro id req hget s hs
    obtain ⟨req', hget', heq⟩ := hback id req hget
    exact (hiff s).mpr (h.received id req' hget' s (by rwa [(progress_eq_iff.mp heq).2.2]))
  · intro none k
    rw [buffered]
    refine h.empties (fun id => ?_) k
    have hsame := progress id
    rw [none id] at hsame
    exact Option.map_eq_none_iff.mp hsame.symm

/-- A check that finds no request out of retries. -/
theorem timeouts (h : Closing p sub) {now : Instant} {order : List UInt64}
    (served : sub.Served (.timeouts now order)) : Closing p (sub.handleTimeouts now order) := by
  have acc : Accounted p (sub.handleTimeouts now order) := h.toAccounted.step (e := .timeouts now order) trivial
  obtain ⟨-, retries, hok⟩ := served
  have hbuffered : (sub.receiver.recovery.checkTimeouts now order).2.bufferedOutOfOrder =
      sub.receiver.recovery.bufferedOutOfOrder := RecoveryEngine.checkTimeouts_buffered order
  have hprogress := RecoveryEngine.checkTimeouts_progress hok
  unfold handleTimeouts at acc ⊢
  generalize sub.receiver.recovery.checkTimeouts now order = result at hok hbuffered hprogress acc ⊢
  obtain ⟨outcome, recovery⟩ := result
  obtain rfl : outcome = .ok retries := hok
  exact h.of_progress acc rfl hbuffered hprogress

/-- **Step** -/
theorem step (h : Closing p sub) (ledger : KeepsLedger cfg sub) {e : Event} (hp : e.OfPublisher p)
    (served : sub.Served e) :
    Closing p (sub.step e) ∧ (∀ k, sub.Has k → (sub.step e).Has k) ∧
      ∀ now f, e = .data now f → (sub.step e).Has f.seq := by
  cases e with
  | data now f =>
    have gains : Gains p f sub (sub.handleData now f) := by
      rcases h.mode with mode | mode
      · exact h.data_reliable ledger mode now hp served
      · exact h.data_atLeastOnce ledger mode now hp served
    refine ⟨gains.closing, gains.grow, ?_⟩
    rintro _ _ ⟨rfl, rfl⟩
    exact gains.has
  | timeouts now order =>
    refine ⟨h.timeouts served, ?_, nofun⟩
    rcases sub.step_cases (.timeouts now order) with ⟨_, _, hdata⟩ | hstep
    · cases hdata
    · exact hstep.grow h.keyed
  | replayResponse id f =>
    exact ⟨h.replayResponse served, (sub.replayResponse_cases id f).grow h.keyed, nofun⟩
  | replayUnavailable unavail =>
    have acc : Accounted p (sub.handleReplayUnavailable unavail) :=
      h.toAccounted.step (e := .replayUnavailable unavail) trivial
    have hsame : sub.receiver.recovery.outstandingRequests.erase unavail.requestId =
        sub.receiver.recovery.outstandingRequests := OrderedMap.erase_eq_self_iff.mpr served.2
    refine ⟨h.of_progress acc rfl rfl fun id => ?_, fun _ hk => hk, nofun⟩
    exact congrArg (fun m : OrderedMap UInt64 ActiveReplayRequest =>
      m[id]?.map ActiveReplayRequest.progress) hsame

/-- Once nothing is outstanding, all up to a sequence the worker has are forwarded. -/
theorem forwarded_of_idle (h : Closing p sub) (idle : sub.receiver.recovery.outstandingRequests = ∅)
    {s k : UInt64} (has : sub.Has s) (hpos : 0 < k) (hle : k ≤ s) :
    k ∈ sub.forwarded.map OwnedFrame.seq := by
  have idle : ∀ id : UInt64, sub.receiver.recovery.outstandingRequests[id]? = none := by
    intro id
    rw [idle]
    simp
  have hhas : sub.Has k := by
    rcases UInt64.lt_or_eq_of_le hle with hlt | rfl
    · rcases h.closed s has k hpos hlt with hhas | ⟨id, req, hget, -⟩
      · exact hhas
      · rw [idle id] at hget
        cases hget
    · exact has
  rcases hhas with hforwarded | ⟨g, hg⟩
  · exact hforwarded
  · rw [h.empties idle k] at hg
    cases hg

end Closing

theorem requested_length_le_run (sub : Subscriber) (events : List Event) :
    sub.requested.length ≤ (Runs.run Subscriber.step sub events).requested.length := by
  induction events generalizing sub with
  | nil => exact Nat.le_refl _
  | cons e es ih => exact le_trans (sub.requested_length_le e) (ih (sub.step e))

/-- **Run** -/
theorem Closing.run {cfg : RecoveryConfig} {events : List Event} (h : Closing p sub)
    (ledger : KeepsLedger cfg sub) (hp : ∀ e ∈ events, e.OfPublisher p)
    (served : Runs.Each Subscriber.step Served sub events)
    (few : (Runs.run Subscriber.step sub events).requested.length + 1 < 2 ^ 64) :
    Closing p (Runs.run Subscriber.step sub events) ∧
      (∀ k, sub.Has k → (Runs.run Subscriber.step sub events).Has k) ∧
      ∀ now f, .data now f ∈ events → (Runs.run Subscriber.step sub events).Has f.seq := by
  induction events generalizing sub with
  | nil => exact ⟨h, fun _ hk => hk, fun _ _ hf => absurd hf List.not_mem_nil⟩
  | cons e es ih =>
    obtain ⟨hserved, hrest⟩ := served
    obtain ⟨hpe, hpes⟩ := List.forall_mem_cons.mp hp
    have hle := requested_length_le_run (sub.step e) es
    rw [Runs.run_cons] at few ⊢
    obtain ⟨hclosing, grow, has⟩ := h.step ledger hpe hserved
    obtain ⟨hend, growEnd, hasEnd⟩ := ih hclosing (ledger.step e (by omega)) hpes hrest few
    refine ⟨hend, fun k hk => growEnd k (grow k hk), fun now f hf => ?_⟩
    rcases List.mem_cons.mp hf with heq | hf
    · exact growEnd _ (has now f heq.symm)
    · exact hasEnd now f hf

end Subscriber

/-- **Completeness**: a worker in `ReliableOrdered` or `AtLeastOnce` mode whose requests are not refused
or given up has forwarded, whenever nothing is outstanding, all of `1..s` for each sequence `s` that it
was handed in a DATA frame or has forwarded. -/
theorem subscriber_complete (streamId p : UInt64) (mode : DeliveryMode) (config : RecoveryConfig)
    (recovers : mode = .reliableOrdered ∨ mode = .atLeastOnce) (events : List Event)
    (hp : ∀ e ∈ events, e.OfPublisher p)
    (served : Runs.Each Subscriber.step Subscriber.Served (Subscriber.new streamId mode config) events) :
    let sub := Runs.run Subscriber.step (Subscriber.new streamId mode config) events
    sub.requested.length + 1 < 2 ^ 64 →
      sub.receiver.recovery.outstandingRequests = ∅ →
        ∀ s, (s ∈ sub.forwarded.map OwnedFrame.seq ∨ ∃ now f, .data now f ∈ events ∧ f.seq = s) →
          ∀ k, 0 < k → k ≤ s → k ∈ sub.forwarded.map OwnedFrame.seq := by
  intro sub few idle s hs k hpos hle
  obtain ⟨closing, -, has⟩ := (Subscriber.Closing.fresh streamId p config recovers).run
    (.fresh streamId mode config) hp served few
  refine closing.forwarded_of_idle idle ?_ hpos hle
  rcases hs with hforwarded | ⟨now, f, hf, rfl⟩
  · exact Or.inl hforwarded
  · exact has now f hf

/-- Two gaps, filled by a response each, in the other order. -/
def twoGaps : List Event :=
  dataEvents 9 [1, 3, 5] ++ [replayOf 2 9 4, replayOf 2 9 2, replayOf 1 9 2, replayOf 2 9 3]

theorem subscriber_complete_twoGaps :
    let sub := Runs.run Subscriber.step (Subscriber.new 1 .reliableOrdered RecoveryConfig.default) twoGaps
    ∀ k, 0 < k → k ≤ 5 → k ∈ sub.forwarded.map OwnedFrame.seq :=
  subscriber_complete 1 9 .reliableOrdered RecoveryConfig.default (Or.inl rfl) twoGaps (by decide)
    (by decide +kernel) (by decide +kernel) (Std.ExtTreeMap.isEmpty_iff.mp (by decide +kernel)) 5
    (Or.inl (by decide +kernel))

end Rtdp
