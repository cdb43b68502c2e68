import Rtdp.Core.Delivery.ReliableOrdered

/-!
# Outstanding requests of a receiver fed DATA alone

Without replay traffic a request, once made, stays outstanding until the
publisher changes. Its id is then its number in the order of creation, so a new
request never overwrites an older one.
-/

namespace Rtdp

/-- Request ids are handed out `1, 2, …`, and none has been retired. -/
structure Numbered (eng : RecoveryEngine) : Prop where
  next : eng.nextRequestId.toNat = (eng.outstandingRequests.size + 1) % 2 ^ 64
  ids : ∀ (id : UInt64) req, eng.outstandingRequests[id]? = some req →
    id.toNat ≤ eng.outstandingRequests.size

namespace Numbered

variable {eng eng' : RecoveryEngine} {a b : UInt64} {req : ActiveReplayRequest}

theorem new (config : RecoveryConfig) : Numbered (RecoveryEngine.new config) := by
  refine ⟨rfl, fun id req h => ?_⟩
  simp [RecoveryEngine.new] at h

theorem room (h : ¬ eng.Refuses a b) : eng.outstandingRequests.size + 1 < 2 ^ 64 := by
  have hlt : ¬ eng.outstandingRequests.size ≥ eng.config.maxOutstandingRequests.toNat :=
    fun hge => h (Or.inr hge)
  have := eng.config.maxOutstandingRequests.toNat_lt
  omega

/-- The id of an accepted request is not in use. -/
theorem fresh (h : Numbered eng) (ok : ¬ eng.Refuses a b) :
    eng.outstandingRequests[eng.nextRequestId]? = none := by
  cases hget : eng.outstandingRequests[eng.nextRequestId]? with
  | none => rfl
  | some req =>
    have hid := h.ids _ _ hget
    have hroom := room ok
    rw [h.next, Nat.mod_eq_of_lt hroom] at hid
    omega

theorem insert (h : Numbered eng) (ok : ¬ eng.Refuses a b)
    (hnext : eng'.nextRequestId = eng.nextRequestId + 1)
    (hout : eng'.outstandingRequests = eng.outstandingRequests.insert eng.nextRequestId req) :
    Numbered eng' := by
  have hroom := room ok
  have hsize : eng'.outstandingRequests.size = eng.outstandingRequests.size + 1 := by
    rw [hout, OrderedMap.size_insert_of_none (h.fresh ok)]
  have hnow := h.next
  rw [Nat.mod_eq_of_lt hroom] at hnow
  refine ⟨?_, fun id r hr => ?_⟩
  · rw [hnext, hsize, UInt64.toNat_add, hnow]
    rfl
  · rw [hout] at hr
    rw [hsize]
    obtain ⟨rfl, -⟩ | ⟨-, hold⟩ := OrderedMap.get_insert_cases hr
    · rw [hnow]
    · exact Nat.le_succ_of_le (h.ids id r hold)

end Numbered

namespace StreamReceiver

variable {rx : StreamReceiver}

/-- An outstanding request was outstanding before the call, or the call handed it out. -/
theorem outstanding_step (mode : rx.mode = .reliableOrdered) (now : Instant) (f : OwnedFrame)
    {id : UInt64} {req : ActiveReplayRequest}
    (h : (rx.processDataFrame now f).2.recovery.outstandingRequests[id]? = some req) :
    rx.recovery.outstandingRequests[id]? = some req ∨
      (rx.processDataFrame now f).1.request = some ⟨id, req.fromSequence, req.toSequence⟩ := by
  have hcases := reliable_cases mode now f
  generalize rx.processDataFrame now f = result at hcases h ⊢
  cases hcases with
  | suppressed dup => exact Or.inl h
  | inOrder fresh live expected =>
    rw [(deliverInOrder_spec (rx.observed f) f f.seq).recovery] at h
    exact Or.inl h
  | reset fresh other started first => simp [RecoveryEngine.reset] at h
  | gap fresh unexpected ahead =>
    by_cases refused : rx.recovery.Refuses (rx.expectedOf f) (f.seq - 1)
    · obtain ⟨e, he⟩ := bufferGap_refused (rx.observed f) now f refused
      rw [he] at h
      exact Or.inl h
    · rw [bufferGap_accepted (rx.observed f) now f refused] at h ⊢
      obtain ⟨rfl, rfl⟩ | ⟨-, hold⟩ := OrderedMap.get_insert_cases h
      · exact Or.inr rfl
      · exact Or.inl hold
  | old fresh same behind => exact Or.inl h

/-- Fed by one publisher alone, a receiver keeps its requests numbered. -/
theorem numbered_step (mode : rx.mode = .reliableOrdered) (now : Instant) (f : OwnedFrame)
    (numbered : Numbered rx.recovery)
    (live : rx.tracker.activePublisherId = none ∨
      rx.tracker.activePublisherId = some f.header.publisherId) :
    Numbered (rx.processDataFrame now f).2.recovery := by
  have hcases := reliable_cases mode now f
  generalize rx.processDataFrame now f = result at hcases ⊢
  cases hcases with
  | suppressed dup => exact numbered
  | inOrder fresh live expected =>
    rw [(deliverInOrder_spec (rx.observed f) f f.seq).recovery]
    exact ⟨numbered.next, numbered.ids⟩
  | reset fresh other started first => exact (live.elim started other).elim
  | gap fresh unexpected ahead =>
    by_cases refused : rx.recovery.Refuses (rx.expectedOf f) (f.seq - 1)
    · obtain ⟨e, he⟩ := bufferGap_refused (rx.observed f) now f refused
      rw [he]
      exact ⟨numbered.next, numbered.ids⟩
    · rw [bufferGap_accepted (rx.observed f) now f refused]
      exact numbered.insert refused rfl rfl
  | old fresh same behind => exact numbered

/-- Requests are retired by a change of publisher only. -/
theorem outstanding_kept (mode : rx.mode = .reliableOrdered) (now : Instant) (f : OwnedFrame)
    (numbered : Numbered rx.recovery)
    (live : rx.tracker.activePublisherId = none ∨
      rx.tracker.activePublisherId = some f.header.publisherId ∨ f.seq ≠ 1)
    {id : UInt64} {req : ActiveReplayRequest} (h : rx.recovery.outstandingRequests[id]? = some req) :
    (rx.processDataFrame now f).2.recovery.outstandingRequests[id]? = some req := by
  have hcases := reliable_cases mode now f
  generalize rx.processDataFrame now f = result at hcases ⊢
  cases hcases with
  | suppressed dup => exact h
  | inOrder fresh live expected =>
    rw [(deliverInOrder_spec (rx.observed f) f f.seq).recovery]
    exact h
  | reset fresh other started first =>
    rcases live with hnone | hsame | hne
    · exact absurd hnone started
    · exact absurd hsame other
    · exact absurd first hne
  | gap fresh unexpected ahead =>
    by_cases refused : rx.recovery.Refuses (rx.expectedOf f) (f.seq - 1)
    · obtain ⟨e, he⟩ := bufferGap_refused (rx.observed f) now f refused
      rw [he]
      exact h
    · rw [bufferGap_accepted (rx.observed f) now f refused]
      simp only [OrderedMap.get_insert]
      split
      · rename_i heq
        rw [heq] at h
        exact absurd h (by rw [observed_recovery, numbered.fresh refused]; simp)
      · exact h
  | old fresh same behind => exact h

end StreamReceiver

/-- A receiver one publisher alone has fed: nothing was reset. -/
structure Sole (a : UInt64) (rx : StreamReceiver) : Prop where
  mode : rx.mode = .reliableOrdered
  numbered : Numbered rx.recovery
  live : rx.tracker.activePublisherId = none ∨ rx.tracker.activePublisherId = some a

theorem Sole.fresh (cfg : RecoveryConfig) (streamId a : UInt64) :
    Sole a (StreamReceiver.new streamId .reliableOrdered cfg) :=
  ⟨rfl, Numbered.new cfg, Or.inl rfl⟩

theorem Sole.step {a : UInt64} {rx : StreamReceiver} {f : OwnedFrame} (h : Sole a rx) (now : Instant)
    (hf : f.header.publisherId = a) : Sole a (rx.processDataFrame now f).2 := by
  have hafter := StreamReceiver.observed_after h.mode now f
  refine ⟨hafter.mode, ?_, Or.inr (by rw [hafter.active, hf])⟩
  apply StreamReceiver.numbered_step h.mode now f h.numbered
  rw [hf]
  exact h.live

theorem Sole.run {a : UInt64} {rx : StreamReceiver} {as : List Arrival} (h : Sole a rx)
    (has : ∀ y ∈ as, y.frame.header.publisherId = a) : Sole a (rx.feed as).receiver := by
  apply Runs.invariant (fun σ : Feed => Sole a σ.receiver) ?_ h (Runs.each_of_forall has)
  intro σ y hσ hy
  exact hσ.step y.now hy

end Rtdp
