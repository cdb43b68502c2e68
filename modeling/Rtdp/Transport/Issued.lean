import Rtdp.Core.Delivery.Latest
import Rtdp.Core.Recovery.Lifecycle
import Rtdp.Transport.Accounted

/-!
# The requests a worker has issued

Over all modes and whatever reaches the worker: an id is given to one request
only, every outstanding request is one that was sent, and none is sent more
often than its first time and `max_retries` more. Ids are `u64`s, so this holds
of a worker that has sent fewer than `2^64 - 1` requests.
-/

namespace Rtdp

open ActiveReplayRequest

/-- The requests sent so far, and those outstanding. -/
structure Issued (config : RecoveryConfig) (nextRequestId : UInt64)
    (requested : List ReplayRequestPayload) (outstanding : OrderedMap UInt64 ActiveReplayRequest) : Prop where
  next : nextRequestId.toNat ≤ requested.length + 1
  below : ∀ r ∈ requested, r.requestId < nextRequestId
  unique : ∀ r ∈ requested, ∀ r' ∈ requested, r.requestId = r'.requestId → r = r'
  known : ∀ (id : UInt64) req, outstanding[id]? = some req → req.payload id ∈ requested
  retries : ∀ (id : UInt64) req, outstanding[id]? = some req → req.retriesAttempted ≤ config.maxRetries
  spent : ∀ (id : UInt64) req, outstanding[id]? = some req →
    timesSent id requested ≤ req.retriesAttempted.toNat + 1
  bounded : ∀ id, timesSent id requested ≤ config.maxRetries.toNat + 1

theorem timesSent_append (id : UInt64) (rs rs' : List ReplayRequestPayload) :
    timesSent id (rs ++ rs') = timesSent id rs + timesSent id rs' := by
  rw [timesSent, List.map_append, List.count_append]
  rfl

theorem timesSent_singleton (id : UInt64) (r : ReplayRequestPayload) :
    timesSent id [r] = if r.requestId = id then 1 else 0 := by
  simp [timesSent, List.count_singleton]

namespace Issued

variable {config : RecoveryConfig} {nextRequestId id : UInt64} {req : ActiveReplayRequest}
  {requested : List ReplayRequestPayload} {outstanding outstanding' : OrderedMap UInt64 ActiveReplayRequest}

theorem empty (config : RecoveryConfig) : Issued config 1 [] ∅ where
  next := Nat.le_refl 1
  below := fun r hr => by cases hr
  unique := fun r hr => by cases hr
  known := fun id req h => by simp at h
  retries := fun id req h => by simp at h
  spent := fun id req h => by simp at h
  bounded := fun id => Nat.zero_le _

/-- Requests are retired, or note what has arrived. -/
theorem retire (h : Issued config nextRequestId requested outstanding)
    (traced : ∀ (id : UInt64) req', outstanding'[id]? = some req' → ∃ req, outstanding[id]? = some req ∧
      req'.payload id = req.payload id ∧ req'.retriesAttempted = req.retriesAttempted) :
    Issued config nextRequestId requested outstanding' where
  next := h.next
  below := h.below
  unique := h.unique
  known := by
    intro id req' hget
    obtain ⟨req, hold, hpayload, -⟩ := traced id req' hget
    rw [hpayload]
    exact h.known id req hold
  retries := by
    intro id req' hget
    obtain ⟨req, hold, -, hretries⟩ := traced id req' hget
    rw [hretries]
    exact h.retries id req hold
  spent := by
    intro id req' hget
    obtain ⟨req, hold, -, hretries⟩ := traced id req' hget
    rw [hretries]
    exact h.spent id req hold
  bounded := h.bounded

theorem erase (h : Issued config nextRequestId requested outstanding) (id : UInt64) :
    Issued config nextRequestId requested (outstanding.erase id) :=
  h.retire fun _ req hget => ⟨req, (OrderedMap.get_of_get_erase hget).2, rfl, rfl⟩

/-- An id that was not given out has not been sent. -/
theorem unsent (h : Issued config nextRequestId requested outstanding) (hid : nextRequestId ≤ id) :
    timesSent id requested = 0 := by
  rw [timesSent, List.count_eq_zero]
  intro hmem
  obtain ⟨r, hr, rfl⟩ := List.mem_map.mp hmem
  exact UInt64.not_le.mpr (h.below r hr) hid

/-- A new request takes the next id, while the `u64` numbers suffice. -/
theorem create (h : Issued config nextRequestId requested outstanding) {a b : UInt64}
    (opened : req.retriesAttempted = 0) (range : req.payload nextRequestId = ⟨nextRequestId, a, b⟩)
    (few : requested.length + 2 < 2 ^ 64) :
    Issued config (nextRequestId + 1) (requested ++ [⟨nextRequestId, a, b⟩])
      (outstanding.insert nextRequestId req) := by
  have hnext := h.next
  have hsucc : (nextRequestId + 1).toNat = nextRequestId.toNat + 1 := Counter.toNat_succ (by omega)
  have hlt : nextRequestId < nextRequestId + 1 := by
    rw [UInt64.lt_iff_toNat_lt, hsucc]
    exact Nat.lt_succ_self _
  have hself : timesSent nextRequestId (requested ++ [⟨nextRequestId, a, b⟩]) = 1 := by
    rw [timesSent_append, h.unsent (UInt64.le_refl _), timesSent_singleton, if_pos rfl]
  have hother : ∀ k ≠ nextRequestId,
      timesSent k (requested ++ [⟨nextRequestId, a, b⟩]) = timesSent k requested := by
    intro k hk
    rw [timesSent_append, timesSent_singleton, if_neg hk.symm, Nat.add_zero]
  refine
    { next := ?_
      below := fun r hr => ?_
      unique := fun r hr r' hr' heq => ?_
      known := OrderedMap.forall_get_insert ?_ fun k req' _ hold => List.mem_append_left _ (h.known k req' hold)
      retries := OrderedMap.forall_get_insert ?_ fun k req' _ hold => h.retries k req' hold
      spent := OrderedMap.forall_get_insert ?_ fun k req' hne hold => ?_
      bounded := fun k => ?_ }
  · rw [hsucc, List.length_append, List.length_singleton]
    omega
  · rcases List.mem_append.mp hr with hr | hr
    · exact UInt64.lt_trans (h.below r hr) hlt
    · rw [List.mem_singleton.mp hr]
      exact hlt
  · -- a number given out before is below the new one
    rcases List.mem_append.mp hr with hr | hr <;> rcases List.mem_append.mp hr' with hr' | hr'
    · exact h.unique r hr r' hr' heq
    · rw [List.mem_singleton.mp hr'] at heq
      exact absurd (heq ▸ h.below r hr) (UInt64.lt_irrefl _)
    · rw [List.mem_singleton.mp hr] at heq
      exact absurd (heq ▸ h.below r' hr') (UInt64.lt_irrefl _)
    · rw [List.mem_singleton.mp hr, List.mem_singleton.mp hr']
  · rw [range]
    exact List.mem_append_right _ List.mem_cons_self
  · rw [opened]
    exact UInt64.zero_le
  · rw [hself, opened]
    exact Nat.le_refl 1
  · rw [hother k hne]
    exact h.spent k req' hold
  · by_cases hk : k = nextRequestId
    · rw [hk, hself]
      exact Nat.succ_le_succ (Nat.zero_le _)
    · rw [hother k hk]
      exact h.bounded k

/-- A request is sent again, and uses up one of its retries. -/
theorem retry (h : Issued config nextRequestId requested outstanding) (now : Instant)
    (hget : outstanding[id]? = some req) (left : ¬ req.retriesAttempted ≥ config.maxRetries) :
    Issued config nextRequestId (requested ++ [req.payload id])
      (outstanding.insert id { req with retriesAttempted := req.retriesAttempted + 1, lastSentAt := now }) := by
  have hlt := UInt64.not_le.mp left
  have hsucc := Counter.toNat_succ_of_lt hlt
  have hleft := UInt64.lt_iff_toNat_lt.mp hlt
  have hknown := h.known id req hget
  have hspent := h.spent id req hget
  have hmem : ∀ r ∈ requested ++ [req.payload id], r ∈ requested := by
    intro r hr
    rcases List.mem_append.mp hr with hr | hr
    · exact hr
    · rw [List.mem_singleton.mp hr]
      exact hknown
  have hself : timesSent id (requested ++ [req.payload id]) = timesSent id requested + 1 := by
    rw [timesSent_append, timesSent_singleton, if_pos (by rfl)]
  have hother : ∀ k ≠ id, timesSent k (requested ++ [req.payload id]) = timesSent k requested := by
    intro k hk
    rw [timesSent_append, timesSent_singleton, if_neg (by exact hk.symm), Nat.add_zero]
  refine
    { next := ?_
      below := fun r hr => h.below r (hmem r hr)
      unique := fun r hr r' hr' => h.unique r (hmem r hr) r' (hmem r' hr')
      known := OrderedMap.forall_get_insert (List.mem_append_left _ hknown)
        fun k req' _ hold => List.mem_append_left _ (h.known k req' hold)
      retries := OrderedMap.forall_get_insert ?_ fun k req' _ hold => h.retries k req' hold
      spent := OrderedMap.forall_get_insert ?_ fun k req' hne hold => ?_
      bounded := fun k => ?_ }
  · have := h.next
    rw [List.length_append, List.length_singleton]
    omega
  · show req.retriesAttempted + 1 ≤ config.maxRetries
    rw [UInt64.le_iff_toNat_le, hsucc]
    exact hleft
  · show timesSent id _ ≤ (req.retriesAttempted + 1).toNat + 1
    rw [hself, hsucc]
    omega
  · rw [hother k hne]
    exact h.spent k req' hold
  · by_cases hk : k = id
    · rw [hk, hself]
      omega
    · rw [hother k hk]
      exact h.bounded k

/-- Retries that were counted and not sent. -/
theorem drop {retries : List ReplayRequestPayload} (h : Issued config nextRequestId requested outstanding)
    (h' : Issued config nextRequestId (requested ++ retries) outstanding')
    (repeated : ∀ r ∈ retries, r ∈ requested) : Issued config nextRequestId requested outstanding' where
  next := h.next
  below := h.below
  unique := h.unique
  known := by
    intro id req hget
    rcases List.mem_append.mp (h'.known id req hget) with hold | hnew
    · exact hold
    · exact repeated _ hnew
  retries := h'.retries
  spent := by
    intro id req hget
    have hspent := h'.spent id req hget
    rw [timesSent_append] at hspent
    exact le_trans (Nat.le_add_right _ _) hspent
  bounded := h.bounded

/-- **Run**: the scan of `check_timeouts`, if what it collects is sent. It collects known requests. -/
theorem scan (now : Instant) (order : List UInt64) (scan : RecoveryEngine.TimeoutScan)
    (h : Issued config nextRequestId (requested ++ scan.retries) scan.outstanding)
    (repeated : ∀ r ∈ scan.retries, r ∈ requested) :
    Issued config nextRequestId
        (requested ++ (order.foldl (RecoveryEngine.scanTimeout config now) scan).retries)
        (order.foldl (RecoveryEngine.scanTimeout config now) scan).outstanding ∧
      ∀ r ∈ (order.foldl (RecoveryEngine.scanTimeout config now) scan).retries, r ∈ requested := by
  induction order generalizing scan with
  | nil => exact ⟨h, repeated⟩
  | cons id ids ih =>
    rw [List.foldl_cons]
    have hstep : Issued config nextRequestId
          (requested ++ (RecoveryEngine.scanTimeout config now scan id).retries)
          (RecoveryEngine.scanTimeout config now scan id).outstanding ∧
        ∀ r ∈ (RecoveryEngine.scanTimeout config now scan id).retries, r ∈ requested := by
      unfold RecoveryEngine.scanTimeout
      cases hget : scan.outstanding[id]? with
      | none => exact ⟨h, repeated⟩
      | some req =>
        have hknown : req.payload id ∈ requested := by
          rcases List.mem_append.mp (h.known id req hget) with hold | hnew
          · exact hold
          · exact repeated _ hnew
        dsimp only
        split
        · split
          · exact ⟨h, repeated⟩
          · rename_i left
            refine ⟨?_, fun r hr => ?_⟩
            · rw [← List.append_assoc]
              exact h.retry now hget left
            · rcases List.mem_append.mp hr with hr | hr
              · exact repeated r hr
              · rw [List.mem_singleton.mp hr]
                exact hknown
        · exact ⟨h, repeated⟩
    exact ih _ hstep.1 hstep.2

end Issued

/-! ## What a DATA frame requests -/

namespace StreamReceiver

variable {rx : StreamReceiver} {f : OwnedFrame}

/-- A call asks for nothing and retires requests at most, or it makes one. -/
inductive Requests (rx : StreamReceiver) (now : Instant) (result : Delivery × StreamReceiver) : Prop where
  | none (quiet : result.1.request = none)
      (config : result.2.recovery.config = rx.recovery.config)
      (next : result.2.recovery.nextRequestId = rx.recovery.nextRequestId)
      (outstanding : ∀ (id : UInt64) req, result.2.recovery.outstandingRequests[id]? = some req →
        rx.recovery.outstandingRequests[id]? = some req)
  | one (a b : UInt64) (accepted : ¬ rx.recovery.Refuses a b)
      (asks : result.1.request = some ⟨rx.recovery.nextRequestId, a, b⟩)
      (config : result.2.recovery.config = rx.recovery.config)
      (next : result.2.recovery.nextRequestId = rx.recovery.nextRequestId + 1)
      (outstanding : result.2.recovery.outstandingRequests =
        rx.recovery.outstandingRequests.insert rx.recovery.nextRequestId (rx.recovery.freshRequest now a b))

theorem Requests.idle {result : Delivery × StreamReceiver} {now : Instant}
    (quiet : result.1.request = Option.none) (same : result.2.recovery = rx.recovery) :
    Requests rx now result :=
  .none quiet (by rw [same]) (by rw [same]) fun _ _ h => same ▸ h

theorem requests_atLeastOnce (mode : rx.mode = .atLeastOnce) (now : Instant) (f : OwnedFrame) :
    Requests rx now (rx.processDataFrame now f) := by
  rw [processDataFrame_atLeastOnce mode]
  unfold processAtLeastOnce
  split
  · exact .idle rfl rfl
  · rename_i a b status
    dsimp only
    by_cases refused : rx.recovery.Refuses a b
    · obtain ⟨e, he⟩ := RecoveryEngine.createReplayRequest_refused now refused
      rw [he]
      exact .idle rfl rfl
    · rw [RecoveryEngine.createReplayRequest_accepted refused]
      exact .one a b refused rfl rfl rfl rfl
  · exact .idle rfl rfl
  · exact .idle rfl rfl

theorem requests_reliableOrdered (mode : rx.mode = .reliableOrdered) (now : Instant) (f : OwnedFrame) :
    Requests rx now (rx.processDataFrame now f) := by
  have hcases := reliable_cases mode now f
  generalize rx.processDataFrame now f = result at hcases ⊢
  cases hcases with
  | suppressed dup => exact .idle rfl rfl
  | inOrder fresh live expected =>
    have hspec := deliverInOrder_spec (rx.observed f) f f.seq
    refine .none ?_ ?_ ?_ fun id req h => ?_
    · rw [hspec.frames]
      rfl
    · rw [hspec.recovery]
      rfl
    · rw [hspec.recovery]
      rfl
    · rw [hspec.recovery] at h
      exact h
  | reset fresh other started first =>
    refine .none rfl rfl rfl fun id req h => ?_
    simp [RecoveryEngine.reset] at h
  | gap fresh unexpected ahead =>
    by_cases refused : rx.recovery.Refuses (rx.expectedOf f) (f.seq - 1)
    · obtain ⟨e, he⟩ := bufferGap_refused (rx.observed f) now f refused
      rw [he]
      exact .none rfl rfl rfl fun _ _ h => h
    · rw [bufferGap_accepted (rx.observed f) now f refused]
      exact .one _ _ refused rfl rfl rfl rfl
  | old fresh same behind => exact .idle rfl rfl

/-- In every mode. -/
theorem processDataFrame_requests (rx : StreamReceiver) (now : Instant) (f : OwnedFrame) :
    Requests rx now (rx.processDataFrame now f) := by
  cases hmode : rx.mode with
  | bestEffort =>
    simp only [processDataFrame, hmode]
    exact .idle rfl rfl
  | latest =>
    rw [processDataFrame_latest hmode]
    split <;> exact .idle rfl rfl
  | atLeastOnce => exact requests_atLeastOnce hmode now f
  | reliableOrdered => exact requests_reliableOrdered hmode now f

end StreamReceiver

namespace Subscriber

variable {config : RecoveryConfig} {sub : Subscriber}

@[simp] theorem handleData_requested {now : Instant} {f : OwnedFrame} :
    (sub.handleData now f).requested =
      sub.requested ++ (sub.receiver.processDataFrame now f).1.request.toList := by
  unfold handleData
  split <;> rename_i heq <;> simp [heq, Delivery.request]

/-- What the worker has issued is accounted for. -/
structure KeepsLedger (config : RecoveryConfig) (sub : Subscriber) : Prop where
  configured : sub.receiver.recovery.config = config
  issued : Issued config sub.receiver.recovery.nextRequestId sub.requested
    sub.receiver.recovery.outstandingRequests

namespace KeepsLedger

theorem fresh (streamId : UInt64) (mode : DeliveryMode) (config : RecoveryConfig) :
    KeepsLedger config (Subscriber.new streamId mode config) :=
  ⟨rfl, Issued.empty config⟩

theorem data (h : KeepsLedger config sub) (now : Instant) (f : OwnedFrame)
    (few : (sub.handleData now f).requested.length + 1 < 2 ^ 64) :
    KeepsLedger config (sub.handleData now f) := by
  have hrequests := StreamReceiver.processDataFrame_requests sub.receiver now f
  have hreceiver : (sub.handleData now f).receiver = _ := handleData_receiver
  have hrequested : (sub.handleData now f).requested = _ := handleData_requested
  generalize sub.handleData now f = next at hreceiver hrequested few ⊢
  generalize sub.receiver.processDataFrame now f = result at hrequests hreceiver hrequested
  cases hrequests with
  | none quiet hconfig hnext houtstanding =>
    rw [quiet, Option.toList_none, List.append_nil] at hrequested
    refine ⟨by rw [hreceiver, hconfig, h.configured], ?_⟩
    rw [hreceiver, hnext, hrequested]
    exact h.issued.retire fun id req hget => ⟨req, houtstanding id req hget, rfl, rfl⟩
  | one a b accepted asks hconfig hnext houtstanding =>
    rw [asks, Option.toList_some] at hrequested
    rw [hrequested, List.length_append, List.length_singleton] at few
    refine ⟨by rw [hreceiver, hconfig, h.configured], ?_⟩
    rw [hreceiver, hnext, hrequested, houtstanding]
    exact h.issued.create rfl rfl few

theorem timeouts (h : KeepsLedger config sub) (now : Instant) (order : List UInt64) :
    KeepsLedger config (sub.handleTimeouts now order) := by
  have hsent : Issued config sub.receiver.recovery.nextRequestId (sub.requested ++ [])
      sub.receiver.recovery.outstandingRequests := by
    rw [List.append_nil]
    exact h.issued
  obtain ⟨hscan, hknown⟩ := Issued.scan now order ⟨sub.receiver.recovery.outstandingRequests, [], []⟩ hsent
    fun _ hr => absurd hr List.not_mem_nil
  unfold handleTimeouts RecoveryEngine.checkTimeouts
  rw [h.configured]
  dsimp only
  cases (order.foldl (RecoveryEngine.scanTimeout config now)
      ⟨sub.receiver.recovery.outstandingRequests, [], []⟩).failed with
  | nil => exact ⟨rfl, hscan⟩
  | cons failure rest => exact ⟨rfl, (h.issued.drop hscan hknown).erase _⟩

theorem replayResponse (h : KeepsLedger config sub) (id : UInt64) (f : OwnedFrame) :
    KeepsLedger config (sub.handleReplayResponse id f) := by
  unfold handleReplayResponse
  cases hget : sub.receiver.recovery.outstandingRequests[id]? with
  | none =>
    rw [RecoveryEngine.handleReplayResponse_unknown hget]
    exact h
  | some req =>
    cases hcomplete : sub.receiver.recovery.completes id f.seq with
    | false =>
      rw [RecoveryEngine.handleReplayResponse_pending hget hcomplete]
      refine ⟨h.configured, h.issued.retire ?_⟩
      refine OrderedMap.forall_get_insert ?_ fun k req' _ hold => ⟨req', hold, rfl, rfl⟩
      exact ⟨req, hget, recordReceived_payload, recordReceived_retries⟩
    | true =>
      obtain ⟨hok, -⟩ := RecoveryEngine.handleReplayResponse_complete hcomplete
      have hretires := RecoveryEngine.handleReplayResponse_retires hget hcomplete
      generalize sub.receiver.recovery.handleReplayResponse id f = result at hok hretires ⊢
      obtain ⟨outcome, recovery⟩ := result
      obtain rfl : outcome = _ := hok
      obtain rfl : recovery = _ := hretires
      dsimp only
      rw [foldl_forwardDrained]
      exact ⟨h.configured, h.issued.erase id⟩

/-- **Step**: in every mode, while the ids suffice. -/
theorem step (h : KeepsLedger config sub) (e : Event)
    (few : (sub.step e).requested.length + 1 < 2 ^ 64) : KeepsLedger config (sub.step e) := by
  cases e with
  | timeouts now order => exact h.timeouts now order
  | data now f => exact h.data now f few
  | replayResponse id f => exact h.replayResponse id f
  | replayUnavailable unavail => exact ⟨h.configured, h.issued.erase _⟩

end KeepsLedger

/-- What was requested stays requested. -/
theorem requested_grows (sub : Subscriber) (e : Event) :
    ∃ batch, (sub.step e).requested = sub.requested ++ batch := by
  cases e with
  | timeouts now order =>
    unfold step handleTimeouts
    dsimp only
    split
    · exact ⟨_, rfl⟩
    · exact ⟨[], (List.append_nil _).symm⟩
  | data now f => exact ⟨_, handleData_requested⟩
  | replayResponse id f =>
    refine ⟨[], ?_⟩
    unfold step handleReplayResponse
    dsimp only
    split
    · rw [foldl_forwardDrained, List.append_nil]
    · rw [List.append_nil]
  | replayUnavailable unavail => exact ⟨[], (List.append_nil _).symm⟩

theorem requested_length_le (sub : Subscriber) (e : Event) :
    sub.requested.length ≤ (sub.step e).requested.length := by
  obtain ⟨batch, hbatch⟩ := sub.requested_grows e
  rw [hbatch, List.length_append]
  exact Nat.le_add_right _ _

end Subscriber

end Rtdp
