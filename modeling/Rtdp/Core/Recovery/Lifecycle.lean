import Rtdp.Core.Recovery.Failure

/-!
# The life of a replay request

A request is created under a fresh id, noted in the outstanding map, sent again
while its retries last, and retired when its range has arrived, when it is
unavailable or out of retries, or by a reset. The log of an engine keeps the
requests it has created and those it has told its caller to send again; the
outstanding map can at all times be traced to them.
-/

namespace Rtdp

/-- An engine, the requests it has created, and those `check_timeouts` has returned, oldest first. -/
structure EngineHistory where
  engine : RecoveryEngine
  created : List ReplayRequestPayload
  resent : List ReplayRequestPayload

namespace EngineHistory

def new (config : RecoveryConfig) : EngineHistory := ⟨RecoveryEngine.new config, [], []⟩

/-- A step of the engine; what it sends is a retry if it comes from `check_timeouts`. -/
def step (self : EngineHistory) (op : EngineOp) : EngineHistory :=
  let log := (EngineLog.of self.engine).step op
  match op with
  | .checkTimeouts _ _ => { self with engine := log.engine, resent := self.resent ++ log.sent }
  | _ => { self with engine := log.engine, created := self.created ++ log.sent }

end EngineHistory

/-- New requests are for `1 ≤ from ≤ to`. -/
def EngineOp.WellFormed : EngineOp → Prop
  | .createReplayRequest _ fromSequence toSequence => 1 ≤ fromSequence ∧ fromSequence ≤ toSequence
  | _ => True

instance (op : EngineOp) : Decidable op.WellFormed :=
  match op with
  | .createReplayRequest _ _ _ => inferInstanceAs (Decidable (_ ∧ _))
  | .handleReplayResponse _ _ | .handleReplayUnavailable _ | .checkTimeouts _ _ | .bufferFrame _
  | .drainContiguous _ | .drainBuffered | .reset => inferInstanceAs (Decidable True)

namespace ActiveReplayRequest

variable {config : RecoveryConfig} {id s : UInt64} {req req' : ActiveReplayRequest}

/-- The request as it was handed out under its id. -/
def payload (self : ActiveReplayRequest) (id : UInt64) : ReplayRequestPayload :=
  ⟨id, self.fromSequence, self.toSequence⟩

/-- An open request within the limits of the configuration. -/
structure Open (config : RecoveryConfig) (id : UInt64) (req : ActiveReplayRequest) : Prop where
  requestId : req.requestId = id
  nonempty : req.fromSequence ≤ req.toSequence
  range : req.toSequence.toNat - req.fromSequence.toNat + 1 ≤ config.maxReplayRange.toNat
  retries : req.retriesAttempted ≤ config.maxRetries
  nodup : req.receivedSequences.Nodup
  inRange : ∀ s ∈ req.receivedSequences, req.covers s
  missing : ∃ s, req.covers s ∧ s ∉ req.receivedSequences

theorem recordReceived_payload : (req.recordReceived s).payload id = req.payload id := by
  unfold recordReceived
  split_ifs <;> rfl

theorem recordReceived_retries : (req.recordReceived s).retriesAttempted = req.retriesAttempted := by
  unfold recordReceived
  split_ifs <;> rfl

theorem allArrived_false (h : req.allArrived = false) : ∃ s, req.covers s ∧ s ∉ req.receivedSequences := by
  by_contra hnone
  push Not at hnone
  rw [allArrived_iff.mpr hnone] at h
  cases h

/-- A response that does not complete its request leaves it open. -/
theorem Open.recordReceived (h : Open config id req) (hopen : (req.recordReceived s).allArrived = false) :
    Open config id (req.recordReceived s) := by
  have hmissing := allArrived_false hopen
  unfold ActiveReplayRequest.recordReceived at hmissing ⊢
  split_ifs at hmissing ⊢ with hcovers hmem
  · exact h
  · refine { h with nodup := ?_, inRange := ?_, missing := hmissing }
    · exact List.nodup_append.mpr ⟨h.nodup, List.nodup_singleton s, fun a ha b hb heq =>
        hmem (by rwa [heq, List.mem_singleton.mp hb] at ha)⟩
    · intro a ha
      rcases List.mem_append.mp ha with ha | ha
      · exact h.inRange a ha
      · rw [List.mem_singleton.mp ha]
        exact hcovers
  · exact h

/-- A retry uses up one of the retries left. -/
theorem Open.retry (h : Open config id req) (now : Instant) (left : ¬ req.retriesAttempted ≥ config.maxRetries) :
    (req.retriesAttempted + 1).toNat = req.retriesAttempted.toNat + 1 ∧
      Open config id { req with retriesAttempted := req.retriesAttempted + 1, lastSentAt := now } := by
  have hlt := UInt64.not_le.mp left
  have hsucc := Counter.toNat_succ_of_lt hlt
  refine ⟨hsucc, { h with retries := ?_ }⟩
  show req.retriesAttempted + 1 ≤ config.maxRetries
  rw [UInt64.le_iff_toNat_le, hsucc]
  exact UInt64.lt_iff_toNat_lt.mp hlt

end ActiveReplayRequest

open ActiveReplayRequest

/-- How often the requests with the id are among the payloads. -/
def timesSent (id : UInt64) (payloads : List ReplayRequestPayload) : Nat :=
  (payloads.map ReplayRequestPayload.requestId).count id

/-- The outstanding requests, traced to those created and those sent again. -/
structure Traced (config : RecoveryConfig) (created resent : List ReplayRequestPayload)
    (outstanding : OrderedMap UInt64 ActiveReplayRequest) : Prop where
  opened : ∀ (id : UInt64) req, outstanding[id]? = some req → Open config id req
  known : ∀ (id : UInt64) req, outstanding[id]? = some req → req.payload id ∈ created
  spent : ∀ (id : UInt64) req, outstanding[id]? = some req →
    timesSent id resent ≤ req.retriesAttempted.toNat
  bounded : ∀ id, timesSent id resent ≤ config.maxRetries.toNat
  original : ∀ r ∈ resent, r ∈ created

namespace Traced

variable {config : RecoveryConfig} {created resent retries : List ReplayRequestPayload}
  {outstanding outstanding' : OrderedMap UInt64 ActiveReplayRequest} {id : UInt64} {req : ActiveReplayRequest}

theorem empty (config : RecoveryConfig) : Traced config [] [] ∅ where
  opened := fun id req h => by simp at h
  known := fun id req h => by simp at h
  spent := fun id req h => by simp at h
  bounded := fun id => Nat.zero_le _
  original := fun r hr => by simp at hr

/-- Requests can be retired. -/
theorem retire (h : Traced config created resent outstanding)
    (sub : ∀ (id : UInt64) req, outstanding'[id]? = some req → outstanding[id]? = some req) :
    Traced config created resent outstanding' where
  opened := fun id req hget => h.opened id req (sub id req hget)
  known := fun id req hget => h.known id req (sub id req hget)
  spent := fun id req hget => h.spent id req (sub id req hget)
  bounded := h.bounded
  original := h.original

theorem erase (h : Traced config created resent outstanding) (id : UInt64) :
    Traced config created resent (outstanding.erase id) :=
  h.retire fun _ _ hget => (OrderedMap.get_of_get_erase hget).2

/-- Retries can be dropped. -/
theorem drop (h : Traced config created (resent ++ retries) outstanding) :
    Traced config created resent outstanding where
  opened := h.opened
  known := h.known
  spent := fun id req hget => by
    have := h.spent id req hget
    rw [timesSent, List.map_append, List.count_append] at this
    exact le_trans (Nat.le_add_right _ _) this
  bounded := fun id => by
    have := h.bounded id
    rw [timesSent, List.map_append, List.count_append] at this
    exact le_trans (Nat.le_add_right _ _) this
  original := fun r hr => h.original r (List.mem_append_left _ hr)

theorem put (h : Traced config created resent outstanding) (opened : Open config id req)
    (known : req.payload id ∈ created) (spent : timesSent id resent ≤ req.retriesAttempted.toNat) :
    Traced config created resent (outstanding.insert id req) where
  opened := OrderedMap.forall_get_insert opened fun k req' _ hold => h.opened k req' hold
  known := OrderedMap.forall_get_insert known fun k req' _ hold => h.known k req' hold
  spent := OrderedMap.forall_get_insert spent fun k req' _ hold => h.spent k req' hold
  bounded := h.bounded
  original := h.original

/-- A request is sent again under the id and the range it was created with. -/
theorem retry (h : Traced config created resent outstanding) (now : Instant)
    (hget : outstanding[id]? = some req) (left : ¬ req.retriesAttempted ≥ config.maxRetries) :
    Traced config created (resent ++ [req.payload id])
      (outstanding.insert id { req with retriesAttempted := req.retriesAttempted + 1, lastSentAt := now }) := by
  obtain ⟨hsucc, hopen⟩ := (h.opened id req hget).retry now left
  have hspent := h.spent id req hget
  have hleft := UInt64.lt_iff_toNat_lt.mp (UInt64.not_le.mp left)
  have hself : timesSent id (resent ++ [req.payload id]) = timesSent id resent + 1 := by
    simp [timesSent, payload]
  have hother : ∀ k ≠ id, timesSent k (resent ++ [req.payload id]) = timesSent k resent := by
    intro k hk
    simp [timesSent, payload, hk.symm]
  refine
    { opened := OrderedMap.forall_get_insert hopen fun k req' _ hold => h.opened k req' hold
      known := OrderedMap.forall_get_insert (h.known id req hget) fun k req' _ hold => h.known k req' hold
      spent := OrderedMap.forall_get_insert ?_ fun k req' hne hold => ?_
      bounded := fun k => ?_
      original := ?_ }
  · rw [hself, hsucc]
    omega
  · rw [hother k hne]
    exact h.spent k req' hold
  · by_cases hk : k = id
    · rw [hk, hself]
      omega
    · rw [hother k hk]
      exact h.bounded k
  · intro r hr
    rcases List.mem_append.mp hr with hr | hr
    · exact h.original r hr
    · rw [List.mem_singleton.mp hr]
      exact h.known id req hget

/-- A new request, under an id that was never sent. -/
theorem create (h : Traced config created resent outstanding) (opened : Open config id req)
    (unsent : timesSent id resent = 0) :
    Traced config (created ++ [req.payload id]) resent (outstanding.insert id req) := by
  have hgrown : Traced config (created ++ [req.payload id]) resent outstanding :=
    ⟨h.opened, fun k req' hget => List.mem_append_left _ (h.known k req' hget), h.spent, h.bounded,
      fun r hr => List.mem_append_left _ (h.original r hr)⟩
  refine hgrown.put opened (List.mem_append_right _ List.mem_cons_self) ?_
  rw [unsent]
  exact Nat.zero_le _

end Traced

/-! ## The scan of `check_timeouts` -/

namespace RecoveryEngine

variable {config : RecoveryConfig} {created resent : List ReplayRequestPayload}

/-- **Step**: one request of the scan, whichever it is. -/
theorem scanTimeout_traced (now : Instant) (scan : TimeoutScan) (id : UInt64)
    (h : Traced config created (resent ++ scan.retries) scan.outstanding) :
    Traced config created (resent ++ (scanTimeout config now scan id).retries)
      (scanTimeout config now scan id).outstanding := by
  unfold scanTimeout
  cases hget : scan.outstanding[id]? with
  | none => exact h
  | some req =>
    dsimp only
    split
    · split
      · exact h
      · rename_i left
        rw [← List.append_assoc]
        exact h.retry now hget left
    · exact h

/-- **Run**: the scan, in whatever order the hash map yields its keys. -/
theorem scan_traced (now : Instant) (order : List UInt64) (scan : TimeoutScan)
    (h : Traced config created (resent ++ scan.retries) scan.outstanding) :
    Traced config created (resent ++ (order.foldl (scanTimeout config now) scan).retries)
      (order.foldl (scanTimeout config now) scan).outstanding := by
  induction order generalizing scan with
  | nil => exact h
  | cons id ids ih => exact ih _ (scanTimeout_traced now scan id h)

end RecoveryEngine

/-! ## The engine over its life -/

/-- What every operation keeps. -/
structure Lifecycle (config : RecoveryConfig) (σ : EngineHistory) : Prop where
  configured : σ.engine.config = config
  traced : Traced config σ.created σ.resent σ.engine.outstandingRequests
  numbered : (σ.created.map fun r => r.requestId.toNat) = List.range' 1 σ.created.length
  next : σ.engine.nextRequestId.toNat = σ.created.length + 1
  size : σ.engine.outstandingRequests.size ≤ config.maxOutstandingRequests.toNat
  live : σ.engine.state = .live → σ.engine.outstandingRequests.size = 0
  recovering : σ.engine.state = .recovering → 0 < σ.engine.outstandingRequests.size

namespace Lifecycle

variable {config : RecoveryConfig} {σ : EngineHistory} {id a b : UInt64}

theorem new (config : RecoveryConfig) : Lifecycle config (EngineHistory.new config) where
  configured := rfl
  traced := Traced.empty config
  numbered := rfl
  next := rfl
  size := Nat.zero_le _
  live := fun _ => rfl
  recovering := fun h => by cases h

/-- The ids handed out are below the next one. -/
theorem created_lt (h : Lifecycle config σ) {r : ReplayRequestPayload} (hr : r ∈ σ.created) :
    r.requestId < σ.engine.nextRequestId := by
  have hmem := List.mem_map_of_mem (f := fun r => r.requestId.toNat) hr
  rw [h.numbered, List.mem_range'_1] at hmem
  rw [UInt64.lt_iff_toNat_lt, h.next]
  omega

theorem next_free (h : Lifecycle config σ) :
    σ.engine.outstandingRequests[σ.engine.nextRequestId]? = none := by
  cases hget : σ.engine.outstandingRequests[σ.engine.nextRequestId]? with
  | none => rfl
  | some req => exact absurd (h.created_lt (h.traced.known _ _ hget)) (UInt64.lt_irrefl _)

theorem next_unsent (h : Lifecycle config σ) : timesSent σ.engine.nextRequestId σ.resent = 0 := by
  rw [timesSent, List.count_eq_zero]
  intro hmem
  obtain ⟨r, hr, heq⟩ := List.mem_map.mp hmem
  have hlt := h.created_lt (h.traced.original r hr)
  rw [heq] at hlt
  exact UInt64.lt_irrefl _ hlt

/-- A request that is not refused is within the limits. -/
theorem fresh_open (h : Lifecycle config σ) (now : Instant) (accepted : ¬ σ.engine.Refuses a b) (ha : 1 ≤ a) (hb : a ≤ b) :
    Open config σ.engine.nextRequestId (σ.engine.freshRequest now a b) := by
  have hrange : ¬ saturatingSub b a + 1 > σ.engine.config.maxReplayRange := fun hgt => accepted (Or.inl hgt)
  rw [saturatingSub, if_neg (UInt64.not_lt.mpr hb), h.configured, gt_iff_lt, UInt64.not_lt,
    UInt64.le_iff_toNat_le, UInt64.toNat_add, UInt64.toNat_sub_of_le _ _ hb, UInt64.toNat_one] at hrange
  rw [UInt64.le_iff_toNat_le, UInt64.toNat_one] at ha
  have hb64 := b.toNat_lt
  rw [Nat.mod_eq_of_lt (by omega)] at hrange
  exact
    { requestId := rfl
      nonempty := hb
      range := hrange
      retries := UInt64.zero_le
      nodup := List.nodup_nil
      inRange := fun s hs => by cases hs
      missing := ⟨a, ⟨UInt64.le_refl a, hb⟩, List.not_mem_nil⟩ }

/-- A new request takes the next id. -/
theorem create (h : Lifecycle config σ) (now : Instant) (ha : 1 ≤ a) (hb : a ≤ b)
    (few : (σ.step (.createReplayRequest now a b)).created.length < 2 ^ 64 - 1) :
    Lifecycle config (σ.step (.createReplayRequest now a b)) := by
  by_cases refused : σ.engine.Refuses a b
  · obtain ⟨e, he⟩ := RecoveryEngine.createReplayRequest_refused now refused
    have hsame : σ.step (.createReplayRequest now a b) = σ := by
      simp [EngineHistory.step, EngineLog.step, EngineLog.of, he]
    rw [hsame]
    exact h
  · have hopen := h.fresh_open now refused ha hb
    have haccepted : σ.step (.createReplayRequest now a b) =
        { σ with
          engine := (σ.engine.createReplayRequest now a b).2
          created := σ.created ++ [(σ.engine.freshRequest now a b).payload σ.engine.nextRequestId] } := by
      simp only [EngineHistory.step, EngineLog.step, EngineLog.of,
        RecoveryEngine.createReplayRequest_accepted refused]
      rfl
    rw [haccepted] at few ⊢
    rw [RecoveryEngine.createReplayRequest_accepted refused]
    rw [List.length_append, List.length_singleton] at few
    have hnext := h.next
    have hroom : ¬ σ.engine.outstandingRequests.size ≥ σ.engine.config.maxOutstandingRequests.toNat :=
      fun hge => refused (Or.inr hge)
    rw [h.configured] at hroom
    have hsize := OrderedMap.size_insert_of_none (x := σ.engine.freshRequest now a b) h.next_free
    refine
      { configured := h.configured
        traced := h.traced.create hopen h.next_unsent
        numbered := ?_
        next := ?_
        size := ?_
        live := fun hlive => by cases hlive
        recovering := fun _ => ?_ }
    · rw [List.map_append, h.numbered, List.length_append, List.length_singleton, List.range'_concat, Nat.one_mul]
      congr 1
      show [σ.engine.nextRequestId.toNat] = _
      rw [hnext, Nat.add_comm]
    · rw [List.length_append, List.length_singleton, ← hnext]
      apply Counter.toNat_succ
      omega
    · rw [hsize]
      omega
    · rw [hsize]
      exact Nat.succ_pos _

/-- A response notes the arrival, or retires its request. -/
theorem respond (h : Lifecycle config σ) (id : UInt64) (frame : OwnedFrame) :
    Lifecycle config { σ with engine := (σ.engine.handleReplayResponse id frame).2 } := by
  cases hget : σ.engine.outstandingRequests[id]? with
  | none =>
    rw [RecoveryEngine.handleReplayResponse_unknown hget]
    exact h
  | some req =>
    have hold := h.traced.opened id req hget
    cases hc : σ.engine.completes id frame.seq with
    | false =>
      have hopen : (req.recordReceived frame.seq).allArrived = false := by
        simpa only [RecoveryEngine.completes, hget] using hc
      have hsize := OrderedMap.size_insert_of_get (x := req.recordReceived frame.seq) hget
      rw [RecoveryEngine.handleReplayResponse_pending hget hc]
      refine
        { configured := h.configured
          traced := h.traced.put (hold.recordReceived hopen) ?_ ?_
          numbered := h.numbered
          next := h.next
          size := hsize.trans_le h.size
          live := fun hlive => hsize.trans (h.live hlive)
          recovering := fun hrec => hsize.symm ▸ h.recovering hrec }
      · rw [recordReceived_payload]
        exact h.traced.known id req hget
      · rw [recordReceived_retries]
        exact h.traced.spent id req hget
    | true =>
      have hlt := OrderedMap.size_erase_lt hget
      rw [RecoveryEngine.handleReplayResponse_retires hget hc]
      refine
        { configured := h.configured
          traced := h.traced.erase id
          numbered := h.numbered
          next := h.next
          size := hlt.le.trans h.size
          live := fun hlive => ?_
          recovering := fun hrec => ?_ }
      · -- the engine was not live before, with a request outstanding
        dsimp only at hlive ⊢
        split at hlive
        · rename_i hempty
          simpa [Std.ExtTreeMap.isEmpty_eq_size_beq_zero] using hempty
        · have := h.live hlive
          omega
      · dsimp only at hrec ⊢
        split at hrec
        · cases hrec
        · rename_i hnonempty
          rw [Std.ExtTreeMap.isEmpty_eq_size_beq_zero] at hnonempty
          simp only [beq_iff_eq] at hnonempty
          omega

/-- A scan spends retries, or retires the request that has none left. -/
theorem timeouts (h : Lifecycle config σ) (now : Instant) (order : List UInt64) :
    Lifecycle config (σ.step (.checkTimeouts now order)) := by
  have hstart : Traced config σ.created (σ.resent ++ []) σ.engine.outstandingRequests := by
    rw [List.append_nil]
    exact h.traced
  rw [← h.configured] at hstart
  have htraced := RecoveryEngine.scan_traced now order ⟨σ.engine.outstandingRequests, [], []⟩ hstart
  have hsize := RecoveryEngine.scan_size σ.engine.config now order ⟨σ.engine.outstandingRequests, [], []⟩
  have hresult := RecoveryEngine.checkTimeouts_scan σ.engine now order rfl
  generalize order.foldl (RecoveryEngine.scanTimeout σ.engine.config now)
    ⟨σ.engine.outstandingRequests, [], []⟩ = scan at htraced hsize hresult
  rw [h.configured] at htraced
  obtain ⟨-, hok⟩ | ⟨-, e, id, herror⟩ := hresult
  · simp only [EngineHistory.step, EngineLog.step, EngineLog.of, hok]
    exact
      { configured := h.configured
        traced := htraced
        numbered := h.numbered
        next := h.next
        size := hsize.trans_le h.size
        live := fun hlive => hsize.trans (h.live hlive)
        recovering := fun hrec => hsize.symm ▸ h.recovering hrec }
  · simp only [EngineHistory.step, EngineLog.step, EngineLog.of, herror, List.append_nil]
    exact
      { configured := h.configured
        traced := htraced.drop.erase id
        numbered := h.numbered
        next := h.next
        size := (Std.ExtTreeMap.size_erase_le.trans_eq hsize).trans h.size
        live := fun hlive => by cases hlive
        recovering := fun hrec => by cases hrec }

/-- **Step** -/
theorem step (h : Lifecycle config σ) {op : EngineOp} (wellFormed : op.WellFormed)
    (few : (σ.step op).created.length < 2 ^ 64 - 1) : Lifecycle config (σ.step op) := by
  -- an operation that creates nothing extends the log by nothing
  have hquiet : ∀ {eng : RecoveryEngine}, Lifecycle config { σ with engine := eng } →
      Lifecycle config { σ with engine := eng, created := σ.created ++ [] } := by
    intro eng heng
    rwa [List.append_nil]
  cases op with
  | createReplayRequest now a b => exact h.create now wellFormed.1 wellFormed.2 few
  | handleReplayResponse id frame => exact hquiet (h.respond id frame)
  | checkTimeouts now order => exact h.timeouts now order
  | handleReplayUnavailable unavail =>
    refine hquiet
      { configured := h.configured
        traced := h.traced.erase unavail.requestId
        numbered := h.numbered
        next := h.next
        size := Std.ExtTreeMap.size_erase_le.trans h.size
        live := fun hlive => by cases hlive
        recovering := fun hrec => by cases hrec }
  | bufferFrame frame | drainContiguous startSeq | drainBuffered =>
    exact hquiet ⟨h.configured, h.traced, h.numbered, h.next, h.size, h.live, h.recovering⟩
  | reset =>
    refine hquiet
      { configured := h.configured
        traced := h.traced.retire fun k req' hget' => by
          simp [EngineLog.step, EngineLog.of, RecoveryEngine.reset] at hget'
        numbered := h.numbered
        next := h.next
        size := Nat.zero_le _
        live := fun _ => rfl
        recovering := fun hrec => by cases hrec }

end Lifecycle

/-- Requests are created, never forgotten. -/
theorem EngineHistory.created_le (σ : EngineHistory) (op : EngineOp) :
    σ.created.length ≤ (σ.step op).created.length := by
  cases op with
  | checkTimeouts now order => exact Nat.le_refl _
  | _ => exact (List.prefix_append _ _).length_le

/-- **Run** -/
theorem lifecycle_run (config : RecoveryConfig) (ops : List EngineOp) (wellFormed : ∀ op ∈ ops, op.WellFormed)
    (few : (Runs.run EngineHistory.step (EngineHistory.new config) ops).created.length < 2 ^ 64 - 1) :
    Lifecycle config (Runs.run EngineHistory.step (EngineHistory.new config) ops) := by
  have hrun : (Runs.run EngineHistory.step (EngineHistory.new config) ops).created.length < 2 ^ 64 - 1 →
      Lifecycle config (Runs.run EngineHistory.step (EngineHistory.new config) ops) := by
    refine Runs.invariant (fun σ => σ.created.length < 2 ^ 64 - 1 → Lifecycle config σ)
      (fun σ op ih hop hfew => ?_) (fun _ => Lifecycle.new config) (Runs.each_of_forall wellFormed)
    exact (ih ((σ.created_le op).trans_lt hfew)).step hop hfew
  exact hrun few

/-- The requests of an engine are within its configuration, its state flag tells whether there are
any, and its retries are those of requests it has created. -/
structure SoundEngine (config : RecoveryConfig) (σ : EngineHistory) : Prop where
  bounded : σ.engine.outstandingRequests.size ≤ config.maxOutstandingRequests.toNat
  opened : ∀ (id : UInt64) req, σ.engine.outstandingRequests[id]? = some req → Open config id req
  created : ∀ (id : UInt64) req, σ.engine.outstandingRequests[id]? = some req → req.payload id ∈ σ.created
  below : ∀ r ∈ σ.created, r.requestId < σ.engine.nextRequestId
  fresh : (σ.created.map ReplayRequestPayload.requestId).Nodup
  live : σ.engine.state = .live → σ.engine.outstandingRequests.size = 0
  recovering : σ.engine.state = .recovering → 0 < σ.engine.outstandingRequests.size
  resent : ∀ r ∈ σ.resent, r ∈ σ.created
  retries : ∀ id, timesSent id σ.resent ≤ config.maxRetries.toNat

/-- **The recovery engine** stays sound over every run that creates fewer than `2^64 - 1` requests. -/
theorem engine_sound (config : RecoveryConfig) (ops : List EngineOp) (wellFormed : ∀ op ∈ ops, op.WellFormed)
    (few : (Runs.run EngineHistory.step (EngineHistory.new config) ops).created.length < 2 ^ 64 - 1) :
    SoundEngine config (Runs.run EngineHistory.step (EngineHistory.new config) ops) := by
  have h := lifecycle_run config ops wellFormed few
  refine
    { bounded := h.size
      opened := h.traced.opened
      created := h.traced.known
      below := fun r hr => h.created_lt hr
      fresh := ?_
      live := h.live
      recovering := h.recovering
      resent := h.traced.original
      retries := h.traced.bounded }
  apply List.Nodup.of_map UInt64.toNat
  rw [List.map_map]
  exact h.numbered ▸ List.nodup_range'

/-- A request that is retried, answered in part, and retried until it fails, beside another one. -/
def retriedAway : List EngineOp :=
  [.createReplayRequest 0 1 2, .checkTimeouts 50000000 [1], .createReplayRequest 60000000 4 4,
    .handleReplayResponse 1 (OwnedFrame.newData 1 1 0 9 []), .checkTimeouts 100000000 [1, 2],
    .checkTimeouts 150000000 [2, 1], .checkTimeouts 200000000 [1, 2]]

theorem engine_sound_retried :
    SoundEngine RecoveryConfig.default
      (Runs.run EngineHistory.step (EngineHistory.new RecoveryConfig.default) retriedAway) :=
  engine_sound _ _ (by decide) (by decide +kernel)

end Rtdp
