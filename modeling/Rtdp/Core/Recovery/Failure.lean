import Rtdp.Core.Recovery.Engine
import Rtdp.Lib.Runs

/-!
# Failed engines

`RecoveryFailed` is meant to end replay attempts, but three operations write
the state field or send requests without looking at it: a new request, the
response that completes the last outstanding one, and a retry. A failed engine
stays failed and silent exactly while none of the three happens.
-/

namespace Rtdp

/-- The operations of a `RecoveryEngine`. -/
inductive EngineOp where
  | createReplayRequest (now : Instant) (fromSequence toSequence : UInt64)
  | handleReplayResponse (requestId : UInt64) (frame : OwnedFrame)
  | handleReplayUnavailable (unavail : ReplayUnavailablePayload)
  | checkTimeouts (now : Instant) (order : List UInt64)
  | bufferFrame (frame : OwnedFrame)
  | drainContiguous (startSeq : UInt64)
  | drainBuffered
  | reset
  deriving DecidableEq, Repr

/-- An engine, and the requests it has created or told its caller to send again, oldest first. -/
structure EngineLog where
  engine : RecoveryEngine
  sent : List ReplayRequestPayload

namespace EngineLog

def of (engine : RecoveryEngine) : EngineLog := ⟨engine, []⟩

def step (self : EngineLog) : EngineOp → EngineLog
  | .createReplayRequest now fromSequence toSequence =>
    match self.engine.createReplayRequest now fromSequence toSequence with
    | (.ok request, engine) => { engine, sent := self.sent ++ [request] }
    | (.error _, engine) => { self with engine }
  | .handleReplayResponse requestId frame =>
    { self with engine := (self.engine.handleReplayResponse requestId frame).2 }
  | .handleReplayUnavailable unavail =>
    { self with engine := (self.engine.handleReplayUnavailable unavail).2 }
  | .checkTimeouts now order =>
    match self.engine.checkTimeouts now order with
    | (.ok retries, engine) => { engine, sent := self.sent ++ retries }
    | (.error _, engine) => { self with engine }
  | .bufferFrame frame => { self with engine := self.engine.bufferFrame frame }
  | .drainContiguous startSeq => { self with engine := (self.engine.drainContiguous startSeq).2 }
  | .drainBuffered => { self with engine := self.engine.drainBuffered.2 }
  | .reset => { self with engine := self.engine.reset }

/-- The engine moves on whether a request is refused or not. -/
theorem step_createReplayRequest_engine (self : EngineLog) (now : Instant) (a b : UInt64) :
    (self.step (.createReplayRequest now a b)).engine = (self.engine.createReplayRequest now a b).2 := by
  unfold step
  dsimp only
  split <;> rename_i heq <;> rw [heq]

/-- So it does whether a check fails or not. -/
theorem step_checkTimeouts_engine (self : EngineLog) (now : Instant) (order : List UInt64) :
    (self.step (.checkTimeouts now order)).engine = (self.engine.checkTimeouts now order).2 := by
  unfold step
  dsimp only
  split <;> rename_i heq <;> rw [heq]

end EngineLog

/-- The hash map yields each outstanding request once. -/
def EngineOp.Enumerates (engine : RecoveryEngine) : EngineOp → Prop
  | .checkTimeouts _ order =>
    order.Nodup ∧ ∀ id, id ∈ order ↔ ∃ req, engine.outstandingRequests[id]? = some req
  | _ => True

/-- It may yield them in any order. -/
theorem EngineOp.enumerates_iff_perm (engine : RecoveryEngine) (now : Instant) (order : List UInt64) :
    (EngineOp.checkTimeouts now order).Enumerates engine ↔ order.Perm engine.outstandingRequests.keys := by
  have hkeys (id : UInt64) :
      id ∈ engine.outstandingRequests.keys ↔ ∃ req, engine.outstandingRequests[id]? = some req := by
    rw [Std.ExtTreeMap.mem_keys, Std.ExtTreeMap.mem_iff_isSome_getElem?, Option.isSome_iff_exists]
  simp only [Enumerates, ← hkeys]
  constructor
  · rintro ⟨nodup, mem⟩
    exact (List.perm_ext_iff_of_nodup nodup Std.ExtTreeMap.nodup_keys).mpr mem
  · intro perm
    exact ⟨perm.nodup_iff.mpr Std.ExtTreeMap.nodup_keys, fun _ => perm.mem_iff⟩

instance (engine : RecoveryEngine) : DecidablePred fun op : EngineOp => op.Enumerates engine
  | .checkTimeouts now order => decidable_of_iff' _ (EngineOp.enumerates_iff_perm engine now order)
  | .createReplayRequest _ _ _ | .handleReplayResponse _ _ | .handleReplayUnavailable _ | .bufferFrame _
  | .drainContiguous _ | .drainBuffered | .reset => inferInstanceAs (Decidable True)

namespace RecoveryEngine

variable {eng : RecoveryEngine} {now : Instant} {id : UInt64}

/-- The request has waited for `retry_timeout`. -/
def Due (eng : RecoveryEngine) (now : Instant) (req : ActiveReplayRequest) : Prop :=
  now - req.lastSentAt ≥ eng.config.retryTimeout

/-- Its retries are used up. -/
def Exhausted (eng : RecoveryEngine) (req : ActiveReplayRequest) : Prop :=
  req.retriesAttempted ≥ eng.config.maxRetries

instance (req : ActiveReplayRequest) : Decidable (eng.Due now req) :=
  inferInstanceAs (Decidable (_ ≤ _))

instance (req : ActiveReplayRequest) : Decidable (eng.Exhausted req) :=
  inferInstanceAs (Decidable (_ ≤ _))

/-- The operation finds the engine in a state in which it neither revives it nor sends anything. -/
def Quiet (eng : RecoveryEngine) : EngineOp → Prop
  | .createReplayRequest _ fromSequence toSequence => eng.Refuses fromSequence toSequence
  | .handleReplayResponse requestId frame =>
    eng.completes requestId frame.seq = true → eng.outstandingRequests.size ≠ 1
  | .checkTimeouts now _ =>
    (∀ (id : UInt64) req, eng.outstandingRequests[id]? = some req → eng.Due now req → eng.Exhausted req) ∨
      ∃ (id : UInt64) (req : ActiveReplayRequest),
        eng.outstandingRequests[id]? = some req ∧ eng.Due now req ∧ eng.Exhausted req
  | _ => True

/-! ## The scan of `check_timeouts` -/

/-- The retry the scan finds for a request. -/
def retryOf (eng : RecoveryEngine) (now : Instant) (id : UInt64) : Option ReplayRequestPayload :=
  eng.outstandingRequests[id]?.bind fun req =>
    if eng.Due now req ∧ ¬ eng.Exhausted req then some ⟨id, req.fromSequence, req.toSequence⟩ else none

/-- The failure it finds. -/
def failureOf (eng : RecoveryEngine) (now : Instant) (id : UInt64) : Option (UInt64 × UInt64 × UInt64) :=
  eng.outstandingRequests[id]?.bind fun req =>
    if eng.Due now req ∧ eng.Exhausted req then some (id, req.fromSequence, req.toSequence) else none

/-- One request of the scan, on its own key. -/
theorem scanTimeout_step (now : Instant) {scan : TimeoutScan} (same : scan.outstanding[id]? = eng.outstandingRequests[id]?) :
    (scanTimeout eng.config now scan id).retries = scan.retries ++ (eng.retryOf now id).toList ∧
      (scanTimeout eng.config now scan id).failed = scan.failed ++ (eng.failureOf now id).toList ∧
      ∀ k ≠ id, (scanTimeout eng.config now scan id).outstanding[k]? = scan.outstanding[k]? := by
  unfold scanTimeout retryOf failureOf
  rw [same]
  cases hget : eng.outstandingRequests[id]? with
  | none => simp
  | some req =>
    dsimp only [Option.bind_some]
    by_cases hdue : now - req.lastSentAt ≥ eng.config.retryTimeout
    · rw [if_pos hdue]
      by_cases hexhausted : req.retriesAttempted ≥ eng.config.maxRetries
      · rw [if_pos hexhausted, if_neg (fun h => h.2 hexhausted), if_pos ⟨hdue, hexhausted⟩]
        exact ⟨by simp, rfl, fun k _ => rfl⟩
      · rw [if_neg hexhausted, if_pos ⟨hdue, hexhausted⟩, if_neg (fun h => hexhausted h.2)]
        refine ⟨rfl, by simp, fun k hk => ?_⟩
        rw [OrderedMap.get_insert, if_neg hk]
    · rw [if_neg hdue, if_neg (fun h => hdue h.1), if_neg (fun h => hdue h.1)]
      exact ⟨by simp, by simp, fun k _ => rfl⟩

/-- The scan finds the retries and the failures of the requests it is given. -/
theorem scan_spec (eng : RecoveryEngine) (now : Instant) (order : List UInt64) (nodup : order.Nodup) (scan : TimeoutScan)
    (same : ∀ id ∈ order, scan.outstanding[id]? = eng.outstandingRequests[id]?) :
    (order.foldl (scanTimeout eng.config now) scan).retries =
        scan.retries ++ order.filterMap (eng.retryOf now) ∧
      (order.foldl (scanTimeout eng.config now) scan).failed =
        scan.failed ++ order.filterMap (eng.failureOf now) := by
  induction order generalizing scan with
  | nil => simp
  | cons id ids ih =>
    obtain ⟨hid, hids⟩ := List.nodup_cons.mp nodup
    obtain ⟨hretries, hfailed, hothers⟩ := scanTimeout_step now (same id List.mem_cons_self)
    obtain ⟨ihRetries, ihFailed⟩ := ih hids (scanTimeout eng.config now scan id) (by
      intro k hk
      rw [hothers k fun heq => hid (heq ▸ hk)]
      exact same k (List.mem_cons_of_mem _ hk))
    rw [List.foldl_cons, ihRetries, ihFailed, hretries, hfailed]
    simp only [List.filterMap_cons]
    cases eng.retryOf now id <;> cases eng.failureOf now id <;> simp

/-- The scan replaces requests, and neither adds nor removes any. -/
theorem scan_size (config : RecoveryConfig) (now : Instant) (order : List UInt64) (scan : TimeoutScan) :
    (order.foldl (scanTimeout config now) scan).outstanding.size = scan.outstanding.size := by
  induction order generalizing scan with
  | nil => rfl
  | cons id ids ih =>
    rw [List.foldl_cons, ih]
    unfold scanTimeout
    cases hget : scan.outstanding[id]? with
    | none => rfl
    | some req =>
      dsimp only
      split_ifs
      · rfl
      · exact OrderedMap.size_insert_of_get hget
      · rfl

/-- `check_timeouts` returns the retries of its scan, or drops them and retires a request. -/
theorem checkTimeouts_scan (eng : RecoveryEngine) (now : Instant) (order : List UInt64) {scan : TimeoutScan}
    (h : order.foldl (scanTimeout eng.config now) ⟨eng.outstandingRequests, [], []⟩ = scan) :
    (scan.failed = [] ∧ eng.checkTimeouts now order =
        (.ok scan.retries, { eng with outstandingRequests := scan.outstanding })) ∨
      (scan.failed ≠ [] ∧ ∃ e id, eng.checkTimeouts now order =
        (.error e, { eng with outstandingRequests := scan.outstanding.erase id, state := .recoveryFailed })) := by
  unfold checkTimeouts
  rw [h]
  cases hfailed : scan.failed with
  | nil => exact Or.inl ⟨rfl, by simp only [hfailed]⟩
  | cons failure rest => exact Or.inr ⟨List.cons_ne_nil _ _, _, _, by simp only [hfailed]; rfl⟩

/-- `check_timeouts` fails if it finds a failure, and otherwise returns the retries it finds. -/
theorem checkTimeouts_spec (eng : RecoveryEngine) (now : Instant) {order : List UInt64}
    (nodup : order.Nodup) :
    (order.filterMap (eng.failureOf now) = [] ∧
        (eng.checkTimeouts now order).1 = .ok (order.filterMap (eng.retryOf now)) ∧
        (eng.checkTimeouts now order).2.state = eng.state) ∨
      (order.filterMap (eng.failureOf now) ≠ [] ∧
        (∃ e, (eng.checkTimeouts now order).1 = .error e) ∧
        (eng.checkTimeouts now order).2.state = .recoveryFailed) := by
  obtain ⟨hretries, hfailed⟩ := scan_spec eng now order nodup
    ⟨eng.outstandingRequests, [], []⟩ fun _ _ => rfl
  rw [List.nil_append] at hretries hfailed
  obtain ⟨hnone, hok⟩ | ⟨hsome, e, id, herror⟩ := checkTimeouts_scan eng now order rfl
  · rw [hok, ← hfailed, ← hretries]
    exact Or.inl ⟨hnone, rfl, rfl⟩
  · rw [herror, ← hfailed]
    exact Or.inr ⟨hsome, ⟨e, rfl⟩, rfl⟩

theorem retryOf_eq_none : eng.retryOf now id = none ↔
    ∀ req, eng.outstandingRequests[id]? = some req → eng.Due now req → eng.Exhausted req := by
  unfold retryOf
  cases eng.outstandingRequests[id]? with
  | none => simp
  | some req => simp

theorem failureOf_eq_none : eng.failureOf now id = none ↔
    ∀ req, eng.outstandingRequests[id]? = some req → eng.Due now req → ¬ eng.Exhausted req := by
  unfold failureOf
  cases eng.outstandingRequests[id]? with
  | none => simp
  | some req => simp

/-- A response revives the engine when it completes the only outstanding request. -/
theorem handleReplayResponse_state (eng : RecoveryEngine) (id : UInt64) (frame : OwnedFrame) :
    (eng.handleReplayResponse id frame).2.state =
      if eng.completes id frame.seq = true ∧ eng.outstandingRequests.size = 1 then .live else eng.state := by
  cases hget : eng.outstandingRequests[id]? with
  | none =>
    rw [handleReplayResponse_unknown hget, if_neg]
    simp [completes, hget]
  | some req =>
    cases hcomplete : eng.completes id frame.seq with
    | false =>
      rw [handleReplayResponse_pending hget hcomplete, if_neg]
      simp
    | true =>
      have hsize := OrderedMap.size_erase_of_get hget
      have hone : (eng.outstandingRequests.erase id).size = 0 ↔ eng.outstandingRequests.size = 1 := by omega
      rw [handleReplayResponse_retires hget hcomplete]
      simp only [Std.ExtTreeMap.isEmpty_eq_size_beq_zero, beq_iff_eq, hone, true_and]

end RecoveryEngine

namespace EngineLog

variable {σ : EngineLog}

/-- **Step**: an operation other than `reset` leaves a failed engine failed and silent exactly when
it finds it quiet. -/
theorem step_quiet (failed : σ.engine.state = .recoveryFailed) {op : EngineOp}
    (enumerates : op.Enumerates σ.engine) (noReset : op ≠ .reset) :
    ((σ.step op).engine.state = .recoveryFailed ∧ (σ.step op).sent = σ.sent) ↔ σ.engine.Quiet op := by
  cases op with
  | createReplayRequest now fromSequence toSequence =>
    by_cases refused : σ.engine.Refuses fromSequence toSequence
    · obtain ⟨e, he⟩ := RecoveryEngine.createReplayRequest_refused now refused
      simp only [step, he]
      exact iff_of_true ⟨failed, trivial⟩ refused
    · simp only [step, RecoveryEngine.createReplayRequest_accepted refused]
      exact iff_of_false (fun h => nomatch h.1) refused
  | handleReplayResponse id frame =>
    simp only [step, RecoveryEngine.handleReplayResponse_state, RecoveryEngine.Quiet]
    split
    · rename_i revives
      exact iff_of_false (fun h => nomatch h.1) fun h => h revives.1 revives.2
    · rename_i stays
      exact iff_of_true ⟨failed, trivial⟩ fun hc hs => stays ⟨hc, hs⟩
  | handleReplayUnavailable unavail => exact iff_of_true ⟨rfl, rfl⟩ trivial
  | checkTimeouts now order =>
    obtain ⟨nodup, keys⟩ := enumerates
    have hretries : order.filterMap (σ.engine.retryOf now) = [] ↔
        ∀ (id : UInt64) req, σ.engine.outstandingRequests[id]? = some req → σ.engine.Due now req →
          σ.engine.Exhausted req := by
      rw [List.filterMap_eq_nil_iff]
      simp only [RecoveryEngine.retryOf_eq_none, keys]
      exact ⟨fun h id req hget => h id ⟨req, hget⟩ req hget, fun h id _ req hget => h id req hget⟩
    have hfailures : order.filterMap (σ.engine.failureOf now) = [] ↔
        ∀ (id : UInt64) req, σ.engine.outstandingRequests[id]? = some req → σ.engine.Due now req →
          ¬ σ.engine.Exhausted req := by
      rw [List.filterMap_eq_nil_iff]
      simp only [RecoveryEngine.failureOf_eq_none, keys]
      exact ⟨fun h id req hget => h id ⟨req, hget⟩ req hget, fun h id _ req hget => h id req hget⟩
    have hspec := RecoveryEngine.checkTimeouts_spec σ.engine now nodup
    generalize hresult : σ.engine.checkTimeouts now order = result at hspec
    obtain ⟨outcome, engine⟩ := result
    simp only [step, hresult]
    rcases hspec with ⟨hnone, rfl, hstate⟩ | ⟨hsome, ⟨e, rfl⟩, hstate⟩
    · -- nothing fails: quiet means that nothing is retried
      dsimp only at hstate ⊢
      rw [hstate, List.append_right_eq_self, hretries, RecoveryEngine.Quiet]
      refine ⟨fun h => Or.inl h.2, fun h => ⟨failed, h.resolve_right ?_⟩⟩
      rintro ⟨id, req, hget, hdue, hexhausted⟩
      exact hfailures.mp hnone id req hget hdue hexhausted
    · -- something fails: the retries are dropped with it
      refine iff_of_true ⟨hstate, rfl⟩ (Or.inr ?_)
      by_contra hno
      refine hsome (hfailures.mpr fun id req hget hdue hexhausted => hno ?_)
      exact ⟨id, req, hget, hdue, hexhausted⟩
  | bufferFrame frame => exact iff_of_true ⟨failed, rfl⟩ trivial
  | drainContiguous startSeq => exact iff_of_true ⟨failed, rfl⟩ trivial
  | drainBuffered => exact iff_of_true ⟨failed, rfl⟩ trivial
  | reset => exact absurd rfl noReset

end EngineLog

/-- Once the engine has failed it stays so, and nothing more is sent, until it is reset. -/
def FailureFinal (config : RecoveryConfig) (ops : List EngineOp) : Prop :=
  Runs.StableOver EngineLog.step (fun σ => σ.engine.state = .recoveryFailed) (· ≠ .reset) EngineLog.sent
    (EngineLog.of (RecoveryEngine.new config)) ops

/-- **Failure is final** exactly in the runs whose operations find every failed engine quiet. -/
theorem failure_final (config : RecoveryConfig) (ops : List EngineOp)
    (enumerates : Runs.Each EngineLog.step (fun σ op => op.Enumerates σ.engine)
      (EngineLog.of (RecoveryEngine.new config)) ops) :
    FailureFinal config ops ↔
      Runs.Each EngineLog.step (fun σ op => σ.engine.state = .recoveryFailed → σ.engine.Quiet op)
        (EngineLog.of (RecoveryEngine.new config)) ops := by
  rw [FailureFinal, Runs.stableOver_iff]
  apply Runs.each_congr (fun _ => True) (fun _ _ _ _ => trivial) ?_ trivial enumerates
  intro σ op _ hop
  refine forall_congr' fun failed => ?_
  by_cases hreset : op = .reset
  · subst hreset
    exact iff_of_true (fun h => absurd rfl h) trivial
  · rw [← EngineLog.step_quiet failed hop hreset]
    exact ⟨fun h => h hreset, fun h _ => h⟩

/-- Of two requests one fails. The other is not due at the first check; at the second it fails as well. -/
theorem failure_final_checked :
    FailureFinal ⟨10, 0, 1000, 16⟩
      [.createReplayRequest 0 1 1, .createReplayRequest 0 3 3, .handleReplayUnavailable ⟨1, 1, 1⟩,
        .checkTimeouts 5 [2], .checkTimeouts 20 [2], .bufferFrame (OwnedFrame.newData 1 4 0 9 [])] := by
  refine (failure_final _ _ (by decide +kernel)).mpr ?_
  refine ⟨fun h => absurd h (by decide), fun h => absurd h (by decide +kernel), fun _ => trivial,
    fun _ => Or.inl ?_, fun _ => Or.inl ?_, fun _ => trivial, trivial⟩
  · rw [OrderedMap.forall_get_iff]
    decide +kernel
  · rw [OrderedMap.forall_get_iff]
    decide +kernel

/-- Of two requests one fails; the response to the other brings the engine back to `Live`. -/
theorem failure_undone :
    ¬ FailureFinal RecoveryConfig.default
      [.createReplayRequest 0 1 1, .createReplayRequest 0 3 3, .handleReplayUnavailable ⟨1, 1, 1⟩,
        .handleReplayResponse 2 (OwnedFrame.newData 1 3 0 9 [])] := by
  intro final
  have hfailed := (final
    [.createReplayRequest 0 1 1, .createReplayRequest 0 3 3, .handleReplayUnavailable ⟨1, 1, 1⟩]
    [.handleReplayResponse 2 (OwnedFrame.newData 1 3 0 9 [])] [] rfl (by decide +kernel)
    (by decide)).1
  exact absurd hfailed (by decide +kernel)

end Rtdp
