import Rtdp.Core.Recovery.Failure

/-!
# What a timeout check does to each request

`check_timeouts` counts a retry of every due request that has one left, then
fails if some due request had none. The failure drops the retries just counted;
it also removes one request, so that checks far enough apart come to an end.
-/

namespace Rtdp

namespace RecoveryEngine

variable {eng : RecoveryEngine} {now : Instant} {order : List UInt64}

/-- A request as the scan leaves it. -/
def scanned (config : RecoveryConfig) (now : Instant) (req : ActiveReplayRequest) : ActiveReplayRequest :=
  if now - req.lastSentAt ≥ config.retryTimeout ∧ ¬ req.retriesAttempted ≥ config.maxRetries then
    { req with retriesAttempted := req.retriesAttempted + 1, lastSentAt := now }
  else req

theorem scanTimeout_outstanding (config : RecoveryConfig) (now : Instant) (scan : TimeoutScan) (id k : UInt64) :
    (scanTimeout config now scan id).outstanding[k]? =
      if k = id then scan.outstanding[k]?.map (scanned config now) else scan.outstanding[k]? := by
  unfold scanTimeout
  cases hget : scan.outstanding[id]? with
  | none =>
    split_ifs with hk
    · rw [hk, hget]
      rfl
    · rfl
  | some req =>
    dsimp only
    by_cases hk : k = id
    · subst hk
      rw [if_pos rfl, hget, Option.map_some]
      unfold scanned
      by_cases hdue : now - req.lastSentAt ≥ config.retryTimeout
      · by_cases hexhausted : req.retriesAttempted ≥ config.maxRetries
        · rw [if_pos hdue, if_pos hexhausted, if_neg fun h => h.2 hexhausted]
          exact hget
        · rw [if_pos hdue, if_neg hexhausted, if_pos ⟨hdue, hexhausted⟩, OrderedMap.get_insert, if_pos rfl]
      · rw [if_neg hdue, if_neg fun h => hdue h.1]
        exact hget
    · rw [if_neg hk]
      split_ifs
      · rfl
      · rw [OrderedMap.get_insert, if_neg hk]
      · rfl

/-- **Run**: the scan touches each request it is given once. -/
theorem scan_outstanding (config : RecoveryConfig) (now : Instant) (nodup : order.Nodup) (scan : TimeoutScan)
    (k : UInt64) :
    (order.foldl (scanTimeout config now) scan).outstanding[k]? =
      if k ∈ order then scan.outstanding[k]?.map (scanned config now) else scan.outstanding[k]? := by
  induction order generalizing scan with
  | nil => rfl
  | cons id ids ih =>
    obtain ⟨hid, hids⟩ := List.nodup_cons.mp nodup
    rw [List.foldl_cons, ih hids, scanTimeout_outstanding]
    by_cases hk : k = id
    · rw [if_neg (hk ▸ hid), if_pos hk, if_pos (by rw [hk]; exact List.mem_cons_self)]
    · simp only [hk, List.mem_cons, if_false, false_or]

/-- The outstanding requests after the scan: those before it, each as the scan leaves it. -/
structure Scanned (eng : RecoveryEngine) (now : Instant)
    (outstanding : OrderedMap UInt64 ActiveReplayRequest) : Prop where
  get : ∀ id : UInt64, outstanding[id]? = eng.outstandingRequests[id]?.map (scanned eng.config now)
  size : outstanding.size = eng.outstandingRequests.size

/-- **What a check does**: it retries what is due, or fails over a request that has no retry left
and removes it. -/
theorem checkTimeouts_outcome (enumerates : (EngineOp.checkTimeouts now order).Enumerates eng) :
    ∃ outstanding, Scanned eng now outstanding ∧
      ((∀ (id : UInt64) req, eng.outstandingRequests[id]? = some req → eng.Due now req → ¬ eng.Exhausted req) ∧
          eng.checkTimeouts now order =
            (.ok (order.filterMap (eng.retryOf now)), { eng with outstandingRequests := outstanding }) ∨
        ∃ (id : UInt64) (req : ActiveReplayRequest) (e : RtdpError),
          eng.outstandingRequests[id]? = some req ∧ eng.Due now req ∧ eng.Exhausted req ∧
            eng.checkTimeouts now order =
              (.error e,
                { eng with outstandingRequests := outstanding.erase id, state := .recoveryFailed })) := by
  obtain ⟨nodup, keys⟩ := enumerates
  obtain ⟨hretries, hfailed⟩ := scan_spec eng now order nodup ⟨eng.outstandingRequests, [], []⟩ fun _ _ => rfl
  rw [List.nil_append] at hretries hfailed
  have hscanned : Scanned eng now
      (order.foldl (scanTimeout eng.config now) ⟨eng.outstandingRequests, [], []⟩).outstanding := by
    refine ⟨fun id => ?_, scan_size eng.config now order _⟩
    rw [scan_outstanding eng.config now nodup]
    split_ifs with hid
    · rfl
    · cases hget : eng.outstandingRequests[id]? with
      | none => rfl
      | some req => exact absurd ((keys id).mpr ⟨req, hget⟩) hid
  refine ⟨_, hscanned, ?_⟩
  unfold checkTimeouts
  cases hfirst : order.filterMap (eng.failureOf now) with
  | nil =>
    left
    rw [hfirst] at hfailed
    refine ⟨fun id req hget => ?_, ?_⟩
    · have hid := (keys id).mpr ⟨req, hget⟩
      exact failureOf_eq_none.mp (List.filterMap_eq_nil_iff.mp hfirst id hid) req hget
    · simp only [hfailed, hretries]
  | cons failure rest =>
    right
    rw [hfirst] at hfailed
    have hmem : failure ∈ order.filterMap (eng.failureOf now) := hfirst ▸ List.mem_cons_self
    obtain ⟨id, -, hid⟩ := List.mem_filterMap.mp hmem
    unfold failureOf at hid
    obtain ⟨req, hget, hreq⟩ := Option.bind_eq_some_iff.mp hid
    split_ifs at hreq with hdue
    cases hreq
    exact ⟨id, req, .unrecoverableGap req.fromSequence req.toSequence, hget, hdue.1, hdue.2,
      by simp only [hfailed]⟩

/-! ## Retries counted and retries handed out -/

/-- The check has counted a retry of the request. -/
def Counted (eng after : RecoveryEngine) (now : Instant) (id : UInt64) : Prop :=
  ∃ req req', eng.outstandingRequests[id]? = some req ∧ after.outstandingRequests[id]? = some req' ∧
    req.retriesAttempted < req'.retriesAttempted ∧ req'.lastSentAt = now

/-- The requests a check hands out to be sent again. -/
def handedOut : Result (List ReplayRequestPayload) → List ReplayRequestPayload
  | .ok retries => retries
  | .error _ => []

/-- The scan counts a retry of what is due and has one left. -/
theorem scanned_counts (eng : RecoveryEngine) (now : Instant) (req : ActiveReplayRequest) :
    (req.retriesAttempted < (scanned eng.config now req).retriesAttempted ∧
        (scanned eng.config now req).lastSentAt = now) ↔ eng.Due now req ∧ ¬ eng.Exhausted req := by
  unfold scanned
  split_ifs with h
  · have hsucc := Counter.toNat_succ_of_lt (UInt64.not_le.mp h.2)
    refine iff_of_true ⟨?_, rfl⟩ h
    rw [UInt64.lt_iff_toNat_lt, hsucc]
    exact Nat.lt_succ_self _
  · exact iff_of_false (fun hlt => UInt64.lt_irrefl _ hlt.1) h

/-- The request is due and has a retry left. -/
def Retriable (eng : RecoveryEngine) (now : Instant) (id : UInt64) : Prop :=
  ∃ req, eng.outstandingRequests[id]? = some req ∧ eng.Due now req ∧ ¬ eng.Exhausted req

theorem Scanned.counted_iff {outstanding : OrderedMap UInt64 ActiveReplayRequest} {after : RecoveryEngine}
    {id : UInt64} (scan : Scanned eng now outstanding)
    (kept : after.outstandingRequests[id]? = outstanding[id]?) :
    eng.Counted after now id ↔ eng.Retriable now id := by
  unfold Counted Retriable
  rw [kept, scan.get]
  constructor
  · rintro ⟨req, req', hget, hget', hcounted⟩
    rw [hget] at hget'
    cases hget'
    exact ⟨req, hget, (eng.scanned_counts now req).mp hcounted⟩
  · rintro ⟨req, hget, hdue⟩
    exact ⟨req, _, hget, by rw [hget]; rfl, (eng.scanned_counts now req).mpr hdue⟩

theorem mem_retries_iff (enumerates : (EngineOp.checkTimeouts now order).Enumerates eng) {id : UInt64} :
    id ∈ (order.filterMap (eng.retryOf now)).map ReplayRequestPayload.requestId ↔ eng.Retriable now id := by
  have hretry : ∀ (k : UInt64) r, eng.retryOf now k = some r → r.requestId = k ∧ eng.Retriable now k := by
    intro k r hr
    obtain ⟨req, hget, hreq⟩ := Option.bind_eq_some_iff.mp hr
    split_ifs at hreq with hdue
    cases hreq
    exact ⟨rfl, req, hget, hdue⟩
  simp only [List.mem_map, List.mem_filterMap]
  constructor
  · rintro ⟨r, ⟨k, -, hr⟩, rfl⟩
    obtain ⟨rfl, h⟩ := hretry k r hr
    exact h
  · rintro ⟨req, hget, hdue⟩
    refine ⟨⟨id, req.fromSequence, req.toSequence⟩, ⟨id, (enumerates.2 id).mpr ⟨req, hget⟩, ?_⟩, rfl⟩
    unfold retryOf
    rw [hget, Option.bind_some, if_pos hdue]

/-- **The retries counted are those handed out** exactly if the due requests all have a retry left
or all have none. -/
theorem retries_counted_iff_handed_out (eng : RecoveryEngine) (now : Instant) (order : List UInt64)
    (enumerates : (EngineOp.checkTimeouts now order).Enumerates eng) :
    (∀ id, eng.Counted (eng.checkTimeouts now order).2 now id ↔
        id ∈ (handedOut (eng.checkTimeouts now order).1).map ReplayRequestPayload.requestId) ↔
      (∀ (id : UInt64) req, eng.outstandingRequests[id]? = some req → eng.Due now req → ¬ eng.Exhausted req) ∨
        ∀ (id : UInt64) req, eng.outstandingRequests[id]? = some req → eng.Due now req → eng.Exhausted req := by
  obtain ⟨outstanding, scan, ⟨hleft, hok⟩ | ⟨id, req, e, hget, hdue, hexhausted, herror⟩⟩ :=
    checkTimeouts_outcome enumerates
  · rw [hok]
    refine iff_of_true (fun id => ?_) (Or.inl hleft)
    rw [scan.counted_iff rfl, handedOut, mem_retries_iff enumerates]
  · -- nothing is handed out, so nothing may have been counted
    rw [herror]
    have hcounted : ∀ k, eng.Counted
        { eng with outstandingRequests := outstanding.erase id, state := .recoveryFailed } now k ↔
          eng.Retriable now k := by
      intro k
      by_cases hk : k = id
      · subst hk
        refine iff_of_false ?_ ?_
        · rintro ⟨-, req', -, hget', -⟩
          exact (OrderedMap.get_of_get_erase hget').1 rfl
        · rintro ⟨req', hget', -, hleft⟩
          rw [hget] at hget'
          cases hget'
          exact hleft hexhausted
      · exact scan.counted_iff (by rw [OrderedMap.get_erase, if_neg hk])
    simp only [hcounted, handedOut, List.map_nil, List.not_mem_nil, iff_false]
    constructor
    · intro hnone
      refine Or.inr fun k req' hget' hdue' => ?_
      by_contra hleft
      exact hnone k ⟨req', hget', hdue', hleft⟩
    · rintro (hleft | hnone) k ⟨req', hget', hdue', hleft'⟩
      · exact hleft id req hget hdue hexhausted
      · exact hleft' (hnone k req' hget' hdue')

/-- One request, created at time 0, with one retry allowed after 10. -/
def freshEngine : RecoveryEngine := ((new ⟨10, 1, 1000, 16⟩).createReplayRequest 0 1 1).2

theorem retries_counted_fresh :
    (handedOut (freshEngine.checkTimeouts 10 [1]).1).map ReplayRequestPayload.requestId = [1] ∧
      ∀ id, freshEngine.Counted (freshEngine.checkTimeouts 10 [1]).2 10 id ↔
        id ∈ (handedOut (freshEngine.checkTimeouts 10 [1]).1).map ReplayRequestPayload.requestId := by
  refine ⟨by decide +kernel, ?_⟩
  refine (retries_counted_iff_handed_out freshEngine 10 [1] (by decide +kernel)).mpr (Or.inl ?_)
  rw [OrderedMap.forall_get_iff]
  decide +kernel

/-- Its retry is used up, and a second request is due for its first. -/
def staleEngine : RecoveryEngine := ((freshEngine.checkTimeouts 10 [1]).2.createReplayRequest 10 3 3).2

/-- The failure of the first request drops the retry just counted of the second. -/
theorem retry_counted_and_dropped :
    (EngineOp.checkTimeouts 20 [1, 2]).Enumerates staleEngine ∧
      ¬ ∀ id, staleEngine.Counted (staleEngine.checkTimeouts 20 [1, 2]).2 20 id ↔
        id ∈ (handedOut (staleEngine.checkTimeouts 20 [1, 2]).1).map ReplayRequestPayload.requestId := by
  refine ⟨by decide +kernel, fun h => ?_⟩
  have hcounted : staleEngine.Counted (staleEngine.checkTimeouts 20 [1, 2]).2 20 2 :=
    ⟨⟨2, 3, 3, 10, 10, 0, []⟩, ⟨2, 3, 3, 10, 20, 1, []⟩, by decide +kernel, by decide +kernel, by decide, rfl⟩
  have hdropped : (handedOut (staleEngine.checkTimeouts 20 [1, 2]).1).map ReplayRequestPayload.requestId = [] := by
    decide +kernel
  have hmem := (h 2).mp hcounted
  rw [hdropped] at hmem
  cases hmem

end RecoveryEngine

/-! ## The retry loop -/

/-- One call of `check_timeouts`, and the order in which the hash map yields its keys then. -/
structure TimeoutCheck where
  now : Instant
  order : List UInt64
  deriving DecidableEq, Repr

namespace RecoveryEngine

variable {eng : RecoveryEngine} {c : TimeoutCheck}

/-- The engine after a check. -/
def checked (eng : RecoveryEngine) (c : TimeoutCheck) : RecoveryEngine :=
  (eng.checkTimeouts c.now c.order).2

/-- Every request has waited for `retry_timeout`, and has at most `r` retries left. -/
structure Waiting (eng : RecoveryEngine) (now : Instant) (r : Nat) : Prop where
  due : ∀ (id : UInt64) req, eng.outstandingRequests[id]? = some req →
    req.lastSentAt + eng.config.retryTimeout ≤ now
  left : ∀ (id : UInt64) req, eng.outstandingRequests[id]? = some req →
    eng.config.maxRetries.toNat ≤ req.retriesAttempted.toNat + r

/-- A scan uses up a retry of each request that has one. -/
theorem Waiting.scanned {r : Nat} {req : ActiveReplayRequest} {id : UInt64} (h : eng.Waiting c.now r)
    (hget : eng.outstandingRequests[id]? = some req) :
    (scanned eng.config c.now req).lastSentAt ≤ c.now ∧
      eng.config.maxRetries.toNat ≤ (scanned eng.config c.now req).retriesAttempted.toNat + (r - 1) := by
  have hdue := h.due id req hget
  have hleft := h.left id req hget
  unfold RecoveryEngine.scanned
  split_ifs with hretry
  · have hsucc := Counter.toNat_succ_of_lt (UInt64.not_le.mp hretry.2)
    refine ⟨le_rfl, ?_⟩
    rw [hsucc]
    omega
  · have hwaited : c.now - req.lastSentAt ≥ eng.config.retryTimeout := Nat.le_sub_of_add_le' hdue
    have hexhausted : req.retriesAttempted ≥ eng.config.maxRetries := by
      by_contra hlt
      exact hretry ⟨hwaited, hlt⟩
    have hle := UInt64.le_iff_toNat_le.mp hexhausted
    exact ⟨le_trans (Nat.le_add_right _ _) hdue, by omega⟩

/-- **Step**: a check of waiting requests uses up a retry of each, or fails and removes one. -/
theorem checked_progress {r : Nat} (waiting : eng.Waiting c.now r)
    (enumerates : (EngineOp.checkTimeouts c.now c.order).Enumerates eng) :
    (eng.checked c).config = eng.config ∧
      (∀ t, c.now + eng.config.retryTimeout ≤ t → (eng.checked c).Waiting t (r - 1)) ∧
      ((eng.checked c).outstandingRequests.size = eng.outstandingRequests.size ∧
          (eng.checked c).state = eng.state ∧ (r = 0 → eng.outstandingRequests.size = 0) ∨
        (eng.checked c).outstandingRequests.size + 1 = eng.outstandingRequests.size ∧
          (eng.checked c).state = .recoveryFailed) := by
  have hafter : ∀ {outstanding : OrderedMap UInt64 ActiveReplayRequest}, Scanned eng c.now outstanding →
      ∀ (id : UInt64) req, outstanding[id]? = some req →
        req.lastSentAt ≤ c.now ∧ eng.config.maxRetries.toNat ≤ req.retriesAttempted.toNat + (r - 1) := by
    intro outstanding scan id req hget
    rw [scan.get] at hget
    obtain ⟨old, hold, rfl⟩ := Option.map_eq_some_iff.mp hget
    exact waiting.scanned hold
  obtain ⟨outstanding, scan, ⟨hleft, hok⟩ | ⟨id, req, e, hget, -, -, herror⟩⟩ := checkTimeouts_outcome enumerates
  · unfold checked
    rw [hok]
    refine ⟨rfl, fun t ht => ⟨fun id req hget => ?_, fun id req hget => ?_⟩, Or.inl ⟨scan.size, rfl, ?_⟩⟩
    · exact le_trans (Nat.add_le_add_right (hafter scan id req hget).1 _) ht
    · exact (hafter scan id req hget).2
    · -- without a retry left, an outstanding request would have failed
      intro hr
      by_contra hne
      obtain ⟨id, req, hget⟩ := OrderedMap.exists_get_of_size_pos (Nat.pos_of_ne_zero hne)
      have hdue := waiting.due id req hget
      have hspent := waiting.left id req hget
      exact hleft id req hget (Nat.le_sub_of_add_le' hdue) (UInt64.le_iff_toNat_le.mpr (by omega))
  · unfold checked
    rw [herror]
    refine ⟨rfl, fun t ht => ⟨fun k req' hget' => ?_, fun k req' hget' => ?_⟩, Or.inr ⟨?_, rfl⟩⟩
    · have hold := (OrderedMap.get_of_get_erase hget').2
      exact le_trans (Nat.add_le_add_right (hafter scan k req' hold).1 _) ht
    · exact (hafter scan k req' (OrderedMap.get_of_get_erase hget').2).2
    · have hscanned : outstanding[id]? = some (RecoveryEngine.scanned eng.config c.now req) := by
        rw [scan.get, hget]
        rfl
      rw [← scan.size]
      exact OrderedMap.size_erase_of_get hscanned

/-- **Run**: the retries left and the requests left add up to the checks it takes. -/
theorem checks_end {r : Nat} {calls : List TimeoutCheck}
    (first : ∀ c ∈ calls.head?, eng.Waiting c.now r)
    (spaced : calls.IsChain fun c d => c.now + eng.config.retryTimeout ≤ d.now)
    (enumerates : Runs.Each checked (fun e c => (EngineOp.checkTimeouts c.now c.order).Enumerates e) eng calls)
    (enough : r + eng.outstandingRequests.size ≤ calls.length) :
    (Runs.run checked eng calls).outstandingRequests.size = 0 ∧
      (0 < eng.outstandingRequests.size ∨ eng.state = .recoveryFailed →
        (Runs.run checked eng calls).state = .recoveryFailed) := by
  induction calls generalizing eng r with
  | nil =>
    have hsize : eng.outstandingRequests.size = 0 := Nat.eq_zero_of_le_zero (le_trans (Nat.le_add_left _ _) enough)
    refine ⟨hsize, fun h => h.resolve_left ?_⟩
    omega
  | cons c cs ih =>
    obtain ⟨hnow, hrest⟩ := enumerates
    obtain ⟨hgap, hchain⟩ := List.isChain_cons.mp spaced
    obtain ⟨hconfig, hwaiting, hprogress⟩ := checked_progress (first c rfl) hnow
    have hnext : ∀ d ∈ cs.head?, (eng.checked c).Waiting d.now (r - 1) :=
      fun d hd => hwaiting d.now (hgap d hd)
    rw [List.length_cons] at enough
    rcases hprogress with ⟨hsize, hstate, hspent⟩ | ⟨hsize, hfailed⟩
    · obtain ⟨hnone, hend⟩ := ih hnext (hconfig ▸ hchain) hrest (by omega)
      refine ⟨hnone, fun h => hend ?_⟩
      rwa [hsize, hstate]
    · obtain ⟨hnone, hend⟩ := ih hnext (hconfig ▸ hchain) hrest (by omega)
      exact ⟨hnone, fun _ => hend (Or.inr hfailed)⟩

/-- **The retry loop ends**: with no replay message and no new request, `max_retries` checks and
one more for each outstanding request leave none. -/
theorem retry_loop_ends (eng : RecoveryEngine) (calls : List TimeoutCheck)
    (count : calls.length = eng.config.maxRetries.toNat + eng.outstandingRequests.size)
    (first : ∀ c ∈ calls.head?, ∀ (id : UInt64) req, eng.outstandingRequests[id]? = some req →
      req.lastSentAt + eng.config.retryTimeout ≤ c.now)
    (spaced : calls.IsChain fun c d => c.now + eng.config.retryTimeout ≤ d.now)
    (enumerates : Runs.Each checked (fun e c => (EngineOp.checkTimeouts c.now c.order).Enumerates e) eng calls) :
    (Runs.run checked eng calls).outstandingRequests = ∅ ∧
      (0 < eng.outstandingRequests.size → (Runs.run checked eng calls).state = .recoveryFailed) := by
  have hwaiting : ∀ c ∈ calls.head?, eng.Waiting c.now eng.config.maxRetries.toNat :=
    fun c hc => ⟨first c hc, fun _ _ _ => Nat.le_add_left _ _⟩
  obtain ⟨hsize, hstate⟩ := checks_end hwaiting spaced enumerates count.ge
  exact ⟨Std.ExtTreeMap.eq_empty_iff_size_eq_zero.mpr hsize, fun h => hstate (Or.inl h)⟩

/-- Two requests, the first out of retries: three checks. -/
theorem retry_loop_ends_stale :
    let calls : List TimeoutCheck := [⟨20, [1, 2]⟩, ⟨30, [2]⟩, ⟨40, []⟩]
    (Runs.run checked staleEngine calls).outstandingRequests = ∅ ∧
      (0 < staleEngine.outstandingRequests.size →
        (Runs.run checked staleEngine calls).state = .recoveryFailed) := by
  refine retry_loop_ends staleEngine [⟨20, [1, 2]⟩, ⟨30, [2]⟩, ⟨40, []⟩] (by decide +kernel) ?_ ?_
    (by decide +kernel)
  · intro c hc
    obtain rfl : (⟨20, [1, 2]⟩ : TimeoutCheck) = c := Option.some.inj hc
    rw [OrderedMap.forall_get_iff]
    decide +kernel
  · simp only [List.isChain_cons_cons, List.isChain_singleton, and_true]
    decide +kernel

end RecoveryEngine

end Rtdp
