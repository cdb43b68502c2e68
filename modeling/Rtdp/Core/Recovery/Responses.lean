import Rtdp.Core.Recovery.Failure

/-!
# Replay messages at the engine

A response is looked up by its request id. One that names no outstanding request
changes nothing; one outside the range it was requested for is buffered all the
same, and an unavailability fails the engine whatever it names. Responses in
range complete their request in any order, however often they are repeated.
-/

namespace Rtdp

/-- The messages a subscriber hands to its engine. -/
inductive ReplayMessage where
  | response (requestId : UInt64) (frame : OwnedFrame)
  | unavailable (unavail : ReplayUnavailablePayload)
  deriving DecidableEq, Repr

namespace RecoveryEngine

variable {eng : RecoveryEngine} {id : UInt64} {frame : OwnedFrame} {req : ActiveReplayRequest}

/-- The engine after a replay message. -/
def receive (eng : RecoveryEngine) : ReplayMessage → RecoveryEngine
  | .response requestId frame => (eng.handleReplayResponse requestId frame).2
  | .unavailable unavail => (eng.handleReplayUnavailable unavail).2

/-- The message matches no request: its id is not outstanding, or its sequence not in the range. -/
def Stray (eng : RecoveryEngine) : ReplayMessage → Prop
  | .response requestId frame =>
    ∀ req, eng.outstandingRequests[requestId]? = some req → ¬ req.covers frame.seq
  | .unavailable unavail => eng.outstandingRequests[unavail.requestId]? = none

/-- What the engine acts on is as before. -/
structure Unchanged (eng after : RecoveryEngine) : Prop where
  state : after.state = eng.state
  outstanding : after.outstandingRequests = eng.outstandingRequests
  buffered : after.bufferedOutOfOrder = eng.bufferedOutOfOrder

/-- The stray messages that happen to leave the engine alone. -/
def Harmless (eng : RecoveryEngine) : ReplayMessage → Prop
  | .response requestId frame =>
    ∀ req, eng.outstandingRequests[requestId]? = some req →
      req.allArrived = false ∧ eng.bufferedOutOfOrder[frame.seq]? = some frame
  | .unavailable _ => eng.state = .recoveryFailed

theorem recordReceived_stray {s : UInt64} (h : ¬ req.covers s) : req.recordReceived s = req := if_neg h

/-- A frame outside the range of its request is buffered, and completes the request only if nothing
was missing. -/
theorem unchanged_response_iff (hget : eng.outstandingRequests[id]? = some req) (stray : ¬ req.covers frame.seq) :
    eng.Unchanged (eng.handleReplayResponse id frame).2 ↔
      req.allArrived = false ∧ eng.bufferedOutOfOrder[frame.seq]? = some frame := by
  have hcompletes : eng.completes id frame.seq = req.allArrived := by
    unfold completes
    rw [hget]
    dsimp only
    rw [recordReceived_stray stray]
  cases harrived : req.allArrived with
  | true =>
    rw [handleReplayResponse_retires hget (hcompletes.trans harrived)]
    refine iff_of_false (fun unchanged => ?_) fun h => nomatch h.1
    have hnone := OrderedMap.erase_eq_self_iff.mp unchanged.outstanding
    rw [hget] at hnone
    cases hnone
  | false =>
    rw [handleReplayResponse_pending hget (hcompletes.trans harrived), recordReceived_stray stray]
    rw [eq_self_iff_true, true_and, ← OrderedMap.insert_eq_self_iff]
    exact ⟨fun unchanged => unchanged.buffered,
      fun same => ⟨rfl, OrderedMap.insert_eq_self_iff.mpr hget, same⟩⟩

theorem unchanged_unavailable_iff {unavail : ReplayUnavailablePayload}
    (stray : eng.outstandingRequests[unavail.requestId]? = none) :
    eng.Unchanged (eng.handleReplayUnavailable unavail).2 ↔ eng.state = .recoveryFailed :=
  ⟨fun unchanged => unchanged.state.symm,
    fun failed => ⟨failed.symm, OrderedMap.erase_eq_self_iff.mpr stray, rfl⟩⟩

/-- **A stray message leaves the engine alone** exactly if it is a response to no request, one whose
very frame is buffered already, or an unavailability that finds the engine failed. -/
theorem stray_unchanged_iff (eng : RecoveryEngine) (message : ReplayMessage) (stray : eng.Stray message) :
    eng.Unchanged (eng.receive message) ↔ eng.Harmless message := by
  cases message with
  | response id frame =>
    cases hget : eng.outstandingRequests[id]? with
    | none =>
      refine iff_of_true ?_ fun req h => by rw [hget] at h; cases h
      rw [receive, handleReplayResponse_unknown hget]
      exact ⟨rfl, rfl, rfl⟩
    | some req =>
      rw [receive, unchanged_response_iff hget (stray req hget), Harmless]
      refine ⟨fun h req' hget' => ?_, fun h => h req hget⟩
      rw [hget] at hget'
      cases hget'
      exact h
  | unavailable unavail => exact unchanged_unavailable_iff stray

/-- The first of two requests is answered. -/
def answeredEngine : RecoveryEngine :=
  (((new RecoveryConfig.default).createReplayRequest 0 1 1).2.createReplayRequest 0 3 3).2.receive
    (.response 1 (OwnedFrame.newData 1 1 0 9 []))

/-- A late response to it, the second request outstanding. -/
theorem stray_unchanged_late :
    answeredEngine.Unchanged (answeredEngine.receive (.response 1 (OwnedFrame.newData 1 1 0 9 []))) := by
  have gone (req : ActiveReplayRequest) : answeredEngine.outstandingRequests[(1 : UInt64)]? ≠ some req := by
    have hnone : answeredEngine.outstandingRequests[(1 : UInt64)]? = none := by decide +kernel
    rw [hnone]
    exact (Option.some_ne_none req).symm
  exact (stray_unchanged_iff answeredEngine (.response 1 (OwnedFrame.newData 1 1 0 9 []))
    fun req h => absurd h (gone req)).mpr fun req h => absurd h (gone req)

/-- A REPLAY_UNAVAILABLE of some other stream fails an engine that has asked for nothing. -/
theorem stray_unavailable_fails :
    (new RecoveryConfig.default).Stray (.unavailable ⟨7, 1, 1⟩) ∧
      ¬ (new RecoveryConfig.default).Unchanged ((new RecoveryConfig.default).receive (.unavailable ⟨7, 1, 1⟩)) := by
  refine ⟨by simp [Stray], fun unchanged => ?_⟩
  exact absurd unchanged.state (by decide)

end RecoveryEngine

/-! ## The buffer -/

/-- **Step**: every operation keeps each buffered frame under its own sequence. -/
theorem EngineLog.step_keyed {σ : EngineLog} (op : EngineOp)
    (keyed : OrderedMap.Keyed OwnedFrame.seq σ.engine.bufferedOutOfOrder) :
    OrderedMap.Keyed OwnedFrame.seq (σ.step op).engine.bufferedOutOfOrder := by
  cases op with
  | createReplayRequest now a b =>
    rw [EngineLog.step_createReplayRequest_engine, RecoveryEngine.createReplayRequest_buffered]
    exact keyed
  | handleReplayResponse id frame =>
    cases hget : σ.engine.outstandingRequests[id]? with
    | none =>
      simp only [EngineLog.step, RecoveryEngine.handleReplayResponse_unknown hget]
      exact keyed
    | some req =>
      cases hc : σ.engine.completes id frame.seq with
      | false =>
        simp only [EngineLog.step, RecoveryEngine.handleReplayResponse_pending hget hc]
        exact keyed.insert frame
      | true =>
        simp only [EngineLog.step, (RecoveryEngine.handleReplayResponse_complete hc).2]
        exact .empty
  | handleReplayUnavailable unavail => exact keyed
  | checkTimeouts now order =>
    rw [EngineLog.step_checkTimeouts_engine, RecoveryEngine.checkTimeouts_buffered]
    exact keyed
  | bufferFrame frame => exact keyed.insert frame
  | drainContiguous startSeq =>
    obtain ⟨n, drained⟩ := drainFrom_drained keyed
    exact drained.keyed keyed
  | drainBuffered => exact .empty
  | reset => exact .empty

/-- **Run** -/
theorem keyed_run (config : RecoveryConfig) (ops : List EngineOp) :
    OrderedMap.Keyed OwnedFrame.seq
      (Runs.run EngineLog.step (EngineLog.of (RecoveryEngine.new config)) ops).engine.bufferedOutOfOrder :=
  Runs.always (fun σ : EngineLog => OrderedMap.Keyed OwnedFrame.seq σ.engine.bufferedOutOfOrder)
    (fun _ op keyed => EngineLog.step_keyed op keyed) .empty

/-! ## Completing a request -/

namespace RecoveryEngine

variable {eng : RecoveryEngine} {id : UInt64} {frame : OwnedFrame} {req : ActiveReplayRequest}

/-- The frame last stored under a sequence: the last one replayed, or else the one buffered before. -/
def lastStored (buffered : OrderedMap UInt64 OwnedFrame) (replayed : List OwnedFrame) (s : UInt64) :
    Option OwnedFrame :=
  (replayed.reverse.find? fun f => f.seq = s).or buffered[s]?

theorem lastStored_snoc (buffered : OrderedMap UInt64 OwnedFrame) (replayed : List OwnedFrame)
    (frame : OwnedFrame) (s : UInt64) :
    lastStored buffered (replayed ++ [frame]) s =
      if s = frame.seq then some frame else lastStored buffered replayed s := by
  unfold lastStored
  rw [List.reverse_append, List.reverse_singleton, List.singleton_append, List.find?_cons]
  by_cases hs : s = frame.seq
  · simp [hs]
  · rw [if_neg hs]
    simp [Ne.symm hs]

/-- Each sequence of the requested range is among the frames. -/
def CoveredBy (req : ActiveReplayRequest) (frames : List OwnedFrame) : Prop :=
  ∀ s, req.covers s → s ∈ frames.map OwnedFrame.seq

/-- A response to the request `id`. -/
def respond (id : UInt64) (eng : RecoveryEngine) (frame : OwnedFrame) : RecoveryEngine :=
  (eng.handleReplayResponse id frame).2

/-- The engine waits for one request, of which nothing has arrived. -/
structure Awaiting (eng : RecoveryEngine) (id : UInt64) (req : ActiveReplayRequest) : Prop where
  state : eng.state = .recovering
  only : eng.outstandingRequests = (∅ : OrderedMap UInt64 ActiveReplayRequest).insert id req
  fresh : req.receivedSequences = []
  nonempty : req.fromSequence ≤ req.toSequence
  keyed : OrderedMap.Keyed OwnedFrame.seq eng.bufferedOutOfOrder

/-- What the call that completes the request returns and leaves: one frame for each sequence that was
buffered or replayed, the last one stored under it. -/
structure Completion (eng : RecoveryEngine) (replayed out : List OwnedFrame) (after : RecoveryEngine) : Prop where
  each : ∀ s, s ∈ out.map OwnedFrame.seq ↔
    (∃ f, eng.bufferedOutOfOrder[s]? = some f) ∨ s ∈ replayed.map OwnedFrame.seq
  last : ∀ f ∈ out, lastStored eng.bufferedOutOfOrder replayed f.seq = some f
  ascending : (out.map OwnedFrame.seq).Pairwise (· < ·)
  buffered : after.bufferedOutOfOrder = ∅
  outstanding : after.outstandingRequests = ∅
  state : after.state = .live

/-- The engine after the frames, while some of the range is missing. -/
structure Replayed (eng : RecoveryEngine) (id : UInt64) (req : ActiveReplayRequest)
    (frames : List OwnedFrame) (e : RecoveryEngine) : Prop where
  state : e.state = .recovering
  outstanding : ∃ received, (∀ s, s ∈ received ↔ s ∈ frames.map OwnedFrame.seq) ∧
    e.outstandingRequests =
      (∅ : OrderedMap UInt64 ActiveReplayRequest).insert id { req with receivedSequences := received }
  buffered : ∀ s : UInt64, e.bufferedOutOfOrder[s]? = lastStored eng.bufferedOutOfOrder frames s
  keyed : OrderedMap.Keyed OwnedFrame.seq e.bufferedOutOfOrder

theorem lastStored_isSome {buffered : OrderedMap UInt64 OwnedFrame} {replayed : List OwnedFrame} {s : UInt64} :
    (∃ f, lastStored buffered replayed s = some f) ↔
      (∃ f, buffered[s]? = some f) ∨ s ∈ replayed.map OwnedFrame.seq := by
  induction replayed using List.reverseRecOn with
  | nil => simp [lastStored]
  | append_singleton replayed frame ih =>
    rw [lastStored_snoc, List.map_append, List.mem_append]
    by_cases hs : s = frame.seq
    · simp [hs]
    · rw [if_neg hs, ih]
      simp [hs]

theorem Awaiting.replayed (h : eng.Awaiting id req) : eng.Replayed id req [] eng where
  state := h.state
  outstanding := ⟨[], by simp, by rw [h.only, ← h.fresh]⟩
  buffered := fun s => rfl
  keyed := h.keyed

/-- An engine with nothing outstanding waits for the request it creates. -/
theorem awaiting_created {a b : UInt64} (now : Instant) (accepted : ¬ eng.Refuses a b)
    (idle : eng.outstandingRequests = ∅) (ordered : a ≤ b)
    (keyed : OrderedMap.Keyed OwnedFrame.seq eng.bufferedOutOfOrder) :
    (eng.createReplayRequest now a b).2.Awaiting eng.nextRequestId (eng.freshRequest now a b) := by
  rw [createReplayRequest_accepted accepted]
  exact ⟨rfl, congrArg (·.insert eng.nextRequestId (eng.freshRequest now a b)) idle, rfl, ordered, keyed⟩

variable {e : RecoveryEngine} {frames : List OwnedFrame}

/-- A response in range is noted. -/
theorem mem_recordReceived (h : req.covers frame.seq) (s : UInt64) :
    s ∈ (req.recordReceived frame.seq).receivedSequences ↔ s ∈ req.receivedSequences ∨ s = frame.seq := by
  obtain ⟨hfrom, hto⟩ := h
  unfold ActiveReplayRequest.recordReceived
  rw [if_pos ⟨hfrom, hto⟩]
  split_ifs with hmem
  · exact ⟨Or.inl, fun h => h.elim id fun heq => heq ▸ hmem⟩
  · simp

theorem recordReceived_eq (req : ActiveReplayRequest) (s : UInt64) :
    req.recordReceived s = { req with receivedSequences := (req.recordReceived s).receivedSequences } := by
  unfold ActiveReplayRequest.recordReceived
  split_ifs <;> rfl

theorem recordReceived_covers (req : ActiveReplayRequest) (s k : UInt64) :
    (req.recordReceived s).covers k ↔ req.covers k := by
  rw [recordReceived_eq]
  rfl

/-- **Step**: a response is noted and buffered, or completes the request. -/
theorem Replayed.respond (h : eng.Replayed id req frames e) (frame : OwnedFrame) (covers : req.covers frame.seq) :
    (¬ CoveredBy req (frames ++ [frame]) ∧ (e.handleReplayResponse id frame).1 = .ok none ∧
        eng.Replayed id req (frames ++ [frame]) (e.handleReplayResponse id frame).2) ∨
      (CoveredBy req (frames ++ [frame]) ∧ ∃ out, (e.handleReplayResponse id frame).1 = .ok (some out) ∧
        Completion eng (frames ++ [frame]) out (e.handleReplayResponse id frame).2) := by
  obtain ⟨received, hreceived, houtstanding⟩ := h.outstanding
  obtain ⟨noted, hnoted⟩ : ∃ noted, noted = { req with receivedSequences := received } := ⟨_, rfl⟩
  rw [← hnoted] at houtstanding
  have hget : e.outstandingRequests[id]? = some noted := by
    rw [houtstanding, OrderedMap.get_insert, if_pos rfl]
  have hmem : ∀ s, s ∈ (noted.recordReceived frame.seq).receivedSequences ↔
      s ∈ (frames ++ [frame]).map OwnedFrame.seq := by
    intro s
    rw [mem_recordReceived (hnoted ▸ covers), hnoted, List.map_append, List.mem_append]
    simp only [hreceived, List.map_cons, List.map_nil, List.mem_singleton]
  have hcovered : e.completes id frame.seq = true ↔ CoveredBy req (frames ++ [frame]) := by
    unfold completes
    rw [hget]
    dsimp only
    rw [ActiveReplayRequest.allArrived_iff]
    simp only [recordReceived_covers, hmem]
    rw [hnoted]
    rfl
  have hstored : ∀ s : UInt64, (e.bufferedOutOfOrder.insert frame.seq frame)[s]? =
      lastStored eng.bufferedOutOfOrder (frames ++ [frame]) s := by
    intro s
    rw [OrderedMap.get_insert, lastStored_snoc, h.buffered]
  cases hc : e.completes id frame.seq with
  | false =>
    left
    have hopen : ¬ CoveredBy req (frames ++ [frame]) := by
      rw [← hcovered, hc]
      exact Bool.false_ne_true
    rw [handleReplayResponse_pending hget hc]
    refine ⟨hopen, rfl, h.state, ?_, hstored, h.keyed.insert frame⟩
    refine ⟨(noted.recordReceived frame.seq).receivedSequences, hmem, ?_⟩
    dsimp only
    rw [houtstanding, OrderedMap.insert_insert, recordReceived_eq noted, hnoted]
  | true =>
    right
    obtain ⟨hout, hempty⟩ := handleReplayResponse_complete hc
    have hretired : e.outstandingRequests.erase id = ∅ := by
      rw [houtstanding, OrderedMap.erase_insert, Std.ExtTreeMap.erase_empty]
    refine ⟨hcovered.mp hc, _, hout, fun s => ?_, fun f hf => ?_, released_sorted h.keyed frame, hempty, ?_, ?_⟩
    · rw [(h.keyed.insert frame).mem_map_ascending, ← lastStored_isSome]
      exact exists_congr fun f => by rw [hstored]
    · rw [← hstored]
      exact (h.keyed.insert frame).mem_ascending.mp hf
    · rw [handleReplayResponse_retires hget hc]
      exact hretired
    · rw [handleReplayResponse_retires hget hc, hretired]
      rfl

/-- Nothing is outstanding, nothing is buffered. -/
def Idle (e : RecoveryEngine) : Prop :=
  e.outstandingRequests = ∅ ∧ e.bufferedOutOfOrder = ∅ ∧ e.state = .live

theorem Idle.respond (h : e.Idle) (id : UInt64) (frame : OwnedFrame) :
    e.handleReplayResponse id frame = (.ok none, e) :=
  handleReplayResponse_unknown (by rw [h.1]; rfl)

theorem not_coveredBy_nil (nonempty : req.fromSequence ≤ req.toSequence) : ¬ CoveredBy req [] :=
  fun h => List.not_mem_nil (h req.fromSequence ⟨UInt64.le_refl _, nonempty⟩)

theorem CoveredBy.append (h : CoveredBy req frames) (frame : OwnedFrame) : CoveredBy req (frames ++ [frame]) := by
  intro s hs
  rw [List.map_append]
  exact List.mem_append_left _ (h s hs)

/-- **Run**: until the range is covered the responses are noted; then the engine is idle. -/
theorem Awaiting.run (awaiting : eng.Awaiting id req) (inRange : ∀ f ∈ frames, req.covers f.seq) :
    (¬ CoveredBy req frames → eng.Replayed id req frames (Runs.run (respond id) eng frames)) ∧
      (CoveredBy req frames → (Runs.run (respond id) eng frames).Idle) := by
  induction frames using List.reverseRecOn with
  | nil => exact ⟨fun _ => awaiting.replayed, fun h => absurd h (not_coveredBy_nil awaiting.nonempty)⟩
  | append_singleton frames frame ih =>
    obtain ⟨hopen, hidle⟩ := ih fun f hf => inRange f (List.mem_append_left _ hf)
    have hrun : Runs.run (respond id) eng (frames ++ [frame]) =
        ((Runs.run (respond id) eng frames).handleReplayResponse id frame).2 := by
      rw [Runs.run_append]
      rfl
    rw [hrun]
    by_cases covered : CoveredBy req frames
    · rw [(hidle covered).respond]
      exact ⟨fun h => absurd (covered.append frame) h, fun _ => hidle covered⟩
    · rcases (hopen covered).respond frame (inRange frame (by simp)) with
        ⟨hmissing, -, hreplayed⟩ | ⟨hcovered, out, -, hcompletion⟩
      · exact ⟨fun _ => hreplayed, fun h => absurd h hmissing⟩
      · exact ⟨fun h => absurd hcovered h,
          fun _ => ⟨hcompletion.outstanding, hcompletion.buffered, hcompletion.state⟩⟩

/-- **Completion** does not depend on the order of the responses or on repeats: a call returns
nothing before the range is covered, everything when it covers the range, and nothing after. -/
theorem replay_completion (eng : RecoveryEngine) (id : UInt64) (req : ActiveReplayRequest)
    (frames : List OwnedFrame) (awaiting : eng.Awaiting id req) (inRange : ∀ f ∈ frames, req.covers f.seq) :
    ∀ before frame after, frames = before ++ frame :: after →
      (¬ CoveredBy req (before ++ [frame]) →
        ((Runs.run (respond id) eng before).handleReplayResponse id frame).1 = .ok none) ∧
      (¬ CoveredBy req before → CoveredBy req (before ++ [frame]) →
        ∃ out, ((Runs.run (respond id) eng before).handleReplayResponse id frame).1 = .ok (some out) ∧
          Completion eng (before ++ [frame]) out
            ((Runs.run (respond id) eng before).handleReplayResponse id frame).2) ∧
      (CoveredBy req before →
        (Runs.run (respond id) eng before).handleReplayResponse id frame =
          (.ok none, Runs.run (respond id) eng before)) := by
  rintro before frame after rfl
  obtain ⟨hopen, hidle⟩ := awaiting.run fun f hf => inRange f (List.mem_append_left _ hf)
  have covers : req.covers frame.seq := inRange frame (by simp)
  refine ⟨fun hmissing => ?_, fun hbefore hcovered => ?_, fun hbefore => (hidle hbefore).respond id frame⟩
  · rcases (hopen fun h => hmissing (h.append frame)).respond frame covers with
      ⟨-, hnone, -⟩ | ⟨hcovered, -⟩
    · exact hnone
    · exact absurd hcovered hmissing
  · rcases (hopen hbefore).respond frame covers with ⟨hmissing, -⟩ | ⟨-, hout⟩
    · exact absurd hcovered hmissing
    · exact hout

/-- Frame 3 is buffered. -/
def gapEngine : RecoveryEngine := (new RecoveryConfig.default).bufferFrame (OwnedFrame.newData 1 3 0 9 [])

/-- Frames 1 and 2 are requested, and arrive in the other order. -/
theorem replay_completion_swapped :
    let first := OwnedFrame.newData 1 1 0 9 []
    let second := OwnedFrame.newData 1 2 0 9 []
    let eng := (gapEngine.createReplayRequest 0 1 2).2
    ∃ out, ((Runs.run (respond 1) eng [second]).handleReplayResponse 1 first).1 = .ok (some out) ∧
      Completion eng ([second] ++ [first]) out
        ((Runs.run (respond 1) eng [second]).handleReplayResponse 1 first).2 := by
  intro first second eng
  have awaiting : eng.Awaiting 1 (gapEngine.freshRequest 0 1 2) :=
    awaiting_created 0 (by decide) rfl (by decide)
      (keyed_run RecoveryConfig.default [.bufferFrame (OwnedFrame.newData 1 3 0 9 [])])
  have hopen : ¬ CoveredBy (gapEngine.freshRequest 0 1 2) [second] :=
    fun h => absurd (h 1 (by decide)) (by decide)
  have hcovered : CoveredBy (gapEngine.freshRequest 0 1 2) [second, first] := by
    have harrived : ({ gapEngine.freshRequest 0 1 2 with receivedSequences := [2, 1] } :
        ActiveReplayRequest).allArrived = true := by decide
    exact ActiveReplayRequest.allArrived_iff.mp harrived
  exact (replay_completion eng 1 _ [second, first, second] awaiting (by decide) [second] first [second]
    rfl).2.1 hopen hcovered

end RecoveryEngine

end Rtdp
