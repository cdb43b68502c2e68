import Rtdp.Core.Protocol.Frame
import Rtdp.Core.Sequence.Consecutive
import Rtdp.Lib.Counter
import Rtdp.Lib.OrderedMap

/-!
# The recovery engine (`core/src/recovery/engine.rs`)

Outstanding replay requests, and frames buffered out of order until a gap is
resolved. Both maps are extensional; the one place where the source iterates
its hash map, `checkTimeouts`, takes the iteration order as an argument.
`Instant::now()` is an argument too: instants and durations are nanoseconds,
and `duration_since` is truncated subtraction.
-/

namespace Rtdp
open BigEndian

abbrev Instant := Nat
abbrev Duration := Nat

structure ReplayRequestPayload where
  requestId : UInt64
  fromSequence : UInt64
  toSequence : UInt64
  deriving DecidableEq, Repr

namespace ReplayRequestPayload

open BufferM in
def encode (self : ReplayRequestPayload) : BufferM RtdpError Unit := do
  let dst ← get
  if dst.length < 24 then
    throw (.err (.malformed "Buffer too short for REPLAY_REQUEST payload"))
  store 0 8 (writeU64 self.requestId)
  store 8 16 (writeU64 self.fromSequence)
  store 16 24 (writeU64 self.toSequence)

def decode (src : List UInt8) : Call ReplayRequestPayload := do
  if src.length < 24 then
    throw (.err (.malformed "REPLAY_REQUEST payload < 24 bytes"))
  let requestId := readU64 (← slice src 0 8)
  let fromSequence := readU64 (← slice src 8 16)
  let toSequence := readU64 (← slice src 16 24)
  if fromSequence > toSequence then
    throw (.err (.protocol .replayRangeInvalid
      s!"from_sequence {fromSequence} > to_sequence {toSequence}"))
  return { requestId, fromSequence, toSequence }

end ReplayRequestPayload

structure ReplayUnavailablePayload where
  requestId : UInt64
  firstUnavailable : UInt64
  lastUnavailable : UInt64
  deriving DecidableEq, Repr

namespace ReplayUnavailablePayload

open BufferM in
def encode (self : ReplayUnavailablePayload) : BufferM RtdpError Unit := do
  let dst ← get
  if dst.length < 24 then
    throw (.err (.malformed "Buffer too short for REPLAY_UNAVAILABLE payload"))
  store 0 8 (writeU64 self.requestId)
  store 8 16 (writeU64 self.firstUnavailable)
  store 16 24 (writeU64 self.lastUnavailable)

def decode (src : List UInt8) : Call ReplayUnavailablePayload := do
  if src.length < 24 then
    throw (.err (.malformed "REPLAY_UNAVAILABLE payload < 24 bytes"))
  return { requestId := readU64 (← slice src 0 8)
           firstUnavailable := readU64 (← slice src 8 16)
           lastUnavailable := readU64 (← slice src 16 24) }

end ReplayUnavailablePayload

inductive RecoveryState where
  | live
  | recovering
  | recoveryFailed
  deriving DecidableEq, Repr

structure ActiveReplayRequest where
  requestId : UInt64
  fromSequence : UInt64
  toSequence : UInt64
  createdAt : Instant
  lastSentAt : Instant
  retriesAttempted : UInt64
  receivedSequences : List UInt64
  deriving DecidableEq, Repr

namespace ActiveReplayRequest

def covers (self : ActiveReplayRequest) (s : UInt64) : Prop :=
  self.fromSequence ≤ s ∧ s ≤ self.toSequence

instance (r : ActiveReplayRequest) (s : UInt64) : Decidable (r.covers s) :=
  inferInstanceAs (Decidable (_ ∧ _))

/-- Note the arrival of `s`, once, if it lies in the requested range. -/
def recordReceived (self : ActiveReplayRequest) (s : UInt64) : ActiveReplayRequest :=
  if s ≥ self.fromSequence ∧ s ≤ self.toSequence then
    if s ∈ self.receivedSequences then self
    else { self with receivedSequences := self.receivedSequences ++ [s] }
  else self

/-- The scan of `from..=to` for a sequence that has not arrived. -/
def allArrived (self : ActiveReplayRequest) : Bool :=
  (List.range (self.toSequence.toNat + 1 - self.fromSequence.toNat)).all fun i =>
    self.fromSequence + UInt64.ofNat i ∈ self.receivedSequences

end ActiveReplayRequest

/-- `usize` fields are 64 bits wide. -/
structure RecoveryConfig where
  retryTimeout : Duration
  maxRetries : UInt64
  maxReplayRange : UInt64
  maxOutstandingRequests : UInt64
  deriving DecidableEq, Repr

def RecoveryConfig.default : RecoveryConfig where
  retryTimeout := 50 * 1000000
  maxRetries := 3
  maxReplayRange := 1000
  maxOutstandingRequests := 16

structure RecoveryEngine where
  config : RecoveryConfig
  state : RecoveryState
  nextRequestId : UInt64
  outstandingRequests : OrderedMap UInt64 ActiveReplayRequest
  bufferedOutOfOrder : OrderedMap UInt64 OwnedFrame

/-- The loop of `drain_contiguous`: remove frames at `current`, `current + 1`, … while present. -/
def drainFrom (current : UInt64) (buffered : OrderedMap UInt64 OwnedFrame) :
    List OwnedFrame × OrderedMap UInt64 OwnedFrame :=
  match _h : buffered[current]? with
  | none => ([], buffered)
  | some frame =>
    let (res, buffered) := drainFrom (current + 1) (buffered.erase current)
    (frame :: res, buffered)
termination_by buffered.size
decreasing_by exact OrderedMap.size_erase_lt (by assumption)

namespace RecoveryEngine

def new (config : RecoveryConfig) : RecoveryEngine where
  config := config
  state := .live
  nextRequestId := 1
  outstandingRequests := ∅
  bufferedOutOfOrder := ∅

/-- Buffer an out-of-order frame while waiting for gap resolution. -/
def bufferFrame (self : RecoveryEngine) (frame : OwnedFrame) : RecoveryEngine :=
  { self with bufferedOutOfOrder := self.bufferedOutOfOrder.insert frame.header.sequence frame }

/-- Create a new replay request for a missing sequence range. -/
def createReplayRequest (self : RecoveryEngine) (now : Instant) (fromSequence toSequence : UInt64) :
    Result ReplayRequestPayload × RecoveryEngine :=
  let rangeLen := saturatingSub toSequence fromSequence + 1
  if rangeLen > self.config.maxReplayRange then
    (.error (.protocol .replayRangeInvalid
      s!"Requested range {rangeLen} exceeds maximum allowed {self.config.maxReplayRange}"), self)
  else if self.outstandingRequests.size ≥ self.config.maxOutstandingRequests.toNat then
    (.error (.protocol .backpressure "Exceeded max outstanding replay requests"), self)
  else
    let requestId := self.nextRequestId
    let req : ActiveReplayRequest :=
      { requestId, fromSequence, toSequence
        createdAt := now
        lastSentAt := now
        retriesAttempted := 0
        receivedSequences := [] }
    (.ok { requestId, fromSequence, toSequence },
      { self with
        nextRequestId := self.nextRequestId + 1
        outstandingRequests := self.outstandingRequests.insert requestId req
        state := .recovering })

/-- Drain all contiguous buffered frames starting from `startSeq`. -/
def drainContiguous (self : RecoveryEngine) (startSeq : UInt64) : List OwnedFrame × RecoveryEngine :=
  let (res, buffered) := drainFrom startSeq self.bufferedOutOfOrder
  (res, { self with bufferedOutOfOrder := buffered })

/-- Drain all buffered frames. -/
def drainBuffered (self : RecoveryEngine) : List OwnedFrame × RecoveryEngine :=
  (OrderedMap.ascending self.bufferedOutOfOrder, { self with bufferedOutOfOrder := ∅ })

/-- Handle an incoming `REPLAY_RESPONSE`. -/
def handleReplayResponse (self : RecoveryEngine) (requestId : UInt64) (frame : OwnedFrame) :
    Result (Option (List OwnedFrame)) × RecoveryEngine :=
  let seq := frame.header.sequence
  match self.outstandingRequests[requestId]? with
  | none => (.ok none, self)
  | some req =>
    let req := req.recordReceived seq
    let self :=
      { self with
        outstandingRequests := self.outstandingRequests.insert requestId req
        bufferedOutOfOrder := self.bufferedOutOfOrder.insert seq frame }
    if req.allArrived then
      let outstanding := self.outstandingRequests.erase requestId
      let self :=
        { self with
          outstandingRequests := outstanding
          state := if outstanding.isEmpty then .live else self.state }
      let (frames, self) := self.drainBuffered
      (.ok (some frames), self)
    else (.ok none, self)

/-- Handle `REPLAY_UNAVAILABLE`: transition to the error state. -/
def handleReplayUnavailable (self : RecoveryEngine) (unavail : ReplayUnavailablePayload) :
    Result Unit × RecoveryEngine :=
  (.error (.unrecoverableGap unavail.firstUnavailable unavail.lastUnavailable),
    { self with
      outstandingRequests := self.outstandingRequests.erase unavail.requestId
      state := .recoveryFailed })

/-- What the scan of `check_timeouts` has built up: the requests as mutated, the retries
to send, and the requests out of retries. -/
structure TimeoutScan where
  outstanding : OrderedMap UInt64 ActiveReplayRequest
  retries : List ReplayRequestPayload
  failed : List (UInt64 × UInt64 × UInt64)

def scanTimeout (config : RecoveryConfig) (now : Instant) (scan : TimeoutScan) (reqId : UInt64) :
    TimeoutScan :=
  match scan.outstanding[reqId]? with
  | none => scan
  | some req =>
    if now - req.lastSentAt ≥ config.retryTimeout then
      if req.retriesAttempted ≥ config.maxRetries then
        { scan with failed := scan.failed ++ [(reqId, req.fromSequence, req.toSequence)] }
      else
        { scan with
          outstanding := scan.outstanding.insert reqId
            { req with retriesAttempted := req.retriesAttempted + 1, lastSentAt := now }
          retries := scan.retries ++ [⟨reqId, req.fromSequence, req.toSequence⟩] }
    else scan

/-- Check timeouts and return requests that need re-transmission. `order` is the order in
which the hash map yields its keys. -/
def checkTimeouts (self : RecoveryEngine) (now : Instant) (order : List UInt64) :
    Result (List ReplayRequestPayload) × RecoveryEngine :=
  let scan := order.foldl (scanTimeout self.config now) ⟨self.outstandingRequests, [], []⟩
  match scan.failed with
  | (reqId, fromS, toS) :: _ =>
    (.error (.unrecoverableGap fromS toS),
      { self with outstandingRequests := scan.outstanding.erase reqId, state := .recoveryFailed })
  | [] => (.ok scan.retries, { self with outstandingRequests := scan.outstanding })

def reset (self : RecoveryEngine) : RecoveryEngine :=
  { self with state := .live, outstandingRequests := ∅, bufferedOutOfOrder := ∅ }

end RecoveryEngine

/-! ## Draining a contiguous stretch -/

section Drain

variable {buffered : OrderedMap UInt64 OwnedFrame} {c : UInt64}

theorem drainFrom_none (h : buffered[c]? = none) : drainFrom c buffered = ([], buffered) := by
  unfold drainFrom
  split
  · rfl
  · simp_all

theorem drainFrom_some {frame : OwnedFrame} (h : buffered[c]? = some frame) :
    drainFrom c buffered =
      (frame :: (drainFrom (c + 1) (buffered.erase c)).1,
        (drainFrom (c + 1) (buffered.erase c)).2) := by
  rw [drainFrom]
  split
  · simp_all
  · simp_all

/-- What `drain_contiguous` takes out of a buffer and what it leaves. -/
structure Drained (c : UInt64) (buffered : OrderedMap UInt64 OwnedFrame) (res : List OwnedFrame)
    (left : OrderedMap UInt64 OwnedFrame) (n : Nat) : Prop where
  seqs : res.map OwnedFrame.seq = consecutive c n
  taken : ∀ f ∈ res, buffered[f.seq]? = some f
  left_get : ∀ k : UInt64, left[k]? = if k ∈ res.map OwnedFrame.seq then none else buffered[k]?
  stop : left[c + UInt64.ofNat n]? = none

/-- The loop takes the frames at `c, c + 1, …` up to the first sequence not buffered. -/
theorem drainFrom_drained (keyed : OrderedMap.Keyed OwnedFrame.seq buffered) :
    ∃ n, Drained c buffered (drainFrom c buffered).1 (drainFrom c buffered).2 n := by
  induction hm : buffered.size using Nat.strongRecOn generalizing c buffered with
  | ind m ih =>
    cases h : buffered[c]? with
    | none =>
      rw [drainFrom_none h]
      exact ⟨0, ⟨rfl, by simp, by simp, by simpa using h⟩⟩
    | some frame =>
      rw [drainFrom_some h]
      obtain ⟨n, hd⟩ := ih _ (hm ▸ OrderedMap.size_erase_lt h) (c := c + 1) (keyed.erase c) rfl
      have hseq : frame.seq = c := keyed c frame h
      refine ⟨n + 1, ⟨?_, ?_, ?_, ?_⟩⟩
      · rw [List.map_cons, hd.seqs, hseq, consecutive_succ]
      · intro f hf
        rcases List.mem_cons.mp hf with rfl | hf
        · rwa [hseq]
        · exact (OrderedMap.get_of_get_erase (hd.taken f hf)).2
      · intro k
        rw [hd.left_get k, OrderedMap.get_erase, List.map_cons, hseq]
        by_cases hk : k = c <;> by_cases hk' : k ∈ List.map OwnedFrame.seq (drainFrom (c + 1) (buffered.erase c)).1 <;>
          simp [hk, hk']
      · have := hd.stop
        rwa [UInt64.ofNat_add, UInt64.ofNat_one, UInt64.add_comm (UInt64.ofNat n), ← UInt64.add_assoc]

/-- What is taken out behind `s` when the stretch stops short of the last `u64`. -/
structure Stretch (s : UInt64) (buffered : OrderedMap UInt64 OwnedFrame) (res : List OwnedFrame)
    (left : OrderedMap UInt64 OwnedFrame) (n : Nat) : Prop where
  fits : s.toNat + 1 + n < 2 ^ 64
  seqs : (res.map fun f => f.seq.toNat) = List.range' (s.toNat + 1) n
  taken : ∀ f ∈ res, buffered[f.seq]? = some f
  left_get : ∀ k : UInt64, left[k]? =
    if s.toNat < k.toNat ∧ k.toNat < s.toNat + 1 + n then none else buffered[k]?
  stop : ∀ k : UInt64, k.toNat = s.toNat + 1 + n → buffered[k]? = none

theorem Drained.stretch {s m : UInt64} {res : List OwnedFrame} {left : OrderedMap UInt64 OwnedFrame}
    {n : Nat} (h : Drained (s + 1) buffered res left n) (hm : s < m) (hnone : buffered[m]? = none) :
    Stretch s buffered res left n := by
  have hlt := UInt64.lt_iff_toNat_lt.mp hm
  have hm64 := m.toNat_lt
  have hsucc := Counter.toNat_succ_of_lt hm
  -- the stretch cannot reach `m`, which is not buffered
  have hn : s.toNat + 1 + n ≤ m.toNat := by
    by_contra hgt
    have hreach : m ∈ consecutive (s + 1) n := by
      refine mem_consecutive_of_le ?_ (by omega)
      rw [UInt64.le_iff_toNat_le]
      omega
    rw [← h.seqs] at hreach
    obtain ⟨g, hg, rfl⟩ := List.mem_map.mp hreach
    rw [h.taken g hg] at hnone
    cases hnone
  have hnats : (res.map OwnedFrame.seq).map UInt64.toNat = List.range' (s.toNat + 1) n := by
    rw [h.seqs, consecutive_toNat (by omega), hsucc]
  have hmem : ∀ k : UInt64, k ∈ res.map OwnedFrame.seq ↔
      s.toNat < k.toNat ∧ k.toNat < s.toNat + 1 + n := by
    intro k
    have : k ∈ res.map OwnedFrame.seq ↔ k.toNat ∈ List.range' (s.toNat + 1) n := by
      rw [← hnats]
      exact (List.mem_map_of_injective fun _ _ => UInt64.toNat_inj.mp).symm
    rw [this, List.mem_range'_1, Nat.succ_le_iff]
  refine ⟨by omega, ?_, h.taken, ?_, ?_⟩
  · rw [← hnats, List.map_map]
    rfl
  · intro k
    rw [h.left_get]
    simp only [hmem]
  · intro k hk
    have hend : s + 1 + UInt64.ofNat n = k := by
      apply UInt64.toNat_inj.mp
      have hsmall : n < 2 ^ 64 := by omega
      rw [UInt64.toNat_add, hsucc, UInt64.toNat_ofNat_of_lt' hsmall]
      omega
    have hstop := h.stop
    rwa [hend, h.left_get, if_neg (by rw [hmem]; omega)] at hstop

theorem Drained.keyed {res : List OwnedFrame} {left : OrderedMap UInt64 OwnedFrame} {n : Nat}
    (h : Drained c buffered res left n) (keyed : OrderedMap.Keyed OwnedFrame.seq buffered) :
    OrderedMap.Keyed OwnedFrame.seq left := by
  intro k f hf
  rw [h.left_get] at hf
  split at hf
  · cases hf
  · exact keyed k f hf

/-- Everything behind `s` is buffered, up to the last `u64` and on to 0. -/
def Wraps (buffered : OrderedMap UInt64 OwnedFrame) (s : UInt64) : Prop :=
  ∀ k : UInt64, k = 0 ∨ s < k → ∃ f, buffered[k]? = some f

/-- The drained stretch ascends from `s`, unless it wraps. -/
theorem Drained.ascending {s : UInt64} {res : List OwnedFrame} {left : OrderedMap UInt64 OwnedFrame}
    {n : Nat} (h : Drained (s + 1) buffered res left n) (unwrapped : ¬ Wraps buffered s) :
    (res.map OwnedFrame.seq).Pairwise (· < ·) ∧ ∀ f ∈ res, s < f.seq := by
  have hs := s.toNat_lt
  have hbuffered : ∀ k ∈ consecutive (s + 1) n, ∃ f, buffered[k]? = some f := by
    intro k hk
    rw [← h.seqs] at hk
    obtain ⟨f, hf, rfl⟩ := List.mem_map.mp hk
    exact ⟨f, h.taken f hf⟩
  have hlen : s.toNat + 1 + n ≤ 2 ^ 64 := by
    by_contra hgt
    apply unwrapped
    rintro k (rfl | hk)
    · apply hbuffered
      exact zero_mem_consecutive (by omega)
    · apply hbuffered
      have hsucc := Counter.toNat_succ_of_lt hk
      rw [UInt64.lt_iff_toNat_lt] at hk
      have hk64 := k.toNat_lt
      refine mem_consecutive_of_le ?_ (by omega)
      rw [UInt64.le_iff_toNat_le]
      omega
  by_cases hlast : s.toNat + 1 = 2 ^ 64
  · have hnil : res = [] := by
      have hzero : n = 0 := by omega
      simpa [hzero, consecutive] using h.seqs
    subst hnil
    exact ⟨List.Pairwise.nil, by simp⟩
  have hsucc : (s + 1).toNat = s.toNat + 1 := Counter.toNat_succ (by omega)
  have hnats : (res.map OwnedFrame.seq).map UInt64.toNat = List.range' (s.toNat + 1) n := by
    rw [h.seqs, consecutive_toNat (by omega), hsucc]
  constructor
  · have hsorted : ((res.map OwnedFrame.seq).map UInt64.toNat).Pairwise (· < ·) := by
      rw [hnats]
      exact List.pairwise_lt_range'
    exact (List.pairwise_map.mp hsorted).imp UInt64.lt_iff_toNat_lt.mpr
  · intro f hf
    have hmem : f.seq.toNat ∈ List.range' (s.toNat + 1) n := by
      rw [← hnats]
      exact List.mem_map_of_mem (List.mem_map_of_mem hf)
    rw [List.mem_range'_1] at hmem
    rw [UInt64.lt_iff_toNat_lt]
    omega

/-- A stretch that wraps takes the frame at 0. -/
theorem Drained.zero_mem {s : UInt64} {res : List OwnedFrame} {left : OrderedMap UInt64 OwnedFrame}
    {n : Nat} (h : Drained (s + 1) buffered res left n) (wraps : Wraps buffered s) :
    0 ∈ res.map OwnedFrame.seq := by
  have hs := s.toNat_lt
  have hat : ∀ i ≤ n, s.toNat + 1 + n ≤ 2 ^ 64 →
      (s + 1 + UInt64.ofNat i).toNat = (s.toNat + 1 + i) % 2 ^ 64 := by
    intro i hi hn
    have hsmall : i < 2 ^ 64 := by omega
    rw [UInt64.toNat_add, UInt64.toNat_add, UInt64.toNat_ofNat_of_lt' hsmall, UInt64.toNat_one]
    omega
  have hlen : 2 ^ 64 < s.toNat + 1 + n := by
    by_contra hle
    have hend := hat n (Nat.le_refl n) (by omega)
    have hzero : (0 : UInt64).toNat = 0 := rfl
    -- the sequence behind the stretch is buffered, so the loop took it
    obtain ⟨f, hf⟩ := wraps (s + 1 + UInt64.ofNat n) (by
      by_cases hfull : s.toNat + 1 + n = 2 ^ 64
      · left
        apply UInt64.toNat_inj.mp
        omega
      · right
        rw [UInt64.lt_iff_toNat_lt]
        omega)
    have hstop := h.stop
    rw [h.left_get, h.seqs] at hstop
    split at hstop
    · rename_i hin
      obtain ⟨i, hi, heq⟩ := mem_consecutive.mp hin
      have := hat i (by omega) (by omega)
      rw [heq] at this
      omega
    · rw [hf] at hstop
      cases hstop
  rw [h.seqs]
  exact zero_mem_consecutive hlen

/-- What is taken out was buffered. -/
theorem Stretch.buffered_of_lt {s k : UInt64} {res : List OwnedFrame}
    {left : OrderedMap UInt64 OwnedFrame} {n : Nat} (h : Stretch s buffered res left n)
    (hs : s.toNat < k.toNat) (hk : k.toNat < s.toNat + 1 + n) : ∃ f, buffered[k]? = some f := by
  have hin : k.toNat ∈ res.map fun f => f.seq.toNat := by
    rw [h.seqs, List.mem_range'_1]
    exact ⟨hs, hk⟩
  obtain ⟨f, hf, heq⟩ := List.mem_map.mp hin
  have htaken := h.taken f hf
  rw [UInt64.toNat_inj.mp heq] at htaken
  exact ⟨f, htaken⟩

theorem Stretch.keyed {s : UInt64} {res : List OwnedFrame} {left : OrderedMap UInt64 OwnedFrame}
    {n : Nat} (h : Stretch s buffered res left n) (keyed : OrderedMap.Keyed OwnedFrame.seq buffered) :
    OrderedMap.Keyed OwnedFrame.seq left := by
  intro k f hf
  rw [h.left_get] at hf
  split at hf
  · cases hf
  · exact keyed k f hf

end Drain

/-- The scan of the requested range visits what the request covers. -/
theorem ActiveReplayRequest.allArrived_iff {req : ActiveReplayRequest} :
    req.allArrived = true ↔ ∀ s, req.covers s → s ∈ req.receivedSequences := by
  unfold allArrived
  simp only [List.all_eq_true, List.mem_range, decide_eq_true_eq]
  constructor
  · rintro h s ⟨hfrom, hto⟩
    obtain ⟨i, hi, rfl⟩ := mem_consecutive.mp (mem_consecutive_range hfrom hto)
    exact h i hi
  · intro h i hi
    exact h _ (of_mem_consecutive_range (mem_consecutive.mpr ⟨i, hi, rfl⟩))

namespace RecoveryEngine

variable {eng : RecoveryEngine} {now : Instant} {a b id : UInt64} {frame : OwnedFrame}

@[simp] theorem new_outstanding (config : RecoveryConfig) : (new config).outstandingRequests = ∅ := rfl

@[simp] theorem new_buffered (config : RecoveryConfig) : (new config).bufferedOutOfOrder = ∅ := rfl

@[simp] theorem drainContiguous_fst :
    (eng.drainContiguous a).1 = (drainFrom a eng.bufferedOutOfOrder).1 := rfl

@[simp] theorem drainContiguous_snd :
    (eng.drainContiguous a).2 =
      { eng with bufferedOutOfOrder := (drainFrom a eng.bufferedOutOfOrder).2 } := rfl

@[simp] theorem bufferFrame_buffered :
    (eng.bufferFrame frame).bufferedOutOfOrder = eng.bufferedOutOfOrder.insert frame.seq frame := rfl

@[simp] theorem bufferFrame_outstanding :
    (eng.bufferFrame frame).outstandingRequests = eng.outstandingRequests := rfl

/-! ## Creating requests -/

/-- The two guards of `create_replay_request`. -/
def Refuses (eng : RecoveryEngine) (fromSequence toSequence : UInt64) : Prop :=
  saturatingSub toSequence fromSequence + 1 > eng.config.maxReplayRange ∨
    eng.outstandingRequests.size ≥ eng.config.maxOutstandingRequests.toNat

instance : Decidable (eng.Refuses a b) := inferInstanceAs (Decidable (_ ∨ _))

/-- A refused request leaves the engine as it was. -/
theorem createReplayRequest_refused (now : Instant) (h : eng.Refuses a b) :
    ∃ e, eng.createReplayRequest now a b = (.error e, eng) := by
  unfold createReplayRequest
  by_cases hrange : saturatingSub b a + 1 > eng.config.maxReplayRange
  · exact ⟨_, if_pos hrange⟩
  · exact ⟨_, by rw [if_neg hrange, if_pos (h.resolve_left hrange)]⟩

/-- The request record an accepted call stores. -/
def freshRequest (eng : RecoveryEngine) (now : Instant) (a b : UInt64) : ActiveReplayRequest where
  requestId := eng.nextRequestId
  fromSequence := a
  toSequence := b
  createdAt := now
  lastSentAt := now
  retriesAttempted := 0
  receivedSequences := []

theorem createReplayRequest_accepted (h : ¬ eng.Refuses a b) :
    eng.createReplayRequest now a b =
      (.ok ⟨eng.nextRequestId, a, b⟩,
        { eng with
          nextRequestId := eng.nextRequestId + 1
          outstandingRequests := eng.outstandingRequests.insert eng.nextRequestId (eng.freshRequest now a b)
          state := .recovering }) := by
  simp only [Refuses, not_or] at h
  unfold createReplayRequest
  rw [if_neg h.1, if_neg h.2]
  rfl

@[simp] theorem createReplayRequest_buffered :
    (eng.createReplayRequest now a b).2.bufferedOutOfOrder = eng.bufferedOutOfOrder := by
  by_cases h : eng.Refuses a b
  · obtain ⟨e, he⟩ := createReplayRequest_refused now h
    rw [he]
  · rw [createReplayRequest_accepted h]

/-! ## Replay responses -/

/-- The response for `s` is the last one the request was waiting for. -/
def completes (eng : RecoveryEngine) (id s : UInt64) : Bool :=
  match eng.outstandingRequests[id]? with
  | none => false
  | some req => (req.recordReceived s).allArrived

/-- A response to no outstanding request changes nothing. -/
theorem handleReplayResponse_unknown (h : eng.outstandingRequests[id]? = none) :
    eng.handleReplayResponse id frame = (.ok none, eng) := by
  unfold handleReplayResponse
  rw [h]

/-- A response that leaves its request open is buffered. -/
theorem handleReplayResponse_pending {req : ActiveReplayRequest}
    (h : eng.outstandingRequests[id]? = some req) (hc : eng.completes id frame.seq = false) :
    eng.handleReplayResponse id frame =
      (.ok none,
        { eng with
          outstandingRequests := eng.outstandingRequests.insert id (req.recordReceived frame.seq)
          bufferedOutOfOrder := eng.bufferedOutOfOrder.insert frame.seq frame }) := by
  unfold completes at hc
  unfold handleReplayResponse
  rw [h] at hc ⊢
  simp only at hc ⊢
  rw [if_neg (by simpa using hc)]

/-- A response that completes its request releases the whole buffer. -/
theorem handleReplayResponse_complete (hc : eng.completes id frame.seq = true) :
    (eng.handleReplayResponse id frame).1 =
        .ok (some (OrderedMap.ascending (eng.bufferedOutOfOrder.insert frame.seq frame))) ∧
      (eng.handleReplayResponse id frame).2.bufferedOutOfOrder = ∅ := by
  unfold completes at hc
  unfold handleReplayResponse
  cases h : eng.outstandingRequests[id]? with
  | none => simp [h] at hc
  | some req =>
    rw [h] at hc
    simp only at hc ⊢
    rw [if_pos hc]
    exact ⟨rfl, rfl⟩

/-- A response that completes its request retires it. -/
theorem handleReplayResponse_retires {req : ActiveReplayRequest} (h : eng.outstandingRequests[id]? = some req)
    (hc : eng.completes id frame.seq = true) :
    (eng.handleReplayResponse id frame).2 =
      { eng with
        outstandingRequests := eng.outstandingRequests.erase id
        bufferedOutOfOrder := ∅
        state := if (eng.outstandingRequests.erase id).isEmpty then .live else eng.state } := by
  unfold completes at hc
  unfold handleReplayResponse
  rw [h] at hc ⊢
  dsimp only at hc ⊢
  rw [if_pos hc, OrderedMap.erase_insert]
  rfl

section Released

variable (keyed : OrderedMap.Keyed OwnedFrame.seq eng.bufferedOutOfOrder) (frame : OwnedFrame)
include keyed

/-- A completing response releases what was buffered and its own frame. -/
theorem mem_released {k : UInt64} :
    k ∈ (OrderedMap.ascending (eng.bufferedOutOfOrder.insert frame.seq frame)).map OwnedFrame.seq ↔
      k = frame.seq ∨ ∃ g, eng.bufferedOutOfOrder[k]? = some g := by
  rw [(keyed.insert frame).mem_map_ascending, OrderedMap.get_insert]
  by_cases hk : k = frame.seq <;> simp [hk]

theorem released_sorted :
    ((OrderedMap.ascending (eng.bufferedOutOfOrder.insert frame.seq frame)).map OwnedFrame.seq).Pairwise
      (· < ·) := by
  rw [List.pairwise_map]
  exact (keyed.insert frame).ascending_sorted.imp compareOfLessAndEq_eq_lt.mp

end Released

/-! ## The other handlers leave the buffer alone -/

@[simp] theorem handleReplayUnavailable_buffered (u : ReplayUnavailablePayload) :
    (eng.handleReplayUnavailable u).2.bufferedOutOfOrder = eng.bufferedOutOfOrder := rfl

@[simp] theorem checkTimeouts_buffered (order : List UInt64) :
    (eng.checkTimeouts now order).2.bufferedOutOfOrder = eng.bufferedOutOfOrder := by
  unfold checkTimeouts
  simp only
  split <;> rfl

/-- With nothing outstanding there is nothing to time out. -/
theorem checkTimeouts_idle (idle : ∀ id : UInt64, eng.outstandingRequests[id]? = none) (now : Instant)
    (order : List UInt64) : eng.checkTimeouts now order = (.ok [], eng) := by
  have hscan : order.foldl (scanTimeout eng.config now) ⟨eng.outstandingRequests, [], []⟩ =
      ⟨eng.outstandingRequests, [], []⟩ := by
    induction order with
    | nil => rfl
    | cons id ids ih =>
      rw [List.foldl_cons, scanTimeout, idle id]
      exact ih
  rw [checkTimeouts, hscan]

end RecoveryEngine

end Rtdp
