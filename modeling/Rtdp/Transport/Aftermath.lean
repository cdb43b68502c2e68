import Rtdp.Core.Delivery.AtLeastOnce
import Rtdp.Core.Delivery.Duplicates
import Rtdp.Transport.Handover
import Rtdp.Transport.Repair

/-!
# After a lost frame

A replay closes a gap without moving the tracker, so that a frame lost on the
DATA path is waited for for ever. Each later frame opens the gap again: its
request brings everything since the loss once more, and all of it is forwarded
once more. A frame that lies further ahead than a request may reach is not asked
for what is before it: `ReliableOrdered` buffers such frames, `AtLeastOnce` drops
them, and neither forwards anything then.
-/

namespace Rtdp

namespace RecoveryEngine

/-- A gap is asked for: at least one request may be outstanding, and the range is not too long. -/
def Reaches (cfg : RecoveryConfig) (n : ℕ) (s : UInt64) : Prop :=
  0 < cfg.maxOutstandingRequests ∧ s.toNat ≤ n + 1 + cfg.maxReplayRange.toNat

instance (cfg : RecoveryConfig) (n : ℕ) (s : UInt64) : Decidable (Reaches cfg n s) :=
  inferInstanceAs (Decidable (_ ∧ _))

/-- With nothing outstanding, the gap from `n + 1` to a later frame is refused if it is too long. -/
theorem refuses_iff {eng : RecoveryEngine} {n : ℕ} {s : UInt64} (idle : eng.outstandingRequests = ∅)
    (later : n + 2 ≤ s.toNat) : eng.Refuses (UInt64.ofNat (n + 1)) (s - 1) ↔ ¬ Reaches eng.config n s := by
  have hs := s.toNat_lt
  have hpos : 0 < s := by
    rw [UInt64.lt_iff_toNat_lt, UInt64.toNat_zero]
    omega
  have hpred : (s - 1).toNat = s.toNat - 1 := Counter.toNat_pred hpos
  have hsmall : n + 1 < 2 ^ 64 := by omega
  have hfrom : (UInt64.ofNat (n + 1)).toNat = n + 1 := UInt64.toNat_ofNat_of_lt' hsmall
  have hle : UInt64.ofNat (n + 1) ≤ s - 1 := by
    rw [UInt64.le_iff_toNat_le, hpred, hfrom]
    omega
  have hspan : (saturatingSub (s - 1) (UInt64.ofNat (n + 1)) + 1).toNat = s.toNat - (n + 1) := by
    have hsub : (s - 1 - UInt64.ofNat (n + 1)).toNat = s.toNat - 1 - (n + 1) := by
      rw [UInt64.toNat_sub_of_le _ _ hle, hpred, hfrom]
    rw [saturatingSub, if_neg (UInt64.not_lt.mpr hle), Counter.toNat_succ (by omega), hsub]
    omega
  have hrange : saturatingSub (s - 1) (UInt64.ofNat (n + 1)) + 1 > eng.config.maxReplayRange ↔
      ¬ s.toNat ≤ n + 1 + eng.config.maxReplayRange.toNat := by
    rw [gt_iff_lt, UInt64.lt_iff_toNat_lt, hspan]
    omega
  have hroom : eng.outstandingRequests.size ≥ eng.config.maxOutstandingRequests.toNat ↔
      ¬ 0 < eng.config.maxOutstandingRequests := by
    rw [idle, UInt64.lt_iff_toNat_lt, UInt64.toNat_zero]
    show (∅ : OrderedMap UInt64 ActiveReplayRequest).size ≥ _ ↔ _
    rw [Std.ExtTreeMap.size_empty]
    omega
  rw [Refuses, hrange, hroom, Reaches, not_and_or, or_comm]

end RecoveryEngine

/-! ## Behind the loss -/

/-- A worker that has handled `1..n` and waits for the DATA frame `n + 1`, with nothing outstanding. -/
structure Behind (m : DeliveryMode) (p : UInt64) (n : ℕ) (cfg : RecoveryConfig) (sub : Subscriber) : Prop where
  mode : sub.receiver.mode = m
  live : sub.receiver.tracker.activePublisherId = none ∨ sub.receiver.tracker.activePublisherId = some p
  expected : sub.receiver.tracker.expectedFor p = UInt64.ofNat (n + 1)
  config : sub.receiver.recovery.config = cfg
  outstanding : sub.receiver.recovery.outstandingRequests = ∅

namespace Behind

variable {m : DeliveryMode} {p : UInt64} {n : ℕ} {cfg : RecoveryConfig} {sub : Subscriber} {f : OwnedFrame}

theorem expectedOf (h : Behind m p n cfg sub) (hp : f.header.publisherId = p) :
    sub.receiver.expectedOf f = UInt64.ofNat (n + 1) := by
  rw [StreamReceiver.expectedOf, hp, h.expected]

theorem ahead (h : Behind m p n cfg sub) (hp : f.header.publisherId = p) (later : n + 2 ≤ f.seq.toNat) :
    sub.receiver.expectedOf f < f.seq := by
  have hs := f.seq.toNat_lt
  have hsmall : n + 1 < 2 ^ 64 := by omega
  rw [h.expectedOf hp, UInt64.lt_iff_toNat_lt, UInt64.toNat_ofNat_of_lt' hsmall]
  omega

/-- A later frame opens the gap from `n + 1`. -/
theorem gap_reliableOrdered (h : Behind .reliableOrdered p n cfg sub) (now : Instant)
    (hp : f.header.publisherId = p) (later : n + 2 ≤ f.seq.toNat)
    (fresh : sub.receiver.keyOf f ∉ sub.receiver.dedup.recentKeys) :
    sub.receiver.processDataFrame now f =
      (sub.receiver.observed f).bufferGap now f (UInt64.ofNat (n + 1)) (f.seq - 1) := by
  have hlt := h.ahead hp later
  have hne : f.seq ≠ sub.receiver.expectedOf f := (UInt64.ne_of_lt hlt).symm
  rw [StreamReceiver.processDataFrame_gap h.mode now fresh hne fun _ => hlt, h.expectedOf hp]

theorem gap_atLeastOnce (h : Behind .atLeastOnce p n cfg sub) (now : Instant)
    (hp : f.header.publisherId = p) (later : n + 2 ≤ f.seq.toNat) :
    sub.receiver.processDataFrame now f =
      { sub.receiver with tracker := (sub.receiver.observed f).tracker }.processAtLeastOnce now f f.seq
        (.gap (UInt64.ofNat (n + 1)) f.seq (UInt64.ofNat (n + 1)) (f.seq - 1)) := by
  have hlt := h.ahead hp later
  have hne : f.seq ≠ sub.receiver.expectedOf f := (UInt64.ne_of_lt hlt).symm
  rw [StreamReceiver.processDataFrame_atLeastOnce h.mode, ← h.expectedOf hp]
  rcases StreamSequenceTracker.observe_status_other hne with ⟨status, -⟩ | ⟨-, -, behind⟩
  · rw [status]
    rfl
  · exact absurd (UInt64.lt_trans behind hlt) (UInt64.lt_irrefl _)

/-- The tracker does not follow it. -/
theorem observed_expectedFor (h : Behind m p n cfg sub) (hp : f.header.publisherId = p)
    (later : n + 2 ≤ f.seq.toNat) :
    (sub.receiver.observed f).tracker.expectedFor p = UInt64.ofNat (n + 1) := by
  have hne : f.seq ≠ sub.receiver.expectedOf f := (UInt64.ne_of_lt (h.ahead hp later)).symm
  have hsame := StreamReceiver.observed_expectedFor hne
  rwa [hp, h.expectedOf hp] at hsame

/-- Replay traffic and timeouts change nothing. -/
theorem idle (h : Behind m p n cfg sub) {e : Event} (other : e.dataFrame = none) :
    Behind m p n cfg (sub.step e) ∧ (sub.step e).forwarded = sub.forwarded ∧
      (sub.step e).requested = sub.requested ∧ (sub.step e).receiver.dedup = sub.receiver.dedup ∧
      (sub.step e).receiver.recovery.bufferedOutOfOrder = sub.receiver.recovery.bufferedOutOfOrder ∧
      (sub.step e).receiver.recovery.nextRequestId = sub.receiver.recovery.nextRequestId := by
  obtain ⟨state, hstep⟩ := Subscriber.idle_step h.outstanding other
  rw [hstep]
  exact ⟨⟨h.mode, h.live, h.expected, h.config, h.outstanding⟩, rfl, rfl, rfl, rfl, rfl⟩

end Behind

/-! ## Rounds -/

/-- A later frame, what the worker handles before it, and the responses to the request it leads to. -/
structure Round where
  idle : List Event
  now : Instant
  frame : OwnedFrame
  replayed : List OwnedFrame

namespace Round

/-- The round whose request has this id. -/
def events (id : UInt64) (r : Round) : List Event :=
  r.idle ++ .data r.now r.frame :: r.replayed.map (Event.replayResponse id)

def request (n : ℕ) (id : UInt64) (r : Round) : ReplayRequestPayload :=
  ⟨id, UInt64.ofNat (n + 1), r.frame.seq - 1⟩

end Round

/-- Before a round: nothing is buffered, and of the later frames those `seen` are recorded at most. -/
structure Settled (m : DeliveryMode) (p : UInt64) (n : ℕ) (cfg : RecoveryConfig) (id : UInt64)
    (seen : List UInt64) (sub : Subscriber) : Prop extends Behind m p n cfg sub where
  buffered : sub.receiver.recovery.bufferedOutOfOrder = ∅
  next : sub.receiver.recovery.nextRequestId = id
  recorded : ∀ key ∈ sub.receiver.dedup.recentKeys, key.sequence.toNat ≤ n ∨ key.sequence ∈ seen

namespace Settled

variable {m : DeliveryMode} {p : UInt64} {n : ℕ} {cfg : RecoveryConfig} {id : UInt64} {seen : List UInt64}
  {sub : Subscriber} {f : OwnedFrame} {r : Round}

theorem idle (h : Settled m p n cfg id seen sub) {e : Event} (other : e.dataFrame = none) :
    Settled m p n cfg id seen (sub.step e) ∧ (sub.step e).forwarded = sub.forwarded ∧
      (sub.step e).requested = sub.requested := by
  obtain ⟨hbehind, hforwarded, hrequested, hdedup, hbuffered, hnext⟩ := h.toBehind.idle other
  refine ⟨⟨hbehind, hbuffered.trans h.buffered, hnext.trans h.next, ?_⟩, hforwarded, hrequested⟩
  rw [hdedup]
  exact h.recorded

theorem unrecorded (h : Settled m p n cfg id seen sub) (later : n + 2 ≤ f.seq.toNat) (new : f.seq ∉ seen) :
    sub.receiver.keyOf f ∉ sub.receiver.dedup.recentKeys := by
  intro hkey
  rcases h.recorded _ hkey with hle | hseen
  · rw [StreamReceiver.keyOf_sequence] at hle
    omega
  · exact new hseen

end Settled

/-! ## Silence -/

/-- No DATA frame that the worker could ask for what is before it. -/
def Event.Beyond (p : UInt64) (n : ℕ) (cfg : RecoveryConfig) : Event → Prop
  | .data _ f => f.header.publisherId = p ∧ n + 2 ≤ f.seq.toNat ∧ ¬ RecoveryEngine.Reaches cfg n f.seq
  | _ => True

instance (p : UInt64) (n : ℕ) (cfg : RecoveryConfig) : DecidablePred (Event.Beyond p n cfg)
  | .data _ _ => inferInstanceAs (Decidable (_ ∧ _))
  | .timeouts _ _ => inferInstanceAs (Decidable True)
  | .replayResponse _ _ => inferInstanceAs (Decidable True)
  | .replayUnavailable _ => inferInstanceAs (Decidable True)

/-- A worker that is past asking: `ReliableOrdered` has recorded a frame out of reach only if it holds
it, and `AtLeastOnce` holds nothing. -/
structure Silent (m : DeliveryMode) (p : UInt64) (n : ℕ) (cfg : RecoveryConfig) (sub : Subscriber) : Prop
    extends Behind m p n cfg sub where
  recorded : m = .reliableOrdered → ∀ key ∈ sub.receiver.dedup.recentKeys, n + 2 ≤ key.sequence.toNat →
    ¬ RecoveryEngine.Reaches cfg n key.sequence →
      ∃ g, sub.receiver.recovery.bufferedOutOfOrder[key.sequence]? = some g
  empty : m = .atLeastOnce → sub.receiver.recovery.bufferedOutOfOrder = ∅

/-- The worker has passed nothing on and asked for nothing, and keeps what it held. -/
structure Held (sub after : Subscriber) : Prop where
  forwarded : after.forwarded = sub.forwarded
  requested : after.requested = sub.requested
  buffered : ∀ s : UInt64, (∃ g, sub.receiver.recovery.bufferedOutOfOrder[s]? = some g) →
    ∃ g, after.receiver.recovery.bufferedOutOfOrder[s]? = some g

theorem Settled.silent {m : DeliveryMode} {p : UInt64} {n : ℕ} {cfg : RecoveryConfig} {id : UInt64}
    {seen : List UInt64} {sub : Subscriber} (h : Settled m p n cfg id seen sub)
    (reached : ∀ s ∈ seen, RecoveryEngine.Reaches cfg n s) : Silent m p n cfg sub where
  toBehind := h.toBehind
  recorded := by
    intro _ key hkey later beyond
    rcases h.recorded key hkey with hle | hseen
    · omega
    · exact absurd (reached _ hseen) beyond
  empty := fun _ => h.buffered

namespace Silent

variable {m : DeliveryMode} {p : UInt64} {n : ℕ} {cfg : RecoveryConfig} {sub : Subscriber} {f : OwnedFrame}

theorem data_reliableOrdered (h : Silent .reliableOrdered p n cfg sub) (now : Instant)
    (hp : f.header.publisherId = p) (later : n + 2 ≤ f.seq.toNat)
    (far : ¬ RecoveryEngine.Reaches cfg n f.seq) :
    Silent .reliableOrdered p n cfg (sub.step (.data now f)) ∧ Held sub (sub.step (.data now f)) ∧
      ∃ g, (sub.step (.data now f)).receiver.recovery.bufferedOutOfOrder[f.seq]? = some g := by
  have hexpected := h.observed_expectedFor hp later
  have hactive : (sub.receiver.observed f).tracker.activePublisherId = some p := by
    rw [StreamReceiver.observed_active, hp]
  have recorded := h.recorded rfl
  by_cases dup : sub.receiver.keyOf f ∈ sub.receiver.dedup.recentKeys
  · rw [Subscriber.step, Subscriber.handleData, StreamReceiver.processDataFrame_duplicate h.mode now dup]
    refine ⟨⟨⟨h.mode, Or.inr hactive, hexpected, h.config, h.outstanding⟩, fun _ key hkey => ?_,
      fun hm => absurd hm (by decide)⟩, ⟨List.append_nil _, List.append_nil _, fun _ hs => hs⟩, recorded _ dup later far⟩
    rcases StreamReceiver.observed_recorded hkey with rfl | hkey
    · exact recorded _ dup
    · exact recorded key hkey
  · have refused : (sub.receiver.observed f).recovery.Refuses (UInt64.ofNat (n + 1)) (f.seq - 1) := by
      rw [StreamReceiver.observed_recovery, RecoveryEngine.refuses_iff h.outstanding later, h.config]
      exact far
    obtain ⟨e, he⟩ := StreamReceiver.bufferGap_refused (sub.receiver.observed f) now f refused
    have hself : ∃ g, (sub.receiver.recovery.bufferedOutOfOrder.insert f.seq f)[f.seq]? = some g :=
      ⟨f, by rw [OrderedMap.get_insert, if_pos rfl]⟩
    have hkeep : ∀ s : UInt64, (∃ g, sub.receiver.recovery.bufferedOutOfOrder[s]? = some g) →
        ∃ g, (sub.receiver.recovery.bufferedOutOfOrder.insert f.seq f)[s]? = some g := by
      intro s hs
      by_cases heq : s = f.seq
      · rw [heq]
        exact hself
      · rw [OrderedMap.get_insert, if_neg heq]
        exact hs
    rw [Subscriber.step, Subscriber.handleData, (h.gap_reliableOrdered now hp later dup).trans he]
    refine ⟨⟨⟨h.mode, Or.inr hactive, hexpected, h.config, h.outstanding⟩, fun _ key hkey hlater hfar => ?_,
      fun hm => absurd hm (by decide)⟩, ⟨rfl, rfl, hkeep⟩, hself⟩
    rcases StreamReceiver.observed_recorded hkey with rfl | hkey
    · exact hself
    · exact hkeep _ (recorded key hkey hlater hfar)

theorem data_atLeastOnce (h : Silent .atLeastOnce p n cfg sub) (now : Instant)
    (hp : f.header.publisherId = p) (later : n + 2 ≤ f.seq.toNat)
    (far : ¬ RecoveryEngine.Reaches cfg n f.seq) :
    Silent .atLeastOnce p n cfg (sub.step (.data now f)) ∧ Held sub (sub.step (.data now f)) := by
  have hactive : (sub.receiver.observed f).tracker.activePublisherId = some p := by
    rw [StreamReceiver.observed_active, hp]
  have refused : sub.receiver.recovery.Refuses (UInt64.ofNat (n + 1)) (f.seq - 1) := by
    rw [RecoveryEngine.refuses_iff h.outstanding later, h.config]
    exact far
  obtain ⟨e, he⟩ := RecoveryEngine.createReplayRequest_refused now refused
  rw [Subscriber.step, Subscriber.handleData, h.gap_atLeastOnce now hp later, StreamReceiver.processAtLeastOnce]
  dsimp only
  rw [he]
  exact ⟨⟨⟨h.mode, Or.inr hactive, h.observed_expectedFor hp later, h.config, h.outstanding⟩,
    fun hm => absurd hm (by decide), h.empty⟩, rfl, rfl, fun _ hs => hs⟩

/-- **Step** -/
theorem step (h : Silent m p n cfg sub) (hmode : m = .reliableOrdered ∨ m = .atLeastOnce) {e : Event}
    (beyond : e.Beyond p n cfg) :
    Silent m p n cfg (sub.step e) ∧ Held sub (sub.step e) ∧
      ∀ f, e.dataFrame = some f → m = .reliableOrdered →
        ∃ g, (sub.step e).receiver.recovery.bufferedOutOfOrder[f.seq]? = some g := by
  cases he : e.dataFrame with
  | none =>
    obtain ⟨hbehind, hforwarded, hrequested, hdedup, hbuffered, -⟩ := h.toBehind.idle he
    refine ⟨⟨hbehind, ?_, ?_⟩, ⟨hforwarded, hrequested, ?_⟩, fun f hf => absurd hf.symm (Option.some_ne_none f)⟩
    · rw [hdedup, hbuffered]
      exact h.recorded
    · rw [hbuffered]
      exact h.empty
    · rw [hbuffered]
      exact fun _ hs => hs
  | some f =>
    cases e with
    | data now f' =>
      obtain rfl : f' = f := Option.some.inj he
      obtain ⟨hp, later, far⟩ := beyond
      rcases hmode with rfl | rfl
      · obtain ⟨hsilent, hheld, hself⟩ := h.data_reliableOrdered now hp later far
        refine ⟨hsilent, hheld, fun g hg _ => ?_⟩
        obtain rfl := Option.some.inj hg
        exact hself
      · obtain ⟨hsilent, hheld⟩ := h.data_atLeastOnce now hp later far
        exact ⟨hsilent, hheld, fun _ _ hm => absurd hm (by decide)⟩
    | timeouts now order => cases he
    | replayResponse id g => cases he
    | replayUnavailable u => cases he

/-- **Run**: nothing is forwarded any more, and `ReliableOrdered` holds every frame. -/
theorem run (h : Silent m p n cfg sub) (hmode : m = .reliableOrdered ∨ m = .atLeastOnce) {events : List Event}
    (beyond : ∀ e ∈ events, e.Beyond p n cfg) :
    let after := Runs.run Subscriber.step sub events
    Silent m p n cfg after ∧ Held sub after ∧
      ∀ f ∈ events.filterMap Event.dataFrame, m = .reliableOrdered →
        ∃ g, after.receiver.recovery.bufferedOutOfOrder[f.seq]? = some g := by
  induction events generalizing sub with
  | nil => exact ⟨h, ⟨rfl, rfl, fun _ hs => hs⟩, fun f hf => absurd hf List.not_mem_nil⟩
  | cons e rest ih =>
    obtain ⟨he, hrest⟩ := List.forall_mem_cons.mp beyond
    obtain ⟨hsilent, hheld, hself⟩ := h.step hmode he
    obtain ⟨hafter, hrun, hall⟩ := ih hsilent hrest
    refine ⟨hafter, ⟨hrun.forwarded.trans hheld.forwarded, hrun.requested.trans hheld.requested,
      fun s hs => hrun.buffered s (hheld.buffered s hs)⟩, fun f hf hm => ?_⟩
    obtain ⟨e', hmem, hf'⟩ := List.mem_filterMap.mp hf
    rcases List.mem_cons.mp hmem with rfl | hmem
    · exact hrun.buffered _ (hself f hf' hm)
    · exact hall f (List.mem_filterMap.mpr ⟨e', hmem, hf'⟩) hm

end Silent

/-! ## From the first frame on -/

/-- A call that delivers something asks for nothing. -/
theorem StreamReceiver.delivers_quietly {rx : StreamReceiver} {f : OwnedFrame}
    (mode : rx.mode = .reliableOrdered) (now : Instant)
    (live : rx.tracker.activePublisherId = none ∨ rx.tracker.activePublisherId = some f.header.publisherId)
    (delivers : (rx.processDataFrame now f).1.frames ≠ []) :
    (∃ batch, (rx.processDataFrame now f).1 = .ok (batch, none)) ∧
      ∃ left, (rx.processDataFrame now f).2.recovery = { rx.recovery with bufferedOutOfOrder := left } := by
  have hcases := reliable_cases mode now f
  generalize rx.processDataFrame now f = result at hcases delivers ⊢
  cases hcases with
  | suppressed dup => exact absurd rfl delivers
  | inOrder fresh live expected =>
    have hspec := deliverInOrder_spec (rx.observed f) f f.seq
    exact ⟨⟨_, hspec.frames⟩, _, hspec.recovery⟩
  | reset fresh other started first => exact (live.elim started other).elim
  | gap fresh unexpected ahead => exact absurd (bufferGap_spec _ now f _ _).1 delivers
  | old fresh same behind => exact absurd rfl delivers

namespace Settled

variable {m : DeliveryMode} {p : UInt64} {n c : ℕ} {cfg : RecoveryConfig} {id : UInt64} {sub : Subscriber}
  {f : OwnedFrame}

theorem fresh (streamId p : UInt64) (m : DeliveryMode) (cfg : RecoveryConfig) :
    Settled m p 0 cfg 1 [] (Subscriber.new streamId m cfg) := by
  refine ⟨⟨rfl, Or.inl rfl, rfl, rfl, rfl⟩, rfl, rfl, fun key hkey => ?_⟩
  simp [Subscriber.new, StreamReceiver.new, DuplicateFilter.new] at hkey

theorem inOrder_reliableOrdered (h : Settled .reliableOrdered p n cfg id [] sub) (now : Instant)
    (hp : f.header.publisherId = p) (hseq : f.seq.toNat = n + 1) :
    Settled .reliableOrdered p (n + 1) cfg id [] (sub.step (.data now f)) ∧
      (sub.step (.data now f)).forwarded = sub.forwarded ++ [f] ∧
      (sub.step (.data now f)).requested = sub.requested := by
  have inStep : InStep p n sub.receiver := by
    refine ⟨h.mode, h.live, h.expected, fun k => ?_, fun k => ?_, fun key hkey => ?_⟩
    · rw [h.buffered]
      rfl
    · rw [h.outstanding]
      rfl
    · exact (h.recorded key hkey).resolve_right List.not_mem_nil
  obtain ⟨hstep, hframes⟩ := inStep.step now hp hseq
  obtain ⟨⟨batch, hok⟩, left, hrecovery⟩ := StreamReceiver.delivers_quietly h.mode now (hp ▸ h.live)
    (by rw [hframes]; exact List.cons_ne_nil f [])
  obtain rfl : batch = [f] := by
    rw [hok] at hframes
    exact hframes
  have hcall : sub.receiver.processDataFrame now f = (.ok ([f], none), (sub.receiver.processDataFrame now f).2) :=
    Prod.ext hok rfl
  generalize (sub.receiver.processDataFrame now f).2 = after at hcall hstep hrecovery
  rw [Subscriber.step, Subscriber.handleData, hcall]
  refine ⟨⟨⟨hstep.mode, hstep.live, hstep.expected, ?_, Std.ExtTreeMap.ext_getElem? hstep.outstanding⟩,
    Std.ExtTreeMap.ext_getElem? hstep.buffered, ?_, fun key hkey => Or.inl (hstep.recorded key hkey)⟩, rfl,
    List.append_nil _⟩
  · dsimp only
    rw [hrecovery]
    exact h.config
  · dsimp only
    rw [hrecovery]
    exact h.next

theorem inOrder_atLeastOnce (h : Settled .atLeastOnce p n cfg id [] sub) (now : Instant)
    (hp : f.header.publisherId = p) (hseq : f.seq.toNat = n + 1) :
    Settled .atLeastOnce p (n + 1) cfg id [] (sub.step (.data now f)) ∧
      (sub.step (.data now f)).forwarded = sub.forwarded ++ [f] ∧
      (sub.step (.data now f)).requested = sub.requested := by
  have hnext : f.seq = UInt64.ofNat (n + 1) := by
    rw [← hseq, UInt64.ofNat_toNat]
  have expected : f.seq = sub.receiver.expectedOf f := by
    rw [h.expectedOf hp, hnext]
  have hactive : (sub.receiver.observed f).tracker.activePublisherId = some p := by
    rw [StreamReceiver.observed_active, hp]
  rw [Subscriber.step, Subscriber.handleData, StreamReceiver.processDataFrame_atLeastOnce h.mode,
    StreamSequenceTracker.observe_status_same (hp ▸ h.live) expected]
  refine ⟨⟨⟨h.mode, Or.inr hactive, ?_, h.config, h.outstanding⟩, h.buffered, h.next, fun key hkey => ?_⟩, rfl,
    List.append_nil _⟩
  · show (sub.receiver.observed f).tracker.expectedFor p = _
    rw [StreamSequenceTracker.expectedFor_active hactive, StreamReceiver.observed_expected,
      if_pos expected, h.expectedOf hp]
    exact (UInt64.ofNat_add (n + 1) 1).symm
  · rcases h.recorded key hkey with hle | hmem
    · exact Or.inl (Nat.le_succ_of_le hle)
    · exact absurd hmem List.not_mem_nil

/-- **Step**: the next frame is delivered by itself. -/
theorem inOrder (h : Settled m p n cfg id [] sub) (hmode : m = .reliableOrdered ∨ m = .atLeastOnce)
    (now : Instant) (hp : f.header.publisherId = p) (hseq : f.seq.toNat = n + 1) :
    Settled m p (n + 1) cfg id [] (sub.step (.data now f)) ∧
      (sub.step (.data now f)).forwarded = sub.forwarded ++ [f] ∧
      (sub.step (.data now f)).requested = sub.requested := by
  rcases hmode with rfl | rfl
  · exact h.inOrder_reliableOrdered now hp hseq
  · exact h.inOrder_atLeastOnce now hp hseq

end Settled

end Rtdp
