import Rtdp.Core.Delivery.Reassembly
import Rtdp.Core.Delivery.Requests

/-!
# A change of publisher in `ReliableOrdered` mode

The tracker says that the receiver must not assume continuity across
`publisher_id` changes. The recovery engine is reset only when the new
publisher's first frame is its frame 1; any other first frame is an ordinary
gap, and what the engine holds of the old publisher stays. `SwitchClean` is the
condition under which nothing of it is left; it is enough, and without it some
continuation shows the old publisher again.
-/

namespace Rtdp

/-- The calls of `σ` deliver frames of `b` alone, `1, 2, …` in order, and every request
still outstanding was made by one of them. -/
structure Isolated (b : UInt64) (σ : Feed) : Prop where
  own : ∀ g ∈ σ.delivered, g.header.publisherId = b
  ordered : ∃ n, (σ.delivered.map fun g => g.seq.toNat) = List.range' 1 n
  requests : ∀ (id : UInt64) req, σ.receiver.recovery.outstandingRequests[id]? = some req →
    ⟨id, req.fromSequence, req.toSequence⟩ ∈ σ.requests

/-- The first frame of a new publisher, with sequence `s`, finds or leaves nothing of the old one. -/
def SwitchClean (rx : StreamReceiver) (s : UInt64) : Prop :=
  s = 1 ∨ rx.recovery.outstandingRequests = ∅ ∧
    ∀ (k : UInt64) g, rx.recovery.bufferedOutOfOrder[k]? = some g → k = s

/-- Frames of one publisher with positive sequences, one of which is left out. -/
structure Numbers (p : UInt64) (arrivals : List Arrival) : Prop where
  publisher : ∀ a ∈ arrivals, a.frame.header.publisherId = p
  pos : ∀ a ∈ arrivals, 0 < a.frame.seq
  missing : ∃ m, 0 < m ∧ ∀ a ∈ arrivals, a.frame.seq ≠ m

/-- An unclean switch with nothing outstanding finds another frame buffered. -/
theorem exists_stale {rx : StreamReceiver} {s : UInt64} (unclean : ¬ SwitchClean rx s)
    (idle : rx.recovery.outstandingRequests = ∅) :
    ∃ (k : UInt64) (g : OwnedFrame), rx.recovery.bufferedOutOfOrder[k]? = some g ∧ s ≠ k := by
  by_contra hnone
  refine unclean (Or.inr ⟨idle, fun k g hg => ?_⟩)
  by_contra hne
  exact hnone ⟨k, g, hg, fun heq => hne heq.symm⟩

/-! ## Before the change -/

/-- The receiver has seen no frame of `b`, and holds nothing before its first frame. -/
structure Foreign (b : UInt64) (rx : StreamReceiver) : Prop where
  mode : rx.mode = .reliableOrdered
  inactive : rx.tracker.activePublisherId ≠ some b
  unrecorded : ∀ key ∈ rx.dedup.recentKeys, key.publisherId ≠ b
  idle : rx.tracker.activePublisherId = none →
    rx.recovery.outstandingRequests = ∅ ∧ rx.recovery.bufferedOutOfOrder = ∅

namespace Foreign

variable {a b : UInt64} {rx : StreamReceiver} {f : OwnedFrame}

theorem fresh (cfg : RecoveryConfig) (streamId b : UInt64) :
    Foreign b (StreamReceiver.new streamId .reliableOrdered cfg) := by
  refine ⟨rfl, ?_, ?_, fun _ => ⟨rfl, rfl⟩⟩
  · intro h
    cases h
  · intro key hkey
    simp [StreamReceiver.new, DuplicateFilter.new] at hkey

/-- A frame of another publisher. -/
theorem step (h : Foreign b rx) (now : Instant) (hf : f.header.publisherId ≠ b) :
    Foreign b (rx.processDataFrame now f).2 := by
  have hbase := StreamReceiver.observed_after h.mode now f
  refine ⟨hbase.mode, ?_, ?_, ?_⟩
  · rw [hbase.active]
    intro heq
    exact hf (Option.some.inj heq)
  · intro key hkey
    rw [hbase.dedup] at hkey
    rcases StreamReceiver.observed_recorded hkey with rfl | hkey
    · exact hf
    · exact h.unrecorded key hkey
  · rw [hbase.active]
    intro heq
    cases heq

theorem run {as : List Arrival} (h : Foreign b rx) (has : ∀ x ∈ as, x.frame.header.publisherId ≠ b) :
    Foreign b (rx.feed as).receiver := by
  apply Runs.invariant (fun σ : Feed => Foreign b σ.receiver) ?_ h (Runs.each_of_forall has)
  intro σ x hσ hx
  exact hσ.step x.now hx

/-! ## The first frame of the new publisher -/

/-- Frame 1 replaces a publisher: the engine is reset. -/
theorem switch_reset (h : Foreign b rx) (now : Instant) (hp : f.header.publisherId = b)
    (started : rx.tracker.activePublisherId ≠ none) (first : f.seq = 1) :
    rx.processDataFrame now f =
      (.ok ([f], none),
        { rx.observed f with recovery := rx.recovery.reset, highestDeliveredSequence := 1 }) := by
  have hinactive : rx.tracker.activePublisherId ≠ some f.header.publisherId := hp ▸ h.inactive
  have hcases := StreamReceiver.reliable_cases h.mode now f
  generalize rx.processDataFrame now f = result at hcases ⊢
  cases hcases with
  | suppressed dup => exact absurd hp (h.unrecorded _ dup)
  | inOrder fresh live expected => exact (live.elim started hinactive).elim
  | reset fresh other started first => rfl
  | gap fresh unexpected ahead =>
    rw [StreamReceiver.expectedOf, StreamSequenceTracker.expectedFor_inactive hinactive] at unexpected
    exact absurd first unexpected
  | old fresh same behind => exact absurd same hinactive

/-- Any other frame is a gap from 1, and the engine keeps what it holds. -/
theorem switch_gap (h : Foreign b rx) (now : Instant) (hp : f.header.publisherId = b)
    (notFirst : f.seq ≠ 1) :
    rx.processDataFrame now f = (rx.observed f).bufferGap now f 1 (f.seq - 1) := by
  have hinactive : rx.tracker.activePublisherId ≠ some f.header.publisherId := hp ▸ h.inactive
  have hexp : rx.expectedOf f = 1 := StreamSequenceTracker.expectedFor_inactive hinactive
  have hgap := StreamReceiver.processDataFrame_gap h.mode now (fun hrec => h.unrecorded _ hrec hp)
    (hexp ▸ notFirst) fun hactive => absurd hactive hinactive
  rw [hgap, hexp]

/-- Buffering a frame hides what was buffered under its own sequence. -/
theorem bufferGap_of_empty (now : Instant) {c d : UInt64}
    (own : ∀ (k : UInt64) g, rx.recovery.bufferedOutOfOrder[k]? = some g → k = f.seq) :
    (({ rx with recovery := { rx.recovery with bufferedOutOfOrder := ∅ } } : StreamReceiver).observed f).bufferGap
        now f c d =
      (rx.observed f).bufferGap now f c d := by
  have hbuffered : (∅ : OrderedMap UInt64 OwnedFrame).insert f.seq f =
      rx.recovery.bufferedOutOfOrder.insert f.seq f := by
    apply Std.ExtTreeMap.ext_getElem?
    intro k
    rw [OrderedMap.get_insert, OrderedMap.get_insert]
    split
    · rfl
    · rename_i hne
      cases hget : rx.recovery.bufferedOutOfOrder[k]? with
      | none => simp
      | some g => exact absurd (own k g hget) hne
  have hframe : ({ rx.recovery with bufferedOutOfOrder := ∅ } : RecoveryEngine).bufferFrame f =
      rx.recovery.bufferFrame f := by
    rw [RecoveryEngine.bufferFrame, RecoveryEngine.bufferFrame]
    exact congrArg (fun buffered => { rx.recovery with bufferedOutOfOrder := buffered }) hbuffered
  unfold StreamReceiver.bufferGap
  simp only [StreamReceiver.observed_recovery, hframe]
  rfl

/-- **First frame**: after a clean switch the receiver has seen just this frame of `b`. -/
theorem switch (h : Foreign b rx) {x : Arrival} (hp : x.frame.header.publisherId = b)
    (hpos : 0 < x.frame.seq) (clean : SwitchClean rx x.frame.seq) {missing : UInt64}
    (hm : 0 < missing) (hne : x.frame.seq ≠ missing) :
    Reassembled b [x.frame] ((Feed.of rx).call x) := by
  by_cases hnone : rx.tracker.activePublisherId = none
  · have hidle := Reassembled.idle h.mode h.inactive (h.idle hnone).2 h.unrecorded
    exact hidle.call hp hpos hm (by simp) hne
  by_cases hfirst : x.frame.seq = 1
  · have hexp : x.frame.seq = rx.expectedOf x.frame := by
      rw [StreamReceiver.expectedOf, hp, StreamSequenceTracker.expectedFor_inactive h.inactive, hfirst]
    apply Reassembled.first
    rw [h.switch_reset x.now hp hnone hfirst]
    exact Synced.refines_reset h.mode hp hfirst hexp h.unrecorded
  · obtain ⟨-, hown⟩ := clean.resolve_left hfirst
    have hidle : Reassembled b []
        (Feed.of { rx with recovery := { rx.recovery with bufferedOutOfOrder := ∅ } }) :=
      Reassembled.idle h.mode h.inactive rfl h.unrecorded
    have hbeyond : rx.expectedOf x.frame < x.frame.seq := by
      rw [StreamReceiver.expectedOf, hp, StreamSequenceTracker.expectedFor_inactive h.inactive]
      exact Counter.one_lt_of_pos_of_ne hpos hfirst
    apply Reassembled.first
    rw [h.switch_gap x.now hp hfirst, ← bufferGap_of_empty x.now hown]
    exact hidle.synced.refines_gap hp hbeyond 1 (x.frame.seq - 1)

end Foreign

/-! ## Requests -/

/-- Every outstanding request was handed out by a call of `σ`. -/
def RequestsOwn (σ : Feed) : Prop :=
  ∀ (id : UInt64) req, σ.receiver.recovery.outstandingRequests[id]? = some req →
    ⟨id, req.fromSequence, req.toSequence⟩ ∈ σ.requests

theorem RequestsOwn.call {σ : Feed} (h : RequestsOwn σ) (mode : σ.receiver.mode = .reliableOrdered)
    (x : Arrival) : RequestsOwn (σ.call x) := by
  intro id req hreq
  rw [Feed.call_requests, List.mem_append]
  rcases StreamReceiver.outstanding_step mode x.now x.frame hreq with hold | hnew
  · exact Or.inl (h id req hold)
  · rw [hnew]
    exact Or.inr (by simp)

theorem Foreign.requestsOwn {b : UInt64} {rx : StreamReceiver} (h : Foreign b rx) {x : Arrival}
    (hp : x.frame.header.publisherId = b) (clean : SwitchClean rx x.frame.seq) :
    RequestsOwn ((Feed.of rx).call x) := by
  have hempty (hout : rx.recovery.outstandingRequests = ∅) : RequestsOwn ((Feed.of rx).call x) := by
    apply RequestsOwn.call ?_ h.mode
    intro id req hreq
    simp [Feed.of, hout] at hreq
  by_cases hnone : rx.tracker.activePublisherId = none
  · exact hempty (h.idle hnone).1
  · rcases clean with hfirst | ⟨hout, -⟩
    · intro id req hreq
      rw [Feed.call_receiver, Feed.of, h.switch_reset x.now hp hnone hfirst] at hreq
      simp [RecoveryEngine.reset] at hreq
    · exact hempty hout

/-- **Run**: a clean switch isolates the new publisher, whatever follows. -/
theorem Foreign.isolated {b : UInt64} {rx : StreamReceiver} (h : Foreign b rx) {x : Arrival}
    {bs : List Arrival} (clean : SwitchClean rx x.frame.seq) (numbers : Numbers b (x :: bs)) :
    Isolated b (rx.feed (x :: bs)) := by
  obtain ⟨m, hm, hne⟩ := numbers.missing
  have hp := numbers.publisher x (by simp)
  have hfirst := h.switch hp (numbers.pos x (by simp)) clean hm (hne x (by simp))
  have hrest : Reassembled b ([x.frame] ++ bs.map Arrival.frame) (rx.feed (x :: bs)) := by
    apply hfirst.run m (fun y hy => numbers.publisher y (by simp [hy]))
      (fun y hy => numbers.pos y (by simp [hy])) hm ?_ (fun y hy => hne y (by simp [hy]))
    rintro ⟨g, hg, heq⟩
    rw [List.mem_singleton] at hg
    subst hg
    exact hne x (by simp) (UInt64.toNat_inj.mp heq)
  have hown : RequestsOwn (rx.feed (x :: bs)) ∧ (rx.feed (x :: bs)).receiver.mode = .reliableOrdered := by
    rw [StreamReceiver.feed_cons]
    refine Runs.always (fun σ : Feed => RequestsOwn σ ∧ σ.receiver.mode = .reliableOrdered)
      ?_ ⟨h.requestsOwn hp clean, (StreamReceiver.observed_after h.mode x.now x.frame).mode⟩
    rintro σ y ⟨hreq, hmode⟩
    exact ⟨hreq.call hmode y, (StreamReceiver.observed_after hmode y.now y.frame).mode⟩
  refine ⟨?_, ⟨_, hrest.delivered⟩, hown.1⟩
  intro g hg
  have hmem := hrest.genuine g hg
  rw [List.singleton_append, ← List.map_cons, List.mem_map] at hmem
  obtain ⟨y, hy, rfl⟩ := hmem
  exact numbers.publisher y hy

/-! ## What an unclean switch leaks -/

section Leak

variable {a b : UInt64} {received : List OwnedFrame} {rx : StreamReceiver} {x : Arrival}

/-- A request of the old publisher is still outstanding, and is not of the new one's. -/
theorem Foreign.leaks_request (h : Foreign b rx) (numbered : Numbered rx.recovery)
    (hp : x.frame.header.publisherId = b) (notFirst : x.frame.seq ≠ 1) {id : UInt64}
    {req : ActiveReplayRequest} (held : rx.recovery.outstandingRequests[id]? = some req) :
    ¬ Isolated b (rx.feed [x]) := by
  intro hiso
  have hkept := StreamReceiver.outstanding_kept h.mode x.now x.frame numbered
    (Or.inr (Or.inr notFirst)) held
  have hmem := hiso.requests id req hkept
  rw [StreamReceiver.feed_cons, Runs.run_nil, Feed.call_requests] at hmem
  rw [show (Feed.of rx).receiver = rx from rfl, h.switch_gap x.now hp notFirst] at hmem
  by_cases refused : rx.recovery.Refuses 1 (x.frame.seq - 1)
  · obtain ⟨e, he⟩ := StreamReceiver.bufferGap_refused (rx.observed x.frame) x.now x.frame refused
    simp [he, Feed.of, Feed.requests, Delivery.request] at hmem
  · rw [StreamReceiver.bufferGap_accepted (rx.observed x.frame) x.now x.frame refused] at hmem
    simp only [Feed.of, Feed.requests, List.flatMap_nil, List.nil_append, Delivery.request,
      Option.toList_some, List.mem_singleton, ReplayRequestPayload.mk.injEq,
      StreamReceiver.observed_recovery] at hmem
    rw [hmem.1, numbered.fresh refused] at held
    cases held

/-- The frames of `b` with sequences `1, …, k - 1`. -/
def arrivalsBelow (b k : UInt64) : List Arrival :=
  arrivalsOf b ((List.range' 1 (k.toNat - 1)).map UInt64.ofNat)

theorem mem_arrivalsBelow {k : UInt64} {y : Arrival} (hy : y ∈ arrivalsBelow b k) :
    y.frame.header.publisherId = b ∧ 1 ≤ y.frame.seq.toNat ∧ y.frame.seq.toNat < k.toNat := by
  simp only [arrivalsBelow, arrivalsOf, List.map_map, List.mem_map, List.mem_range'_1] at hy
  obtain ⟨n, ⟨hlo, hhi⟩, rfl⟩ := hy
  have hk := k.toNat_lt
  have hn : (UInt64.ofNat n).toNat = n := UInt64.toNat_ofNat_of_lt' (show n < 2 ^ 64 by omega)
  refine ⟨rfl, ?_, ?_⟩
  · show 1 ≤ (UInt64.ofNat n).toNat
    omega
  · show (UInt64.ofNat n).toNat < k.toNat
    omega

theorem exists_arrivalsBelow (b : UInt64) {k : UInt64} {n : ℕ} (hpos : 0 < n) (hn : n < k.toNat) :
    ∃ y ∈ arrivalsBelow b k, y.frame.seq.toNat = n := by
  have hk := k.toNat_lt
  refine ⟨⟨0, OwnedFrame.newData 1 (UInt64.ofNat n) 0 b []⟩, ?_, ?_⟩
  · simp only [arrivalsBelow, arrivalsOf, List.map_map, List.mem_map, List.mem_range'_1]
    exact ⟨n, by omega, rfl⟩
  · exact UInt64.toNat_ofNat_of_lt' (show n < 2 ^ 64 by omega)

/-- The frames buffered for the old publisher stand in the buffer as if received from `b`. -/
theorem Foreign.holds (h : Foreign b rx)
    (keyed : OrderedMap.Keyed OwnedFrame.seq rx.recovery.bufferedOutOfOrder)
    (above : ∀ (k : UInt64) g, rx.recovery.bufferedOutOfOrder[k]? = some g → 1 < k) :
    Holds b (OrderedMap.ascending rx.recovery.bufferedOutOfOrder) rx := by
  have hexp : rx.tracker.expectedFor b = 1 := StreamSequenceTracker.expectedFor_inactive h.inactive
  have hmem : ∀ k : UInt64, k.toNat ∈ seqsOf (OrderedMap.ascending rx.recovery.bufferedOutOfOrder) ↔
      ∃ g, rx.recovery.bufferedOutOfOrder[k]? = some g := by
    intro k
    rw [← keyed.mem_map_ascending, List.mem_map]
    constructor
    · rintro ⟨g, hg, heq⟩
      exact ⟨g, hg, UInt64.toNat_inj.mp heq⟩
    · rintro ⟨g, hg, rfl⟩
      exact ⟨g, hg, rfl⟩
  refine ⟨h.mode, ?_, keyed, ?_, ?_, ?_⟩
  · rw [hexp]
    apply IsFrontier.intro
    · decide
    · rw [hmem]
      rintro ⟨g, hg⟩
      exact UInt64.lt_irrefl _ (above 1 g hg)
    · intro k hk hk1
      have : (1 : UInt64).toNat = 1 := rfl
      omega
  · intro k
    rw [hmem, hexp]
    constructor
    · rintro ⟨g, hg⟩
      exact ⟨above k g hg, g, hg⟩
    · exact fun hk => hk.2
  · intro k g hg
    rw [keyed.mem_ascending, keyed k g hg]
    exact hg
  · intro key hkey hpub
    exact absurd hpub (h.unrecorded key hkey)

/-- One frame but `k`, and then all below `k`: the sequence `k` is never sent. -/
theorem numbers_arrivalsBelow (hp : x.frame.header.publisherId = b) (hpos : 0 < x.frame.seq)
    {k : UInt64} (hkpos : 0 < k) (hk : x.frame.seq ≠ k) : Numbers b (x :: arrivalsBelow b k) := by
  refine ⟨?_, ?_, k, hkpos, ?_⟩
  · exact List.forall_mem_cons.mpr ⟨hp, fun y hy => (mem_arrivalsBelow hy).1⟩
  · exact List.forall_mem_cons.mpr ⟨hpos, fun y hy => UInt64.lt_iff_toNat_lt.mpr (mem_arrivalsBelow hy).2.1⟩
  · refine List.forall_mem_cons.mpr ⟨hk, fun y hy heq => ?_⟩
    exact absurd (heq ▸ (mem_arrivalsBelow hy).2.2) (Nat.lt_irrefl _)

/-- A run of `b` that begins beyond 1 treats the buffered frames as received from `b`. -/
theorem Foreign.merges (h : Foreign b rx)
    (keyed : OrderedMap.Keyed OwnedFrame.seq rx.recovery.bufferedOutOfOrder)
    (above : ∀ (k : UInt64) g, rx.recovery.bufferedOutOfOrder[k]? = some g → 1 < k)
    (below : ∀ (k : UInt64) g, rx.recovery.bufferedOutOfOrder[k]? = some g → k.toNat ≤ 2 ^ 64 - 2)
    (hp : x.frame.header.publisherId = b) (notFirst : x.frame.seq ≠ 1) (hpos : 0 < x.frame.seq)
    (hmax : x.frame.seq.toNat ≤ 2 ^ 64 - 2) (k : UInt64) :
    Reassembled b (OrderedMap.ascending rx.recovery.bufferedOutOfOrder ++ [x.frame] ++
      (arrivalsBelow b k).map Arrival.frame) (rx.feed (x :: arrivalsBelow b k)) := by
  have hlast : (UInt64.ofNat (2 ^ 64 - 1)).toNat = 2 ^ 64 - 1 := by decide
  have hfirst : Reassembled b (OrderedMap.ascending rx.recovery.bufferedOutOfOrder ++ [x.frame])
      ((Feed.of rx).call x) := by
    have hholds := h.holds keyed above
    have hexp : rx.tracker.expectedFor b = 1 := StreamSequenceTracker.expectedFor_inactive h.inactive
    have hbeyond : rx.expectedOf x.frame < x.frame.seq := by
      rw [StreamReceiver.expectedOf, hp, hexp]
      exact Counter.one_lt_of_pos_of_ne hpos notFirst
    apply Reassembled.of_refines (σ := Feed.of rx) hholds.frontier
    · rw [hexp]
      rfl
    · intro g hg
      cases hg
    · rw [show (Feed.of rx).receiver = rx from rfl, h.switch_gap x.now hp notFirst]
      exact hholds.refines_gap hp hbeyond 1 (x.frame.seq - 1)
  rw [StreamReceiver.feed_cons]
  apply hfirst.run (UInt64.ofNat (2 ^ 64 - 1)) (fun y hy => (mem_arrivalsBelow hy).1)
    (fun y hy => UInt64.lt_iff_toNat_lt.mpr (mem_arrivalsBelow hy).2.1) (by decide)
  · rintro ⟨g, hg, heq⟩
    rw [hlast] at heq
    rcases List.mem_append.mp hg with hg | hg
    · have := below _ _ (keyed.mem_ascending.mp hg)
      omega
    · rw [List.mem_singleton.mp hg] at heq
      omega
  · intro y hy heq
    have hlt := (mem_arrivalsBelow hy).2.2
    have hmax := k.toNat_lt
    rw [heq, hlast] at hlt
    omega

/-- A buffered frame of the old publisher is delivered once all below it have arrived. -/
theorem Reassembled.delivers_below {σ : Feed} {k : UInt64} (hrun : Reassembled b received σ)
    (hkpos : 0 < k) (held : k.toNat ∈ seqsOf received)
    (sent : ∀ y ∈ arrivalsBelow b k, y.frame ∈ received) :
    k.toNat ∈ σ.delivered.map fun d => d.seq.toNat := by
  have hpast : k.toNat < (σ.receiver.tracker.expectedFor b).toNat := by
    by_contra hle
    apply hrun.synced.frontier.not_mem
    rcases Nat.lt_or_eq_of_le (Nat.le_of_not_lt hle) with hlt | heq
    · obtain ⟨y, hy, hseq⟩ := exists_arrivalsBelow b hrun.synced.frontier.pos hlt
      exact ⟨y.frame, sent y hy, hseq⟩
    · rw [heq]
      exact held
  rw [hrun.delivered, List.mem_range'_1]
  have := UInt64.lt_iff_toNat_lt.mp hkpos
  simp only [UInt64.toNat_zero] at this
  omega

/-- A frame of the old publisher is buffered; the frames of `b` before it release it. -/
theorem Foreign.leaks_frame (h : Foreign b rx) (hab : a ≠ b)
    (keyed : OrderedMap.Keyed OwnedFrame.seq rx.recovery.bufferedOutOfOrder)
    (above : ∀ (k : UInt64) g, rx.recovery.bufferedOutOfOrder[k]? = some g → 1 < k)
    (below : ∀ (k : UInt64) g, rx.recovery.bufferedOutOfOrder[k]? = some g → k.toNat ≤ 2 ^ 64 - 2)
    (stale : ∀ (k : UInt64) g, rx.recovery.bufferedOutOfOrder[k]? = some g → g.header.publisherId = a)
    (hp : x.frame.header.publisherId = b) (notFirst : x.frame.seq ≠ 1) (hpos : 0 < x.frame.seq)
    (hmax : x.frame.seq.toNat ≤ 2 ^ 64 - 2)
    {k : UInt64} {g : OwnedFrame} (held : rx.recovery.bufferedOutOfOrder[k]? = some g)
    (hk : x.frame.seq ≠ k) :
    Numbers b (x :: arrivalsBelow b k) ∧ ¬ Isolated b (rx.feed (x :: arrivalsBelow b k)) := by
  have hkpos : 0 < k := UInt64.lt_trans (by decide) (above k g held)
  refine ⟨numbers_arrivalsBelow hp hpos hkpos hk, fun hiso => ?_⟩
  have hrun := h.merges keyed above below hp notFirst hpos hmax k
  have hdelivered : k.toNat ∈ (rx.feed (x :: arrivalsBelow b k)).delivered.map fun d => d.seq.toNat := by
    apply hrun.delivers_below hkpos
    · refine ⟨g, ?_, by rw [← keyed k g held]⟩
      apply List.mem_append_left
      apply List.mem_append_left
      rw [keyed.mem_ascending, keyed k g held]
      exact held
    · exact fun y hy => List.mem_append_right _ (List.mem_map_of_mem hy)
  obtain ⟨d, hd, hseq⟩ := List.mem_map.mp hdelivered
  have hown := hiso.own d hd
  -- what was delivered under `k` is neither the first frame nor one of those below `k`
  have hmem := hrun.genuine d hd
  rw [List.append_assoc, List.mem_append] at hmem
  rcases hmem with hmem | hmem
  · exact hab ((stale _ _ (keyed.mem_ascending.mp hmem)).symm.trans hown)
  · rcases List.mem_append.mp hmem with hmem | hmem
    · rw [List.mem_singleton] at hmem
      subst hmem
      exact hk (UInt64.toNat_inj.mp hseq)
    · obtain ⟨y, hy, rfl⟩ := List.mem_map.mp hmem
      exact absurd hseq (Nat.ne_of_lt (mem_arrivalsBelow hy).2.2)

end Leak

/-! ## The runs of the claim: one publisher, then another -/

/-- **Publisher isolation**: after frames of `a`, a clean switch to `b` isolates `b` in every run
that goes on with its frames; an unclean one fails to in some such run. -/
theorem publisher_isolation (cfg : RecoveryConfig) (streamId : UInt64) {a b : UInt64} (hab : a ≠ b)
    (as : List Arrival) (has : ∀ y ∈ as, y.frame.header.publisherId = a) (x : Arrival)
    (hx : x.frame.header.publisherId = b) (hpos : 0 < x.frame.seq) :
    let rx := ((StreamReceiver.new streamId .reliableOrdered cfg).feed as).receiver
    (SwitchClean rx x.frame.seq → ∀ bs, Numbers b (x :: bs) → Isolated b (rx.feed (x :: bs))) ∧
      ((∀ y ∈ x :: as, 1 ≤ y.frame.seq.toNat ∧ y.frame.seq.toNat ≤ 2 ^ 64 - 2) →
        ¬ SwitchClean rx x.frame.seq →
        ∃ bs, Numbers b (x :: bs) ∧ ¬ Isolated b (rx.feed (x :: bs))) := by
  intro rx
  have hforeign : Foreign b rx :=
    (Foreign.fresh cfg streamId b).run fun y hy heq => hab ((has y hy).symm.trans heq)
  refine ⟨fun clean bs numbers => hforeign.isolated clean numbers, fun range unclean => ?_⟩
  have hrange := List.forall_mem_cons.mp range
  have hheld : Reassembled a (as.map Arrival.frame) ((StreamReceiver.new streamId .reliableOrdered cfg).feed as) :=
    reassembled_run cfg streamId a has hrange.2
  have notFirst : x.frame.seq ≠ 1 := fun first => unclean (Or.inl first)
  by_cases hout : rx.recovery.outstandingRequests = ∅
  · obtain ⟨k, g, held, hne⟩ := exists_stale unclean hout
    refine ⟨_, hforeign.leaks_frame hab hheld.synced.keyed ?_ ?_ ?_ hx notFirst hpos hrange.1.2 held hne⟩
    · intro k g hg
      have habove := ((hheld.synced.buffered k).mp ⟨g, hg⟩).1
      have hfrontier := hheld.synced.frontier.pos
      rw [UInt64.lt_iff_toNat_lt] at habove ⊢
      have : (1 : UInt64).toNat = 1 := rfl
      omega
    · intro k g hg
      obtain ⟨-, f, hf, heq⟩ := (hheld.synced.buffered k).mp ⟨g, hg⟩
      obtain ⟨y, hy, rfl⟩ := List.mem_map.mp hf
      rw [← heq]
      exact (hrange.2 y hy).2
    · intro k g hg
      obtain ⟨y, hy, rfl⟩ := List.mem_map.mp (hheld.synced.genuine k g hg)
      exact has y hy
  · obtain ⟨id, req, held⟩ := OrderedMap.exists_get_of_ne_empty hout
    refine ⟨[], ⟨?_, ?_, 1, by decide, ?_⟩, hforeign.leaks_request ?_ hx notFirst held⟩
    · exact List.forall_mem_singleton.mpr hx
    · exact List.forall_mem_singleton.mpr hpos
    · exact List.forall_mem_singleton.mpr notFirst
    · exact ((Sole.fresh cfg streamId a).run has).numbered

/-- Frames 1 and 3 of one publisher, then 1 and 2 of the next. -/
theorem publisher_isolation_restart :
    Isolated 2 (((StreamReceiver.new 1 .reliableOrdered RecoveryConfig.default).feed
      (arrivalsOf 1 [1, 3])).receiver.feed (arrivalsOf 2 [1, 2])) := by
  refine (publisher_isolation RecoveryConfig.default 1 (a := 1) (b := 2) (by decide)
    (arrivalsOf 1 [1, 3]) (by decide) ⟨0, OwnedFrame.newData 1 1 0 2 []⟩ rfl (by decide)).1
    (Or.inl rfl) (arrivalsOf 2 [2]) ⟨by decide, by decide, 3, by decide, by decide⟩

/-- Frame 3 of publisher 1 stays buffered over the change of publisher, and frame 1 of
publisher 2 releases it. -/
theorem publisher_isolation_stale :
    ¬ Isolated 2 (((StreamReceiver.new 1 .reliableOrdered RecoveryConfig.default).feed
      (arrivalsOf 1 [1, 3])).receiver.feed (arrivalsOf 2 [2, 1])) := by
  intro h
  have hown : ¬ ∀ g ∈ (((StreamReceiver.new 1 .reliableOrdered RecoveryConfig.default).feed
      (arrivalsOf 1 [1, 3])).receiver.feed (arrivalsOf 2 [2, 1])).delivered, g.header.publisherId = 2 := by
    decide +kernel
  exact hown h.own

end Rtdp
