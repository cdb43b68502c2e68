import Rtdp.Core.Protocol.Frame
import Rtdp.Core.Sequence.Consecutive

/-!
# The replay ring (`core/src/buffers/ring.rs`)

Published DATA frames are retained in a fixed number of slots, a frame in slot
`sequence % capacity`, with the retained interval beside them. A ring carries
the bounds that keep its slots in range. `usize` is 64 bits wide.
-/

namespace Rtdp

structure BoundedRingBuffer where
  capacity : UInt64
  buffer : List (Option OwnedFrame)
  minSequence : Option UInt64
  maxSequence : Option UInt64
  pos : 0 < capacity
  length_eq : buffer.length = capacity.toNat

namespace BoundedRingBuffer

def new (capacity : UInt64) (pos : 0 < capacity) : BoundedRingBuffer where
  capacity := capacity
  buffer := List.replicate capacity.toNat none
  minSequence := none
  maxSequence := none
  pos := pos
  length_eq := List.length_replicate

def index (self : BoundedRingBuffer) (sequence : UInt64) : Nat := (sequence % self.capacity).toNat

/-- Store a published DATA frame in the ring buffer. -/
def push (self : BoundedRingBuffer) (frame : OwnedFrame) : BoundedRingBuffer :=
  let seq := frame.header.sequence
  let stored : BoundedRingBuffer :=
    { self with
      buffer := self.buffer.set (self.index seq) (some frame)
      length_eq := by rw [List.length_set]; exact self.length_eq }
  match self.minSequence with
  | none => { stored with minSequence := some seq, maxSequence := some seq }
  | some minS =>
    { stored with
      maxSequence := some seq
      -- the oldest retained sequence advances once the ring has wrapped around
      minSequence :=
        if seq > minS ∧ seq - minS ≥ self.capacity then some (seq - self.capacity + 1) else some minS }

/-- A single frame by sequence; `none` if expired or not yet published. -/
def get (self : BoundedRingBuffer) (sequence : UInt64) : Option OwnedFrame := do
  let minS ← self.minSequence
  let maxS ← self.maxSequence
  if sequence < minS ∨ sequence > maxS then none
  else
    match self.buffer[self.index sequence]? with
    | some (some frame) => if frame.header.sequence = sequence then some frame else none
    | _ => none

/-- The body of the loop of `get_range`. -/
def fetch (self : BoundedRingBuffer) (seq : UInt64) : Except (ErrorCode × UInt64 × UInt64) OwnedFrame :=
  match self.get seq with
  | some f => .ok f
  | none => .error (.replayUnavailable, seq, seq)

/-- The frames of `fromSeq..=toSeq`, or what of the range is not retained. -/
def getRange (self : BoundedRingBuffer) (fromSeq toSeq : UInt64) :
    Except (ErrorCode × UInt64 × UInt64) (List OwnedFrame) :=
  let minS := self.minSequence.getD 0
  let maxS := self.maxSequence.getD 0
  if fromSeq < minS then .error (.replayUnavailable, fromSeq, saturatingSub minS 1)
  else if toSeq > maxS then .error (.replayUnavailable, maxS + 1, toSeq)
  else (consecutive fromSeq (toSeq.toNat + 1 - fromSeq.toNat)).mapM self.fetch

def clear (self : BoundedRingBuffer) : BoundedRingBuffer :=
  { self with
    buffer := List.replicate self.capacity.toNat none
    minSequence := none
    maxSequence := none
    length_eq := List.length_replicate }

/-- Some slot of the ring is filled with the frame. -/
def Holds (ring : BoundedRingBuffer) (frame : OwnedFrame) : Prop := some frame ∈ ring.buffer

instance (ring : BoundedRingBuffer) (frame : OwnedFrame) : Decidable (ring.Holds frame) :=
  inferInstanceAs (Decidable (_ ∈ _))

variable {ring : BoundedRingBuffer} {f g : OwnedFrame} {s : UInt64}

theorem index_lt (ring : BoundedRingBuffer) (s : UInt64) : ring.index s < ring.buffer.length := by
  have hpos := UInt64.lt_iff_toNat_lt.mp ring.pos
  rw [UInt64.toNat_zero] at hpos
  rw [index, ring.length_eq, UInt64.toNat_mod]
  exact Nat.mod_lt _ hpos

theorem new_holds (capacity : UInt64) (pos : 0 < capacity) : ¬ (new capacity pos).Holds f := by
  intro h
  cases List.eq_of_mem_replicate h

theorem push_buffer : (ring.push f).buffer = ring.buffer.set (ring.index f.seq) (some f) := by
  unfold push
  dsimp only
  split <;> rfl

theorem push_capacity : (ring.push f).capacity = ring.capacity := by
  unfold push
  dsimp only
  split <;> rfl

/-- A push stores its frame, and nothing else. -/
theorem holds_of_push (h : (ring.push f).Holds g) : g = f ∨ ring.Holds g := by
  rw [Holds, push_buffer] at h
  rcases List.mem_or_eq_of_mem_set h with hold | hnew
  · exact Or.inr hold
  · exact Or.inl (Option.some.inj hnew)

/-! ## The retained interval -/

theorem capacity_pos (ring : BoundedRingBuffer) : 0 < ring.capacity.toNat :=
  UInt64.lt_iff_toNat_lt.mp ring.pos

theorem push_max : (ring.push f).maxSequence = some f.seq := by
  unfold push
  dsimp only
  split <;> rfl

theorem push_min_of_none (h : ring.minSequence = none) : (ring.push f).minSequence = some f.seq := by
  unfold push
  rw [h]

/-- The oldest retained sequence advances with a frame a whole round ahead of it. -/
theorem push_min_of_some {minS : UInt64} (h : ring.minSequence = some minS) :
    ∃ oldest, (ring.push f).minSequence = some oldest ∧
      oldest.toNat = if minS.toNat + ring.capacity.toNat ≤ f.seq.toNat then
        f.seq.toNat + 1 - ring.capacity.toNat else minS.toNat := by
  have hpos := ring.capacity_pos
  have hseq := f.seq.toNat_lt
  have hround : f.seq > minS ∧ f.seq - minS ≥ ring.capacity ↔
      minS.toNat + ring.capacity.toNat ≤ f.seq.toNat := by
    constructor
    · rintro ⟨hgt, hge⟩
      have hle := UInt64.le_iff_toNat_le.mp (UInt64.le_of_lt hgt)
      rw [ge_iff_le, UInt64.le_iff_toNat_le, UInt64.toNat_sub_of_le _ _ (UInt64.le_of_lt hgt)] at hge
      omega
    · intro hle
      have hlt : minS < f.seq := UInt64.lt_iff_toNat_lt.mpr (by omega)
      refine ⟨hlt, ?_⟩
      rw [ge_iff_le, UInt64.le_iff_toNat_le, UInt64.toNat_sub_of_le _ _ (UInt64.le_of_lt hlt)]
      omega
  refine ⟨if f.seq > minS ∧ f.seq - minS ≥ ring.capacity then f.seq - ring.capacity + 1 else minS, ?_, ?_⟩
  · unfold push
    rw [h]
    dsimp only
    split <;> rfl
  by_cases hfull : minS.toNat + ring.capacity.toNat ≤ f.seq.toNat
  · have hcap : ring.capacity ≤ f.seq := UInt64.le_iff_toNat_le.mpr (by omega)
    rw [if_pos (hround.mpr hfull), if_pos hfull, UInt64.toNat_add, UInt64.toNat_sub_of_le _ _ hcap,
      UInt64.toNat_one, Nat.mod_eq_of_lt (by omega)]
    omega
  · rw [if_neg (mt hround.mp hfull), if_neg hfull]

/-- The sequence lies in the retained interval. -/
def Covers (ring : BoundedRingBuffer) (s : UInt64) : Prop :=
  ∃ minS maxS, ring.minSequence = some minS ∧ ring.maxSequence = some maxS ∧ minS ≤ s ∧ s ≤ maxS

theorem Covers.bounds (h : ring.Covers s) : ring.minSequence.getD 0 ≤ s ∧ s ≤ ring.maxSequence.getD 0 := by
  obtain ⟨minS, maxS, hmin, hmax, hbounds⟩ := h
  rwa [hmin, hmax]

/-- A frame is found under its sequence, in the retained interval, and in its slot. -/
theorem get_iff : ring.get s = some f ↔
    ring.Covers s ∧ f.seq = s ∧ ring.buffer[ring.index s]? = some (some f) := by
  unfold get Covers
  cases ring.minSequence with
  | none => simp
  | some minS =>
    cases ring.maxSequence with
    | none => simp
    | some maxS =>
      simp only [Option.bind_eq_bind, Option.bind_some, Option.some.injEq, exists_and_left,
        exists_eq_left']
      by_cases hout : s < minS ∨ s > maxS
      · rw [if_pos hout]
        refine iff_of_false (by simp) fun h => ?_
        rcases hout with hlt | hgt
        · exact UInt64.not_le.mpr hlt h.1.1
        · exact UInt64.not_le.mpr hgt h.1.2
      · rw [if_neg hout]
        simp only [not_or, gt_iff_lt, UInt64.not_lt] at hout
        rw [and_iff_right hout]
        split
        · rename_i frame hslot
          rw [hslot]
          by_cases heq : frame.header.sequence = s
          · rw [if_pos heq]
            constructor
            · rintro h
              cases h
              exact ⟨heq, rfl⟩
            · rintro ⟨-, h⟩
              cases h
              rfl
          · rw [if_neg heq]
            refine iff_of_false (by simp) ?_
            rintro ⟨hseq, h⟩
            cases h
            exact heq hseq
        · rename_i hslot
          exact iff_of_false (by simp) fun h => hslot _ h.2

/-- Nothing is found outside the retained interval. -/
theorem get_outside (h : s < ring.minSequence.getD 0 ∨ ring.maxSequence.getD 0 < s) : ring.get s = none := by
  cases hget : ring.get s with
  | none => rfl
  | some f =>
    obtain ⟨hlow, hhigh⟩ := (get_iff.mp hget).1.bounds
    rcases h with hlt | hgt
    · exact absurd hlow (UInt64.not_le.mpr hlt)
    · exact absurd hhigh (UInt64.not_le.mpr hgt)

/-- What is found under a sequence carries it, and stands in its slot. -/
theorem get_slot (h : ring.get s = some f) :
    f.seq = s ∧ ring.buffer[ring.index s]? = some (some f) :=
  (get_iff.mp h).2

theorem holds_of_get (h : ring.get s = some f) : ring.Holds f :=
  List.mem_of_getElem? (get_slot h).2

/-- What is found under the sequence of the last push is its frame. -/
theorem get_push (h : (ring.push f).get f.seq = some g) : g = f := by
  obtain ⟨-, hslot⟩ := get_slot h
  rw [index, push_capacity, push_buffer, ← index, List.getElem?_set_self (ring.index_lt f.seq)] at hslot
  cases hslot
  rfl

/-- The frames of a range, one for each of its sequences. -/
structure InRange (ring : BoundedRingBuffer) (fromSeq toSeq : UInt64) (frames : List OwnedFrame) : Prop where
  seqs : frames.map OwnedFrame.seq = consecutive fromSeq (toSeq.toNat + 1 - fromSeq.toNat)
  found : ∀ f ∈ frames, ring.get f.seq = some f

theorem fetch_ok (h : ring.fetch s = .ok f) : ring.get s = some f := by
  unfold fetch at h
  split at h <;> cases h
  assumption

/-- The loop goes on as long as it finds the next frame. -/
theorem fetch_all {seqs : List UInt64} {frames : List OwnedFrame}
    (h : seqs.mapM ring.fetch = .ok frames) :
    frames.map OwnedFrame.seq = seqs ∧ ∀ f ∈ frames, ring.get f.seq = some f := by
  induction seqs generalizing frames with
  | nil =>
    cases h
    exact ⟨rfl, by simp⟩
  | cons s ss ih =>
    rw [List.mapM_cons] at h
    cases hfetch : ring.fetch s with
    | error e =>
      rw [hfetch] at h
      cases h
    | ok f =>
      cases hrest : ss.mapM ring.fetch with
      | error e =>
        rw [hfetch, hrest] at h
        cases h
      | ok fs =>
        rw [hfetch, hrest] at h
        cases h
        obtain ⟨hseqs, hfound⟩ := ih hrest
        have hget := fetch_ok hfetch
        have hseq := (get_slot hget).1
        refine ⟨by rw [List.map_cons, hseqs, hseq], List.forall_mem_cons.mpr ⟨?_, hfound⟩⟩
        rw [hseq]
        exact hget

/-- It stops at a frame that is not found. -/
theorem fetch_all_error {seqs : List UInt64} {e : ErrorCode × UInt64 × UInt64}
    (h : seqs.mapM ring.fetch = .error e) :
    ∃ s ∈ seqs, ring.get s = none ∧ e = (.replayUnavailable, s, s) := by
  induction seqs with
  | nil => cases h
  | cons s ss ih =>
    rw [List.mapM_cons] at h
    cases hget : ring.get s with
    | none =>
      have hfetch : ring.fetch s = .error (.replayUnavailable, s, s) := by rw [fetch, hget]
      rw [hfetch] at h
      cases h
      exact ⟨s, List.mem_cons_self, hget, rfl⟩
    | some f =>
      have hfetch : ring.fetch s = .ok f := by rw [fetch, hget]
      cases hrest : ss.mapM ring.fetch with
      | ok fs =>
        rw [hfetch, hrest] at h
        cases h
      | error e' =>
        rw [hfetch, hrest] at h
        cases h
        obtain ⟨k, hk, hnone, heq⟩ := ih hrest
        exact ⟨k, List.mem_cons_of_mem _ hk, hnone, heq⟩

/-- The branches of `get_range`. -/
inductive RangeCase (ring : BoundedRingBuffer) (a b : UInt64) :
    Except (ErrorCode × UInt64 × UInt64) (List OwnedFrame) → Prop where
  | expired (below : a < ring.minSequence.getD 0) :
      RangeCase ring a b (.error (.replayUnavailable, a, ring.minSequence.getD 0 - 1))
  | unpublished (within : ring.minSequence.getD 0 ≤ a) (above : ring.maxSequence.getD 0 < b) :
      RangeCase ring a b (.error (.replayUnavailable, ring.maxSequence.getD 0 + 1, b))
  | hole (within : ring.minSequence.getD 0 ≤ a) (upTo : b ≤ ring.maxSequence.getD 0) {s : UInt64}
      (mem : s ∈ consecutive a (b.toNat + 1 - a.toNat)) (missing : ring.get s = none) :
      RangeCase ring a b (.error (.replayUnavailable, s, s))
  | retained (within : ring.minSequence.getD 0 ≤ a) (upTo : b ≤ ring.maxSequence.getD 0)
      {frames : List OwnedFrame} (range : ring.InRange a b frames) : RangeCase ring a b (.ok frames)

theorem getRange_cases (ring : BoundedRingBuffer) (a b : UInt64) :
    RangeCase ring a b (ring.getRange a b) := by
  have hrange : ∀ result, ring.getRange a b = result → RangeCase ring a b result := by
    intro result h
    unfold getRange at h
    dsimp only at h
    split at h
    · rename_i below
      have hpos : ¬ ring.minSequence.getD 0 < 1 := by
        rw [UInt64.lt_iff_toNat_lt] at below ⊢
        rw [UInt64.toNat_one]
        omega
      rw [← h, saturatingSub, if_neg hpos]
      exact .expired below
    · rename_i within
      have within := UInt64.not_lt.mp within
      split at h
      · rename_i above
        rw [← h]
        exact .unpublished within above
      · rename_i upTo
        have upTo := UInt64.not_lt.mp upTo
        cases result with
        | error e =>
          obtain ⟨s, hs, hnone, rfl⟩ := fetch_all_error h
          exact .hole within upTo hs hnone
        | ok frames =>
          obtain ⟨hseqs, hfound⟩ := fetch_all h
          exact .retained within upTo ⟨hseqs, hfound⟩
  exact hrange _ rfl

theorem getRange_ok {a b : UInt64} {frames : List OwnedFrame} (h : ring.getRange a b = .ok frames) :
    ring.InRange a b frames := by
  have hcase := ring.getRange_cases a b
  rw [h] at hcase
  cases hcase with
  | retained within upTo range => exact range

namespace InRange

variable {a b : UInt64} {frames : List OwnedFrame}

theorem range (h : ring.InRange a b frames) :
    (frames.map fun f => f.seq.toNat) = List.range' a.toNat (b.toNat + 1 - a.toNat) := by
  have hseqs := congrArg (List.map UInt64.toNat) h.seqs
  rwa [List.map_map, consecutive_range] at hseqs

theorem nodup (h : ring.InRange a b frames) : (frames.map OwnedFrame.seq).Nodup := by
  rw [h.seqs]
  apply List.Nodup.of_map UInt64.toNat
  rw [consecutive_range]
  exact List.nodup_range'

/-- A sequence of an answered range is retained. -/
theorem exists_get {s : UInt64} (h : ring.InRange a b frames) (ha : a ≤ s) (hb : s ≤ b) :
    ∃ f, ring.get s = some f := by
  have hmem := mem_consecutive_range ha hb
  rw [← h.seqs] at hmem
  obtain ⟨f, hf, rfl⟩ := List.mem_map.mp hmem
  exact ⟨f, h.found f hf⟩

/-- A retained frame of the range is among them. -/
theorem mem (h : ring.InRange a b frames) (retained : ring.get f.seq = some f) (ha : a ≤ f.seq)
    (hb : f.seq ≤ b) : f ∈ frames := by
  have hmem := mem_consecutive_range ha hb
  rw [← h.seqs] at hmem
  obtain ⟨g, hg, heq⟩ := List.mem_map.mp hmem
  have hfound := h.found g hg
  rw [heq, retained] at hfound
  cases hfound
  exact hg

end InRange

/-- A range is answered exactly if each of its frames is found. -/
theorem getRange_ok_iff (ring : BoundedRingBuffer) {a b : UInt64} (hle : a ≤ b) :
    (∃ frames, ring.getRange a b = .ok frames) ↔ ∀ s, a ≤ s → s ≤ b → ∃ f, ring.get s = some f := by
  constructor
  · rintro ⟨frames, hframes⟩ s ha hb
    exact (getRange_ok hframes).exists_get ha hb
  · intro found
    have hcase := ring.getRange_cases a b
    generalize ring.getRange a b = result at hcase
    cases hcase with
    | expired below =>
      obtain ⟨f, hf⟩ := found a (UInt64.le_refl a) hle
      rw [get_outside (Or.inl below)] at hf
      cases hf
    | unpublished within above =>
      obtain ⟨f, hf⟩ := found b hle (UInt64.le_refl b)
      rw [get_outside (Or.inr above)] at hf
      cases hf
    | hole within upTo mem missing =>
      obtain ⟨ha, hb⟩ := of_mem_consecutive_range mem
      obtain ⟨f, hf⟩ := found _ ha hb
      rw [missing] at hf
      cases hf
    | retained within upTo range => exact ⟨_, rfl⟩

end BoundedRingBuffer

end Rtdp
