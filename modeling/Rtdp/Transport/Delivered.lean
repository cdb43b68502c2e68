import Rtdp.Lib.Channel
import Rtdp.Transport.Subscriber

/-!
# What the application receives

A turn of the worker forwards any number of frames, replayed ones in batches,
and passes them to the channel one by one, while the application receives. The
channel is crossbeam's, a parameter with what is known of it. In every mode,
and whatever the worker meets, the application receives frames that were
forwarded, in their order and none twice. Frames are lost on the way to it
exactly where a `try_send` meets a full channel.
-/

namespace Rtdp

variable {κ : Type} {crossbeam : Channel OwnedFrame κ} {capacity : ℕ} {entries : κ → List OwnedFrame}

/-- The worker and the application with the channel between them. -/
structure Relay (κ : Type) where
  worker : Subscriber
  /-- What the worker's turn has still to pass to `try_send`. -/
  pending : List OwnedFrame
  channel : κ
  received : List OwnedFrame

/-- The worker handles an event, or passes on a frame, or the application receives. -/
inductive RelayStep where
  | worker (event : Event)
  | send
  | receive

namespace Relay

variable {σ : Relay κ}

/-- `fresh` is the channel that `bounded` makes. -/
def new (streamId : UInt64) (mode : DeliveryMode) (cfg : RecoveryConfig) (fresh : κ) : Relay κ where
  worker := Subscriber.new streamId mode cfg
  pending := []
  channel := fresh
  received := []

/-- The next event is handled once all frames of the last one have been passed on. -/
def step (crossbeam : Channel OwnedFrame κ) (self : Relay κ) : RelayStep → Relay κ
  | .worker event =>
    match self.pending with
    | [] =>
      let worker := self.worker.step event
      { self with worker, pending := worker.forwarded.drop self.worker.forwarded.length }
    | _ :: _ => self
  | .send =>
    match self.pending with
    | [] => self
    | frame :: rest => { self with pending := rest, channel := (crossbeam.trySend self.channel frame).2 }
  | .receive =>
    let (frame, channel) := crossbeam.tryRecv self.channel
    { self with channel, received := self.received ++ frame.toList }

/-- A frame is passed on only while the channel has room. -/
def HasRoom (capacity : ℕ) (entries : κ → List OwnedFrame) (self : Relay κ) : RelayStep → Prop
  | .send => self.pending = [] ∨ (entries self.channel).length < capacity
  | _ => True

instance (capacity : ℕ) (entries : κ → List OwnedFrame) (σ : Relay κ) (s : RelayStep) :
    Decidable (σ.HasRoom capacity entries s) :=
  match s with
  | .send => inferInstanceAs (Decidable (_ ∨ _))
  | .worker _ => inferInstanceAs (Decidable True)
  | .receive => inferInstanceAs (Decidable True)

/-- All that the application has received, or will receive unless it is lost, oldest first. -/
def kept (entries : κ → List OwnedFrame) (self : Relay κ) : List OwnedFrame :=
  self.received ++ entries self.channel ++ self.pending

/-- What one step does: it keeps all there is, and what is forwarded besides, or it loses a frame to a
full channel. -/
inductive RelayKeeps (capacity : ℕ) (entries : κ → List OwnedFrame) (σ : Relay κ) (s : RelayStep)
    (after : Relay κ) : Prop where
  | all (room : σ.HasRoom capacity entries s) (batch : List OwnedFrame)
      (kept : after.kept entries = σ.kept entries ++ batch)
      (forwarded : after.worker.forwarded = σ.worker.forwarded ++ batch)
  | lost (full : ¬ σ.HasRoom capacity entries s) (frame : OwnedFrame) (rest : List OwnedFrame)
      (before : σ.kept entries = σ.received ++ entries σ.channel ++ frame :: rest)
      (kept : after.kept entries = σ.received ++ entries σ.channel ++ rest)
      (forwarded : after.worker.forwarded = σ.worker.forwarded)

section

variable (fifo : crossbeam.Fifo capacity entries)

include fifo

theorem step_keeps (σ : Relay κ) (s : RelayStep) :
    RelayKeeps capacity entries σ s (σ.step crossbeam s) := by
  cases s with
  | worker e =>
    cases hpending : σ.pending with
    | nil =>
      obtain ⟨batch, hbatch⟩ := σ.worker.forwarded_grows e
      refine .all trivial batch ?_ ?_
      · simp only [kept, step, hpending, hbatch, List.drop_left, List.append_nil]
      · simp only [step, hpending, hbatch]
    | cons f fs =>
      refine .all trivial [] ?_ ?_
      · simp only [kept, step, hpending, List.append_nil]
      · simp only [step, hpending, List.append_nil]
  | send =>
    cases hpending : σ.pending with
    | nil =>
      refine .all (Or.inl hpending) [] ?_ ?_
      · simp only [kept, step, hpending, List.append_nil]
      · simp only [step, hpending, List.append_nil]
    | cons f fs =>
      rcases (fifo.length_le σ.channel).eq_or_lt with full | room
      · refine .lost ?_ f fs ?_ ?_ ?_
        · rintro (hnil | room)
          · rw [hpending] at hnil
            cases hnil
          · exact room.ne full
        · rw [kept, hpending]
        · simp only [kept, step, hpending, fifo.trySend_full full]
        · simp only [step, hpending]
      · refine .all (Or.inr room) [] ?_ ?_
        · simp only [kept, step, hpending, fifo.trySend_room room, List.append_assoc,
            List.singleton_append, List.append_nil]
        · simp only [step, hpending, List.append_nil]
  | receive =>
    refine .all trivial [] ?_ (List.append_nil _).symm
    show σ.received ++ (crossbeam.tryRecv σ.channel).1.toList ++
      entries (crossbeam.tryRecv σ.channel).2 ++ σ.pending = _
    rw [List.append_assoc σ.received, fifo.tryRecv_append, List.append_nil]
    rfl

/-- **Step**: nothing comes up that was not forwarded, and nothing out of order. -/
theorem kept_step (h : (σ.kept entries).Sublist σ.worker.forwarded) (s : RelayStep) :
    ((σ.step crossbeam s).kept entries).Sublist (σ.step crossbeam s).worker.forwarded := by
  cases step_keeps fifo σ s with
  | all room batch kept forwarded =>
    rw [kept, forwarded]
    exact h.append (List.Sublist.refl batch)
  | lost full frame rest before kept forwarded =>
    rw [kept, forwarded]
    rw [before] at h
    exact ((List.Sublist.refl _).append (List.sublist_cons_self frame rest)).trans h

/-- A frame that is lost does not come back. -/
theorem all_of_step (h : (σ.kept entries).Sublist σ.worker.forwarded) {s : RelayStep}
    (after : (σ.step crossbeam s).kept entries = (σ.step crossbeam s).worker.forwarded) :
    σ.kept entries = σ.worker.forwarded ∧ σ.HasRoom capacity entries s := by
  cases step_keeps fifo σ s with
  | all room batch kept forwarded =>
    rw [kept, forwarded] at after
    exact ⟨List.append_cancel_right after, room⟩
  | lost full frame rest before kept forwarded =>
    have hlen := h.length_le
    rw [before, ← forwarded, ← after, kept] at hlen
    simp at hlen

theorem all_step_iff (h : σ.kept entries = σ.worker.forwarded) (s : RelayStep) :
    (σ.step crossbeam s).kept entries = (σ.step crossbeam s).worker.forwarded ↔
      σ.HasRoom capacity entries s := by
  constructor
  · exact fun after => (all_of_step fifo (h ▸ List.Sublist.refl _) after).2
  · intro room
    cases step_keeps fifo σ s with
    | all room batch kept forwarded => rw [kept, forwarded, h]
    | lost full frame rest before kept forwarded => exact absurd room full

end

end Relay

/-- **The application receives in order what was forwarded**: what it has received, what is in the channel
and what is about to be sent are a part of all that was forwarded, each frame at most as often. They are
all of it exactly if no frame was sent to a full channel. -/
theorem application_receives (fifo : crossbeam.Fifo capacity entries) {fresh : κ} (empty : entries fresh = [])
    (streamId : UInt64) (mode : DeliveryMode) (cfg : RecoveryConfig) (steps : List RelayStep) :
    let σ := Runs.run (Relay.step crossbeam) (Relay.new streamId mode cfg fresh) steps
    (σ.received ++ entries σ.channel ++ σ.pending).Sublist σ.worker.forwarded ∧
      (σ.received ++ entries σ.channel ++ σ.pending = σ.worker.forwarded ↔
        Runs.Each (Relay.step crossbeam) (Relay.HasRoom capacity entries)
          (Relay.new streamId mode cfg fresh) steps) := by
  have start : (Relay.new streamId mode cfg fresh).kept entries =
      (Relay.new streamId mode cfg fresh).worker.forwarded := by
    show [] ++ entries fresh ++ [] = []
    rw [empty]
    rfl
  refine ⟨Runs.always (fun σ : Relay κ => (σ.kept entries).Sublist σ.worker.forwarded)
    (fun _ s h => Relay.kept_step fifo h s) ?_, ?_⟩
  · rw [start]
  · exact @Runs.iff_each _ _ (Relay.step crossbeam) (Relay.HasRoom capacity entries) _ steps (fun _ _ => True)
      (fun σ => σ.kept entries = σ.worker.forwarded)
      (fun σ => (σ.kept entries).Sublist σ.worker.forwarded) (fun σ => σ.kept entries = σ.worker.forwarded)
      (fun _ s h _ => Relay.kept_step fifo h s) (fun _ _ h _ after => (Relay.all_of_step fifo h after).1)
      (fun _ h => h) (fun _ s _ h _ => Relay.all_step_iff fifo h s)
      (fun _ s _ h _ room => (Relay.all_step_iff fifo h s).mpr room)
      (by rw [start]) start (Runs.each_of_forall fun _ _ => trivial)

/-- A replay that completes forwards frames 2 and 3 in one turn. -/
def batchOfTwo : List RelayStep :=
  (dataEvents 9 [1]).map .worker ++ [.send, .receive] ++ (dataEvents 9 [3]).map .worker ++
    [.worker (replayOf 1 9 2), .send, .send, .receive]

/-- A fresh relay over a channel of this capacity. -/
def relayOf (capacity : ℕ) : Relay (BoundedChannel OwnedFrame capacity) :=
  .new 1 .reliableOrdered RecoveryConfig.default (.bounded capacity)

/-- A channel of two has room for both of them, a channel of one has not. -/
theorem application_receives_batch :
    let two := Runs.run (Relay.step BoundedChannel.channel) (relayOf 2) batchOfTwo
    let one := Runs.run (Relay.step BoundedChannel.channel) (relayOf 1) batchOfTwo
    two.received ++ two.channel.entries ++ two.pending = two.worker.forwarded ∧
      (one.received ++ one.channel.entries ++ one.pending).Sublist one.worker.forwarded ∧
      ¬ Runs.Each (Relay.step BoundedChannel.channel) (Relay.HasRoom 1 BoundedChannel.entries) (relayOf 1)
        batchOfTwo := by
  have receives (capacity : ℕ) (pos : 0 < capacity) :=
    application_receives (BoundedChannel.fifo pos) BoundedChannel.bounded_entries 1 .reliableOrdered
      RecoveryConfig.default batchOfTwo
  refine ⟨(receives 2 Nat.two_pos).2.mpr (by decide +kernel), (receives 1 Nat.one_pos).1, ?_⟩
  decide +kernel

end Rtdp
