import Mathlib.Data.List.Basic
import Mathlib.Tactic

/-!
# Bounded channels

A first-in first-out queue that holds at most `capacity` entries. A sender
that does not wait is refused exactly when the queue is full; a receiver takes
the oldest entry. `Channel.Fifo` says this of any two operations and the
entries they keep; `BoundedChannel` keeps a list.
-/

/-- What a sender and a receiver that do not wait can do to a channel of state `κ`. -/
structure Channel (α κ : Type) where
  /-- Whether the entry was taken, and the channel afterwards. -/
  trySend : κ → α → Bool × κ
  /-- The entry received, if there was one, and the channel afterwards. -/
  tryRecv : κ → Option α × κ

namespace Channel

variable {α κ : Type}

/-- The channel keeps `entries`, oldest first. -/
structure Fifo (channel : Channel α κ) (capacity : ℕ) (entries : κ → List α) : Prop where
  /-- A channel without room of its own can only hand an entry to a receiver that waits for it. -/
  capacity_pos : 0 < capacity
  length_le (c : κ) : (entries c).length ≤ capacity
  refused (c : κ) (x : α) : (channel.trySend c x).1 = false ↔ (entries c).length = capacity
  trySend_refused (c : κ) (x : α) :
    (channel.trySend c x).1 = false → entries (channel.trySend c x).2 = entries c
  trySend_taken (c : κ) (x : α) :
    (channel.trySend c x).1 = true → entries (channel.trySend c x).2 = entries c ++ [x]
  tryRecv_head (c : κ) : (channel.tryRecv c).1 = (entries c).head?
  tryRecv_tail (c : κ) : entries (channel.tryRecv c).2 = (entries c).tail

namespace Fifo

variable {channel : Channel α κ} {capacity : ℕ} {entries : κ → List α} {c : κ} {x : α}

theorem trySend_full (fifo : channel.Fifo capacity entries) (full : (entries c).length = capacity) :
    entries (channel.trySend c x).2 = entries c :=
  fifo.trySend_refused c x ((fifo.refused c x).mpr full)

theorem trySend_room (fifo : channel.Fifo capacity entries) (room : (entries c).length < capacity) :
    entries (channel.trySend c x).2 = entries c ++ [x] := by
  apply fifo.trySend_taken
  rw [← Bool.not_eq_false, fifo.refused]
  exact room.ne

/-- Nothing is lost between the channel and its receiver. -/
theorem tryRecv_append (fifo : channel.Fifo capacity entries) :
    (channel.tryRecv c).1.toList ++ entries (channel.tryRecv c).2 = entries c := by
  rw [fifo.tryRecv_head, fifo.tryRecv_tail]
  cases entries c <;> rfl

end Fifo

end Channel

structure BoundedChannel (α : Type) (capacity : ℕ) where
  entries : List α
  length_le : entries.length ≤ capacity

namespace BoundedChannel

variable {α : Type} {capacity : ℕ} {c : BoundedChannel α capacity} {x : α}

/-- A channel nothing has been sent to. -/
def bounded (capacity : ℕ) : BoundedChannel α capacity := ⟨[], Nat.zero_le _⟩

def IsFull (c : BoundedChannel α capacity) : Prop := c.entries.length = capacity

instance instDecidableIsFull (c : BoundedChannel α capacity) : Decidable c.IsFull :=
  inferInstanceAs (Decidable (_ = _))

/-- Whether the entry was taken, and the channel afterwards. -/
def trySend (c : BoundedChannel α capacity) (x : α) : Bool × BoundedChannel α capacity :=
  if h : c.IsFull then (false, c)
  else
    (true, ⟨c.entries ++ [x], by
      have hle := c.length_le
      rw [IsFull] at h
      rw [List.length_append, List.length_singleton]
      omega⟩)

/-- The oldest entry, if there is one, and the channel afterwards. -/
def tryRecv (c : BoundedChannel α capacity) : Option α × BoundedChannel α capacity :=
  (c.entries.head?, ⟨c.entries.tail, by
    have hle := c.length_le
    rw [List.length_tail]
    omega⟩)

@[simp] theorem bounded_entries : (bounded capacity : BoundedChannel α capacity).entries = [] := rfl

theorem trySend_full (h : c.IsFull) : c.trySend x = (false, c) := dif_pos h

theorem trySend_entries (h : ¬ c.IsFull) : (c.trySend x).2.entries = c.entries ++ [x] := by
  rw [trySend, dif_neg h]

theorem trySend_refused : (c.trySend x).1 = false ↔ c.IsFull := by
  by_cases full : c.IsFull
  · rw [trySend_full full]
    exact iff_of_true rfl full
  · rw [trySend, dif_neg full]
    exact iff_of_false Bool.noConfusion full

/-- Nothing is lost between the channel and its receiver. -/
theorem tryRecv_append (c : BoundedChannel α capacity) :
    c.tryRecv.1.toList ++ c.tryRecv.2.entries = c.entries := by
  show c.entries.head?.toList ++ c.entries.tail = c.entries
  cases c.entries <;> rfl

theorem tryRecv_room (h : 0 < capacity) : ¬ c.tryRecv.2.IsFull := by
  have hle := c.length_le
  simp only [IsFull, tryRecv, List.length_tail]
  omega

def channel : Channel α (BoundedChannel α capacity) where
  trySend := trySend
  tryRecv := tryRecv

theorem fifo (pos : 0 < capacity) :
    (channel : Channel α (BoundedChannel α capacity)).Fifo capacity entries where
  capacity_pos := pos
  length_le := length_le
  refused _ _ := trySend_refused
  trySend_refused _ _ refused := congrArg (entries ∘ Prod.snd) (trySend_full (trySend_refused.mp refused))
  trySend_taken _ _ taken := by
    refine trySend_entries fun full => ?_
    rw [← trySend_refused] at full
    exact Bool.noConfusion (taken.symm.trans full)
  tryRecv_head _ := rfl
  tryRecv_tail _ := rfl

end BoundedChannel
