import Mathlib.Data.Nat.Notation

/-!
# Bounded queues

A queue of a fixed capacity, as `ArrayQueue` of the `crossbeam` crate: a push to a full
queue fails and leaves it as it was.
-/

namespace VecnoIndexer.Collections

universe u

/-- The elements queued, the oldest first. -/
structure ArrayQueue (α : Type u) where
  capacity : ℕ
  items : List α
  bounded : items.length ≤ capacity

namespace ArrayQueue

variable {α : Type u}

def new (capacity : ℕ) : ArrayQueue α where
  capacity
  items := []
  bounded := Nat.zero_le capacity

def IsFull (queue : ArrayQueue α) : Prop :=
  queue.items.length = queue.capacity

instance (queue : ArrayQueue α) : Decidable queue.IsFull :=
  inferInstanceAs (Decidable (_ = _))

/-- `push`. It fails if the queue is full. -/
def push (queue : ArrayQueue α) (item : α) : Option (ArrayQueue α) :=
  if full : queue.IsFull then none
  else
    some {
      capacity := queue.capacity
      items := queue.items ++ [item]
      bounded := by
        rw [List.length_append]
        exact Nat.lt_of_le_of_ne queue.bounded full }

/-- `pop`, with the queue it leaves. -/
def pop (queue : ArrayQueue α) : Option α × ArrayQueue α :=
  (queue.items.head?, {
    capacity := queue.capacity
    items := queue.items.tail
    bounded := by
      rw [List.length_tail]
      exact Nat.le_trans (Nat.sub_le _ _) queue.bounded })

theorem push_eq_none_iff {queue : ArrayQueue α} {item : α} :
    queue.push item = none ↔ queue.IsFull := by
  simp [push]

theorem push_eq_some {queue after : ArrayQueue α} {item : α}
    (pushed : queue.push item = some after) :
    after.capacity = queue.capacity ∧ after.items = queue.items ++ [item] := by
  unfold push at pushed
  split at pushed
  · contradiction
  · cases pushed
    exact ⟨rfl, rfl⟩

/-- What is popped was on the queue. -/
theorem mem_of_pop {queue : ArrayQueue α} {item : α} (popped : queue.pop.1 = some item) :
    item ∈ queue.items :=
  List.mem_of_head? popped

theorem not_isFull_pop {queue : ArrayQueue α} (room : ¬ queue.IsFull) : ¬ queue.pop.2.IsFull := by
  have bounded := queue.bounded
  simp only [IsFull, pop, List.length_tail] at room ⊢
  omega

/-- A queue with room is not full. -/
theorem not_isFull_of_lt {queue : ArrayQueue α} (room : queue.items.length < queue.capacity) :
    ¬ queue.IsFull :=
  Nat.ne_of_lt room

end ArrayQueue

end VecnoIndexer.Collections
