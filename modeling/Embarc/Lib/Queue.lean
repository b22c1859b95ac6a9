/-
Bounded queues.

A queue holds its items in the order they came, never more than its capacity.  Adding to a
full queue and removing from an empty one are refused.  Many items at once are added one
after the other until one is refused, so the longest prefix that fits is taken; removing
many is the same.
-/
import Mathlib.Data.List.Basic

structure BoundedQueue (α : Type) (cap : Nat) where
  items : List α
  bounded : items.length ≤ cap

namespace BoundedQueue

variable {α : Type} {cap : Nat} {q : BoundedQueue α cap}

@[ext] theorem ext {q' : BoundedQueue α cap} (h : q.items = q'.items) : q = q' := by
  cases q
  cases q'
  simpa using h

def empty (α : Type) (cap : Nat) : BoundedQueue α cap := ⟨[], Nat.zero_le _⟩

def isFull (q : BoundedQueue α cap) : Prop := q.items.length = cap

def isEmpty (q : BoundedQueue α cap) : Prop := q.items = []

instance (q : BoundedQueue α cap) : Decidable q.isFull := inferInstanceAs (Decidable (_ = _))

instance (q : BoundedQueue α cap) : Decidable q.isEmpty :=
  match h : q.items with
  | [] => isTrue h
  | _ :: _ => isFalse fun h' => by simp [isEmpty, h] at h'

/-- Add as many of the items, in order, as there is room for. -/
def push (q : BoundedQueue α cap) (xs : List α) : BoundedQueue α cap where
  items := q.items ++ xs.take (cap - q.items.length)
  bounded := by
    have := q.bounded
    simp only [List.length_append, List.length_take]
    omega

def room (q : BoundedQueue α cap) (xs : List α) : Nat := min (cap - q.items.length) xs.length

/-- Remove up to `n` items from the front. -/
def pop (q : BoundedQueue α cap) (n : Nat) : BoundedQueue α cap where
  items := q.items.drop n
  bounded := by
    have := q.bounded
    simp only [List.length_drop]
    omega

/-! ### One at a time -/

theorem push_nil (q : BoundedQueue α cap) : q.push [] = q := by
  ext1
  simp [push]

theorem push_of_isFull (h : q.isFull) (xs : List α) : q.push xs = q := by
  ext1
  simp [push, show q.items.length = cap from h]

theorem room_of_isFull (h : q.isFull) (xs : List α) : q.room xs = 0 := by
  simp [room, show q.items.length = cap from h]

theorem lt_of_not_isFull (h : ¬ q.isFull) : q.items.length < cap :=
  Nat.lt_of_le_of_ne q.bounded h

theorem push_singleton (h : ¬ q.isFull) (x : α) : (q.push [x]).items = q.items ++ [x] := by
  have hlt := lt_of_not_isFull h
  simp only [push]
  rw [List.take_of_length_le (by simp only [List.length_singleton]; omega)]

theorem push_cons (h : ¬ q.isFull) (x : α) (xs : List α) :
    q.push (x :: xs) = (q.push [x]).push xs := by
  have hlt := lt_of_not_isFull h
  ext1
  show q.items ++ (x :: xs).take (cap - q.items.length) =
    (q.push [x]).items ++ xs.take (cap - (q.push [x]).items.length)
  rw [push_singleton h, List.length_append, List.length_singleton, List.append_assoc]
  have hsub : cap - q.items.length = cap - (q.items.length + 1) + 1 := by omega
  rw [hsub, List.take_succ_cons]
  rfl

theorem room_cons (h : ¬ q.isFull) (x : α) (xs : List α) :
    q.room (x :: xs) = (q.push [x]).room xs + 1 := by
  have hlt := lt_of_not_isFull h
  unfold room
  rw [push_singleton h, List.length_append, List.length_singleton, List.length_cons]
  omega

theorem pop_zero (q : BoundedQueue α cap) : q.pop 0 = q := by
  ext1
  simp [pop]

theorem pop_of_isEmpty (h : q.isEmpty) (n : Nat) : q.pop n = q := by
  ext1
  simp [pop, show q.items = [] from h]

theorem pop_succ (q : BoundedQueue α cap) (n : Nat) : q.pop (n + 1) = (q.pop 1).pop n := by
  ext1
  simp [pop]

end BoundedQueue
