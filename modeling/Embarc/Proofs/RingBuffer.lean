/-
A ring buffer is a bounded queue.

The queue's items lie in the buffer one after the other from the read index on, around its
end, and the write index points behind the last of them.  Both indices matter only modulo
the size, so that they are reduced late changes nothing.  The counter says how much room
is left, which is what tells a full buffer from an empty one.
-/
import Mathlib.Data.Nat.ModEq
import Embarc.Lib.Queue
import Embarc.Lib.Run
import Embarc.Middleware.RingBuffer

namespace Embarc

open BoundedQueue

/-! ### Positions around the end -/

theorem mod_ne_of_lt {base n i j : Nat} (hij : i < j) (hj : j < n) :
    (base + i) % n ≠ (base + j) % n := by
  intro h
  have hmod : Nat.ModEq n i j := Nat.ModEq.add_left_cancel' base h
  have heq := Nat.ModEq.eq_of_lt_of_lt hmod (by omega) hj
  omega

/-! ### The queue a ring buffer holds -/

/-- The ring buffer holds the items of the queue, in order. -/
structure RingBuffer.Holds {n : Nat} (rb : RingBuffer) (q : BoundedQueue Byte n) : Prop where
  size : rb.size = n
  pos : 0 < n
  fits : n < 2 ^ 32
  count : rb.avail + q.items.length = n
  next : rb.wridx % n = (rb.rdidx + q.items.length) % n
  cells : ∀ i (h : i < q.items.length), rb.buf ((rb.rdidx + i) % n) = q.items[i]

/-- What lies in the buffer, from the read index on. -/
def RingBuffer.items (rb : RingBuffer) : List Byte :=
  (List.range (rb.size - rb.avail)).map fun i => rb.buf ((rb.rdidx + i) % rb.size)

def rbItems (rb : Option RingBuffer) : List Byte := rb.elim [] RingBuffer.items

namespace RingBuffer.Holds

variable {n : Nat} {rb : RingBuffer} {q : BoundedQueue Byte n}

variable (h : rb.Holds q)
include h

theorem items_eq : rb.items = q.items := by
  have hlen : rb.size - rb.avail = q.items.length := by
    have hcount := h.count
    have hsize := h.size
    omega
  apply List.ext_getElem
  · simp [RingBuffer.items, hlen]
  · intro i _ hi
    simp only [RingBuffer.items, List.getElem_map, List.getElem_range, h.size]
    exact h.cells i hi

theorem isfull_eq : rbIsfull (some rb) = if q.isFull then 1 else 0 := by
  have hcount := h.count
  have hiff : rb.avail = 0 ↔ q.isFull := by
    unfold isFull
    omega
  simp only [rbIsfull, hiff]

theorem isempty_eq : rbIsempty (some rb) = if q.isEmpty then 1 else 0 := by
  have hcount := h.count
  have hsize := h.size
  have hiff : rb.avail = rb.size ↔ q.isEmpty := by
    unfold isEmpty
    rw [← List.length_eq_zero_iff]
    omega
  simp only [rbIsempty, hiff]

theorem put (hfull : ¬ q.isFull) (item : Byte) : (rb.put item).Holds (q.push [item]) := by
  have hlt := lt_of_not_isFull hfull
  have hitems := push_singleton hfull item
  have hwr : rb.wridx % n < n := Nat.mod_lt _ h.pos
  have hfits := h.fits
  have hcount := h.count
  refine ⟨h.size, h.pos, h.fits, ?_, ?_, ?_⟩
  · rw [hitems, List.length_append, List.length_singleton]
    show rb.avail - 1 + _ = n
    omega
  · rw [hitems, List.length_append, List.length_singleton]
    show u32 (rb.wridx % rb.size + 1) % n = (rb.rdidx + (q.items.length + 1)) % n
    rw [h.size, u32_of_lt (by omega), h.next, Nat.mod_add_mod, Nat.add_assoc]
  · intro i hi
    show Function.update rb.buf (rb.wridx % rb.size) item ((rb.rdidx + i) % n) = _
    simp only [hitems, List.length_append, List.length_singleton] at hi
    rw [h.size, h.next]
    by_cases hlast : i = q.items.length
    · subst hlast
      simp [hitems]
    · have hold : i < q.items.length := by omega
      rw [Function.update_of_ne (mod_ne_of_lt hold hlt), h.cells i hold]
      simp only [hitems]
      rw [List.getElem_append_left hold]

theorem head {x : Byte} {xs : List Byte} (hq : q.items = x :: xs) : rb.head = x := by
  have hlen : 0 < q.items.length := by simp [hq]
  have hcell := h.cells 0 hlen
  rw [RingBuffer.head, h.size]
  simpa [hq] using hcell

theorem skip (hempty : ¬ q.isEmpty) : rb.skip.Holds (q.pop 1) := by
  have hlen : 0 < q.items.length := List.length_pos_iff.mpr hempty
  have hrd : rb.rdidx % n < n := Nat.mod_lt _ h.pos
  have hfits := h.fits
  have hcount := h.count
  have hidx : u32 (rb.rdidx % rb.size + 1) = rb.rdidx % n + 1 := by
    rw [h.size, u32_of_lt (by omega)]
  -- a step of the read index is a step of every position behind it
  have hstep : ∀ i, (rb.rdidx % n + 1 + i) % n = (rb.rdidx + (i + 1)) % n := by
    intro i
    rw [Nat.add_assoc, Nat.mod_add_mod, Nat.add_comm 1 i]
  have hpop : (q.pop 1).items.length = q.items.length - 1 := List.length_drop
  refine ⟨h.size, h.pos, h.fits, ?_, ?_, ?_⟩
  · show u32 (rb.avail + 1) + _ = n
    rw [hpop, u32_of_lt (by omega)]
    omega
  · show rb.wridx % n = (u32 (rb.rdidx % rb.size + 1) + _) % n
    rw [hidx, hstep, hpop, h.next, Nat.sub_add_cancel hlen]
  · intro i hi
    show rb.buf ((u32 (rb.rdidx % rb.size + 1) + i) % n) = _
    rw [hpop] at hi
    rw [hidx, hstep, h.cells (i + 1) (by omega)]
    simp [pop]

/-! ### One call, one operation of the queue -/

theorem add_of_isFull (hfull : q.isFull) (item : Byte) : rbAdd (some rb) item = (-2, some rb) := by
  simp [rbAdd, h.isfull_eq, hfull]

theorem add_of_not_isFull (hfull : ¬ q.isFull) (item : Byte) :
    rbAdd (some rb) item = (0, some (rb.put item)) := by
  simp [rbAdd, h.isfull_eq, hfull]

theorem remove_of_isEmpty (hempty : q.isEmpty) (item : Bool) :
    rbRemove (some rb) item = (-2, none, some rb) := by
  simp [rbRemove, h.isempty_eq, hempty]

theorem remove_of_not_isEmpty (hempty : ¬ q.isEmpty) (item : Bool) :
    rbRemove (some rb) item =
      if item then (0, some rb.head, some rb.skip) else (-3, none, some rb) := by
  simp [rbRemove, h.isempty_eq, hempty]

/-- Pushing takes the longest prefix there is room for. -/
theorem push (items : List Byte) :
    ∃ rb', rbPush (some rb) items = (q.room items, some rb') ∧ rb'.Holds (q.push items) := by
  induction items generalizing rb q with
  | nil => exact ⟨rb, by simp [rbPush, room], by rwa [push_nil]⟩
  | cons item items ih =>
    by_cases hfull : q.isFull
    · refine ⟨rb, ?_, by rwa [push_of_isFull hfull]⟩
      simp [rbPush, h.add_of_isFull hfull, room_of_isFull hfull]
    · obtain ⟨rb', hpush, hholds⟩ := ih (h.put hfull item)
      refine ⟨rb', ?_, by rwa [push_cons hfull]⟩
      simp [rbPush, h.add_of_not_isFull hfull, hpush, room_cons hfull]

/-- Popping gives the longest prefix there is. -/
theorem pop (cnt : Nat) :
    ∃ rb', rbPop (some rb) cnt = (q.items.take cnt, some rb') ∧ rb'.Holds (q.pop cnt) := by
  induction cnt generalizing rb q with
  | zero => exact ⟨rb, by simp [rbPop], by rwa [pop_zero]⟩
  | succ cnt ih =>
    cases hq : q.items with
    | nil =>
      refine ⟨rb, ?_, by rwa [pop_of_isEmpty hq]⟩
      simp [rbPop, h.remove_of_isEmpty hq]
    | cons x xs =>
      have hempty : ¬ q.isEmpty := by simp [isEmpty, hq]
      obtain ⟨rb', hpop, hholds⟩ := ih (h.skip hempty)
      refine ⟨rb', ?_, by rwa [pop_succ]⟩
      simp [rbPop, h.remove_of_not_isEmpty hempty, h.head hq, hpop, pop, hq]

end RingBuffer.Holds

theorem rbInit_holds (rb : RingBuffer) (buf : Nat → Byte) {n : Word} (hn : n ≠ 0) :
    ∃ rb', rbInit (some rb) (some buf) n = (0, some rb') ∧
      rb'.Holds (BoundedQueue.empty Byte n.toNat) := by
  refine ⟨_, if_neg hn, rfl, ?_, n.isLt, rfl, rfl, ?_⟩
  · exact Nat.pos_of_ne_zero fun h => hn (BitVec.eq_of_toNat_eq h)
  · intro i hi
    exact absurd hi (Nat.not_lt_zero i)

/-! ### Every sequence of calls -/

/-- What a call means on a bounded queue.  A refused call leaves the queue as it is. -/
def queueCall {n : Nat} (q : BoundedQueue Byte n) : RbCall → RbAnswer × BoundedQueue Byte n
  | .add item => if q.isFull then (⟨-2, []⟩, q) else (⟨0, []⟩, q.push [item])
  | .remove item =>
    if q.isEmpty then (⟨-2, []⟩, q)
    else if item then (⟨0, q.items.take 1⟩, q.pop 1)
    else (⟨-3, []⟩, q)
  | .push items => (⟨q.room items, []⟩, q.push items)
  | .pop cnt => (⟨(q.items.take cnt).length, q.items.take cnt⟩, q.pop cnt)
  | .isfull => (⟨if q.isFull then 1 else 0, []⟩, q)
  | .isempty => (⟨if q.isEmpty then 1 else 0, []⟩, q)

/-- The ring buffer is there and holds the queue. -/
def RbRefines {n : Nat} (rb : Option RingBuffer) (q : BoundedQueue Byte n) : Prop :=
  ∃ rb', rb = some rb' ∧ rb'.Holds q

theorem rbCall_refines {n : Nat} (rb : Option RingBuffer) (q : BoundedQueue Byte n) (call : RbCall)
    (h : RbRefines rb q) :
    (rbCall rb call).1 = (queueCall q call).1 ∧
      RbRefines (rbCall rb call).2 (queueCall q call).2 := by
  obtain ⟨rb, rfl, h⟩ := h
  cases call with
  | add item =>
    by_cases hfull : q.isFull
    · simp only [rbCall, queueCall, h.add_of_isFull hfull, if_pos hfull]
      exact ⟨trivial, rb, rfl, h⟩
    · simp only [rbCall, queueCall, h.add_of_not_isFull hfull, if_neg hfull]
      exact ⟨trivial, _, rfl, h.put hfull item⟩
  | remove item =>
    cases hq : q.items with
    | nil =>
      have hempty : q.isEmpty := hq
      simp only [rbCall, queueCall, h.remove_of_isEmpty hempty, if_pos hempty]
      exact ⟨rfl, rb, rfl, h⟩
    | cons x xs =>
      have hempty : ¬ q.isEmpty := by simp [isEmpty, hq]
      simp only [rbCall, queueCall, h.remove_of_not_isEmpty hempty, if_neg hempty]
      cases item with
      | true => exact ⟨by simp [h.head hq, hq], _, rfl, h.skip hempty⟩
      | false => exact ⟨rfl, rb, rfl, h⟩
  | push items =>
    obtain ⟨rb', hpush, hholds⟩ := h.push items
    simp only [rbCall, queueCall, hpush]
    exact ⟨trivial, rb', rfl, hholds⟩
  | pop cnt =>
    obtain ⟨rb', hpop, hholds⟩ := h.pop cnt
    simp only [rbCall, queueCall, hpop]
    exact ⟨trivial, rb', rfl, hholds⟩
  | isfull => exact ⟨by simp only [rbCall, queueCall, h.isfull_eq], rb, rfl, h⟩
  | isempty => exact ⟨by simp only [rbCall, queueCall, h.isempty_eq], rb, rfl, h⟩

/-- **A ring buffer answers every sequence of calls as a bounded queue of its capacity does.** -/
theorem ring_buffer_answers_as_queue (rb : RingBuffer) (buf : Nat → Byte) (n : Word) (hn : n ≠ 0)
    (calls : List RbCall) :
    (rbInit (some rb) (some buf) n).1 = 0 ∧
      Trace.answers rbCall (rbInit (some rb) (some buf) n).2 calls =
        Trace.answers queueCall (BoundedQueue.empty Byte n.toNat) calls := by
  obtain ⟨rb', hinit, hholds⟩ := rbInit_holds rb buf hn
  rw [hinit]
  exact ⟨rfl, Trace.answers_eq rbCall_refines ⟨rb', rfl, hholds⟩ calls⟩

theorem ring_buffer_of_two :
    Trace.answers rbCall
        (rbInit (some ⟨fun _ => 0, 7, 9, 1, 3⟩) (some fun _ => 0) 2).2
        [.push [1, 2, 3], .isfull, .pop 1, .add 4, .remove false, .pop 5, .isempty] =
      [⟨2, []⟩, ⟨1, []⟩, ⟨1, [1]⟩, ⟨0, []⟩, ⟨-3, []⟩, ⟨2, [2, 4]⟩, ⟨1, []⟩] := by
  rw [(ring_buffer_answers_as_queue _ _ 2 (by decide) _).2]
  decide

end Embarc
