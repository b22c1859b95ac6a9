/-
A full-duplex serial link between two FIFOs.

What is pushed waits in the transmit FIFO, is loaded into the shift register and goes over the
line; for every frame that goes out one comes in, which the other side chooses from all it has
seen so far.  A frame that comes in when the receive FIFO is full is lost.

`Flow` accounts for the frames: what was pushed is on the wire, in the shift register or in the
transmit FIFO, in this order, and what was taken from the receive FIFO and what is left in it
are the replies to the wire.  It is kept by every step that loses no frame.
-/
import Mathlib.Data.List.TakeDrop

/-- The FIFOs of a link, the frame in the shift register, and all that went over the line. -/
structure Link (α : Type) where
  tx : List α
  line : Option α
  rx : List α
  wire : List α

namespace Link

variable {α : Type}

def empty : Link α := { tx := [], line := none, rx := [], wire := [] }

def push (l : Link α) (frames : List α) : Link α := { l with tx := l.tx ++ frames }

/-- The next frame is loaded into the shift register, if that is free. -/
def load (l : Link α) : Link α :=
  match l.line, l.tx with
  | none, a :: rest => { l with tx := rest, line := some a }
  | _, _ => l

/-- The frame in the shift register is exchanged for the reply of the other side. -/
def shift (depth : Nat) (reply : List α → α) (l : Link α) : Link α :=
  match l.line with
  | some a =>
    { l with
      line := none
      wire := l.wire ++ [a]
      rx := if l.rx.length < depth then l.rx ++ [reply (l.wire ++ [a])] else l.rx }
  | none => l

def take (l : Link α) (count : Nat) : Link α := { l with rx := l.rx.drop count }

/-- How many frames are somewhere between being pushed and being taken. -/
def inFlight (l : Link α) : Nat := l.tx.length + l.line.toList.length + l.rx.length

/-- What the other side answers to all that went over the line. -/
def replies (reply : List α → α) (wire : List α) : List α :=
  (List.range wire.length).map fun i => reply (wire.take (i + 1))

@[simp] theorem length_replies (reply : List α → α) (wire : List α) :
    (replies reply wire).length = wire.length := by
  simp [replies]

theorem replies_append (reply : List α → α) (wire : List α) (a : α) :
    replies reply (wire ++ [a]) = replies reply wire ++ [reply (wire ++ [a])] := by
  have hold : (List.range wire.length).map (fun i => reply ((wire ++ [a]).take (i + 1))) =
      (List.range wire.length).map fun i => reply (wire.take (i + 1)) := by
    apply List.map_congr_left
    intro i hi
    rw [List.take_append_of_le_length (List.mem_range.mp hi)]
  have hlast : (wire ++ [a]).take (wire.length + 1) = wire ++ [a] :=
    List.take_of_length_le (by simp)
  simp [replies, List.range_succ, hold, hlast]

/-- A side that looks at `f` of the frames only gives the same answers where `f` is the same. -/
theorem replies_congr {β : Type} (f : α → β) (reply : List β → α) {wire wire' : List α}
    (h : wire.map f = wire'.map f) :
    replies (fun frames => reply (frames.map f)) wire =
      replies (fun frames => reply (frames.map f)) wire' := by
  have hlen : wire.length = wire'.length := by simpa using congrArg List.length h
  simp only [replies, List.map_take, h, hlen]

/-- Every frame that came in was taken or waits in the receive FIFO. -/
def NoneLost (reply : List α → α) (l : Link α) (got : List α) : Prop :=
  got ++ l.rx = replies reply l.wire

instance [DecidableEq α] (reply : List α → α) (l : Link α) (got : List α) :
    Decidable (l.NoneLost reply got) :=
  inferInstanceAs (Decidable (_ = _))

/-- Every frame pushed is accounted for, and so is every reply. -/
structure Flow (reply : List α → α) (l : Link α) (pushed got : List α) : Prop where
  sent : l.wire ++ l.line.toList ++ l.tx = pushed
  received : got ++ l.rx = replies reply l.wire

variable {reply : List α → α} {l : Link α} {pushed got : List α}

theorem Flow.empty (reply : List α → α) : Flow reply empty [] [] := ⟨rfl, rfl⟩

/-- What was pushed and not taken is in flight. -/
theorem Flow.length (h : Flow reply l pushed got) : pushed.length = got.length + l.inFlight := by
  have hsent := congrArg List.length h.sent
  have hreceived := congrArg List.length h.received
  rw [length_replies, List.length_append] at hreceived
  rw [List.length_append, List.length_append] at hsent
  unfold inFlight
  omega

/-- If what is in flight fits the receive FIFO, there is room for what is on the line. -/
theorem Flow.room {depth : Nat} (h : Flow reply l pushed got)
    (hfit : pushed.length - got.length ≤ depth) : l.line = none ∨ l.rx.length < depth := by
  have hlen := h.length
  unfold inFlight at hlen
  cases hline : l.line with
  | none => exact .inl rfl
  | some a =>
    rw [hline, Option.toList_some, List.length_singleton] at hlen
    exact .inr (by omega)

theorem Flow.push (h : Flow reply l pushed got) (frames : List α) :
    Flow reply (l.push frames) (pushed ++ frames) got := by
  refine ⟨?_, h.received⟩
  rw [← h.sent]
  simp [Link.push]

theorem load_sent (l : Link α) :
    l.load.wire ++ l.load.line.toList ++ l.load.tx = l.wire ++ l.line.toList ++ l.tx := by
  unfold load
  split
  case h_1 hline htx => simp [hline, htx]
  case h_2 => rfl

theorem load_received (l : Link α) : l.load.rx = l.rx ∧ l.load.wire = l.wire := by
  unfold load
  split <;> exact ⟨rfl, rfl⟩

section
variable (h : Flow reply l pushed got)
include h

theorem Flow.load : Flow reply l.load pushed got := by
  obtain ⟨hrx, hwire⟩ := load_received l
  refine ⟨(load_sent l).trans h.sent, ?_⟩
  rw [hrx, hwire]
  exact h.received

/-- No frame is lost while the receive FIFO has room for what is on the line. -/
theorem Flow.shift {depth : Nat} (hroom : l.line = none ∨ l.rx.length < depth) :
    Flow reply (l.shift depth reply) pushed got := by
  unfold Link.shift
  split
  case h_1 a hline =>
    have hlt : l.rx.length < depth := by
      rcases hroom with hnone | hlt
      · rw [hline] at hnone
        exact absurd hnone (by simp)
      · exact hlt
    refine ⟨?_, ?_⟩
    · rw [← h.sent, hline]
      simp
    · rw [if_pos hlt, replies_append, ← h.received, List.append_assoc]
  case h_2 => exact h

theorem Flow.take (count : Nat) : Flow reply (l.take count) pushed (got ++ l.rx.take count) := by
  refine ⟨h.sent, ?_⟩
  show got ++ l.rx.take count ++ l.rx.drop count = replies reply l.wire
  rw [List.append_assoc, List.take_append_drop, h.received]

/-- With all taken that was pushed, the line has carried it all. -/
theorem Flow.settled (hall : pushed.length ≤ got.length) :
    l.wire = pushed ∧ got = replies reply pushed ∧ l.tx = [] ∧ l.line = none ∧ l.rx = [] := by
  have hlen := h.length
  have hnone : l.inFlight = 0 := by omega
  simp only [inFlight, Nat.add_eq_zero_iff, List.length_eq_zero_iff, Option.toList_eq_nil_iff]
    at hnone
  obtain ⟨⟨htx, hline⟩, hrx⟩ := hnone
  have hsent := h.sent
  have hreceived := h.received
  rw [hline, htx, Option.toList_none, List.append_nil, List.append_nil] at hsent
  rw [hrx, List.append_nil, hsent] at hreceived
  exact ⟨hsent, hreceived, htx, hline, hrx⟩

end

/-! ### Lengths -/

theorem length_tx_load (l : Link α) : l.load.tx.length ≤ l.tx.length := by
  unfold load
  split
  case h_1 htx => simp [htx]
  case h_2 => exact Nat.le_refl _

theorem tx_shift (depth : Nat) (reply : List α → α) (l : Link α) :
    (l.shift depth reply).tx = l.tx := by
  unfold Link.shift
  split <;> rfl

end Link
