/-
Nested activations on separate stacks.

Every owner has a stack area of its own, which grows downwards.  One owner is running.
When it is suspended, a frame of a fixed size is saved right below its stack pointer, and
the owner rests at the bottom of that frame.  An owner is entered from where it rests: by a
call, which uses up the frame made for it there, or by an interrupt, which begins right
there.  Leaving resumes the activation that was suspended last.

A `Ledger` keeps the positions and nothing else.  `OK` is the invariant of a ledger: frames
lie in the area of their owner, and the frames of an owner that is `strict` lie below each
other, the newest lowest, with the owner running or resting below them all.  `Grid` is what
is left for owners that are not: their positions are whole frames away from the top.
-/
import Mathlib.Logic.Function.Basic

namespace Nest

inductive Kind
  | call
  | irq
  deriving DecidableEq

/-- An activation: how it has begun, and the stack pointer it has begun with. -/
structure Act where
  kind : Kind
  base : Nat

/-- A suspended activation and the bottom of its frame. -/
structure Suspended (ι : Type) where
  owner : ι
  bot : Nat
  act : Act

structure Ledger (ι : Type) where
  cur : ι
  act : Act
  sp : Nat
  depth : Nat
  susp : Nat → Suspended ι
  rest : ι → Nat

/-- The stack areas and the size of a frame. -/
structure Layout (ι : Type) where
  size : Nat
  lo : ι → Nat
  hi : ι → Nat
  known : ι → Prop
  pos : ∀ c, known c → 0 < lo c
  disjoint : ∀ c d, known c → known d → c ≠ d → hi c ≤ lo d ∨ hi d ≤ lo c

/-- An address of the frame that begins at another. -/
def Layout.InFrame {ι : Type} (L : Layout ι) (bot a : Nat) : Prop := bot ≤ a ∧ a < bot + L.size

/-- The stack pointer an owner that rests at `r` is entered with. -/
def Layout.entry {ι : Type} (L : Layout ι) (r : Nat) : Kind → Nat
  | .call => r + L.size
  | .irq => r

/-- Where an activation's owner rests if it leaves with the stack pointer it has begun with. -/
def Layout.restOf {ι : Type} (L : Layout ι) (a : Act) : Nat :=
  match a.kind with
  | .call => a.base - L.size
  | .irq => a.base

variable {ι : Type} {L : Layout ι} {c : ι} {r q x a : Nat} {k : Kind}

theorem Layout.restOf_entry (L : Layout ι) (r : Nat) (k : Kind) :
    L.restOf ⟨k, L.entry r k⟩ = r := by
  cases k with
  | call => exact Nat.add_sub_cancel r L.size
  | irq => rfl

/-- An activation fits when the frame that belongs to the entry does, used up or not. -/
def Layout.Fits {ι : Type} (L : Layout ι) (c : ι) (a : Act) : Prop :=
  match a.kind with
  | .call => a.base ≤ L.hi c
  | .irq => a.base + L.size ≤ L.hi c

theorem Layout.Fits.base_le {a : Act} (h : L.Fits c a) : a.base ≤ L.hi c := by
  unfold Layout.Fits at h
  split at h <;> omega

theorem Layout.fits_entry (h : r + L.size ≤ L.hi c) (k : Kind) : L.Fits c ⟨k, L.entry r k⟩ := by
  cases k <;> exact h

namespace Ledger

variable {ι : Type} {d : ι}

/-- The invariant.  The last three fields order the frames of a strict owner: among each
other, below the running activation, and below where the owner rests. -/
structure OK (L : Layout ι) (strict : ι → Prop) (n : Ledger ι) : Prop where
  cur_known : L.known n.cur
  susp_known : ∀ q < n.depth, L.known (n.susp q).owner
  sp_le : n.sp ≤ n.act.base
  fits : L.Fits n.cur n.act
  frame_lo : ∀ q < n.depth, L.lo (n.susp q).owner ≤ (n.susp q).bot
  frame_base : ∀ q < n.depth, (n.susp q).bot + L.size ≤ (n.susp q).act.base
  frame_fits : ∀ q < n.depth, L.Fits (n.susp q).owner (n.susp q).act
  rest_lo : ∀ d, L.known d → d ≠ n.cur → L.lo d ≤ n.rest d
  rest_hi : ∀ d, L.known d → d ≠ n.cur → n.rest d + L.size ≤ L.hi d
  below : ∀ q r, q < r → r < n.depth → strict (n.susp q).owner →
    (n.susp r).owner = (n.susp q).owner → (n.susp r).act.base ≤ (n.susp q).bot
  cur_below : ∀ q < n.depth, strict (n.susp q).owner → n.cur = (n.susp q).owner →
    n.act.base ≤ (n.susp q).bot
  rest_below : ∀ q < n.depth, strict (n.susp q).owner → n.cur ≠ (n.susp q).owner →
    n.rest (n.susp q).owner ≤ (n.susp q).bot

/-- There is room for a frame below the stack pointer. -/
def Room (L : Layout ι) (n : Ledger ι) : Prop := L.lo n.cur + L.size ≤ n.sp

section
variable {L : Layout ι} {strict : ι → Prop} {n : Ledger ι}

theorem OK.sp_hi (h : OK L strict n) : n.sp ≤ L.hi n.cur :=
  Nat.le_trans h.sp_le h.fits.base_le

theorem OK.frame_hi (h : OK L strict n) (hq : q < n.depth) :
    (n.susp q).bot + L.size ≤ L.hi (n.susp q).owner :=
  Nat.le_trans (h.frame_base q hq) (h.frame_fits q hq).base_le

end

/-! ### Moves -/

section
variable [DecidableEq ι]

/-- Suspend the running activation and enter `d`. -/
def enter (L : Layout ι) (n : Ledger ι) (k : Kind) (d : ι) : Ledger ι :=
  let rest := Function.update n.rest n.cur (n.sp - L.size)
  { cur := d
    act := ⟨k, L.entry (rest d) k⟩
    sp := L.entry (rest d) k
    depth := n.depth + 1
    susp := Function.update n.susp n.depth ⟨n.cur, n.sp - L.size, n.act⟩
    rest := rest }

/-- Resume the activation suspended last; the one that leaves rests at `r`. -/
def leave (L : Layout ι) (n : Ledger ι) (r : Nat) : Ledger ι :=
  { cur := (n.susp (n.depth - 1)).owner
    act := (n.susp (n.depth - 1)).act
    sp := (n.susp (n.depth - 1)).bot + L.size
    depth := n.depth - 1
    susp := n.susp
    rest := Function.update n.rest n.cur r }

variable {L : Layout ι} {strict : ι → Prop} {n : Ledger ι}

omit [DecidableEq ι] in
/-- Running moves the stack pointer, not above where the activation has begun. -/
theorem OK.run (h : OK L strict n) {sp : Nat} (hsp : sp ≤ n.act.base) :
    OK L strict { n with sp := sp } :=
  { h with sp_le := hsp }

/-- What holds of every suspended activation before, and of the one that is suspended, holds of
every suspended activation after entering. -/
theorem enter_susp {P : Nat → Suspended ι → Prop} (hold : ∀ q < n.depth, P q (n.susp q))
    (hnew : P n.depth ⟨n.cur, n.sp - L.size, n.act⟩) :
    ∀ q < (n.enter L k d).depth, P q ((n.enter L k d).susp q) := by
  intro q hq
  show P q (Function.update n.susp n.depth _ q)
  by_cases heq : q = n.depth
  · rw [heq, Function.update_self]
    exact hnew
  · rw [Function.update_of_ne heq]
    exact hold q (by have : q < n.depth + 1 := hq; omega)

theorem enter_susp_of_lt (hq : q < n.depth) : (n.enter L k d).susp q = n.susp q :=
  Function.update_of_ne (Nat.ne_of_lt hq) _ _

theorem OK.enter (h : OK L strict n) (hroom : n.Room L) (hd : L.known d)
    (hcall : k = .call → d ≠ n.cur)
    (hstrict : k = .call → strict d → ∀ q < n.depth, (n.susp q).owner ≠ d) :
    OK L strict (n.enter L k d) := by
  have hsp := h.sp_le
  have hhi := h.sp_hi
  unfold Room at hroom
  -- where the others rest, and where the one that is suspended does
  have hrest : ∀ c, L.known c → L.lo c ≤ (n.enter L k d).rest c ∧
      (n.enter L k d).rest c + L.size ≤ L.hi c := by
    intro c hc
    show L.lo c ≤ Function.update n.rest n.cur _ c ∧ Function.update n.rest n.cur _ c + _ ≤ _
    by_cases heq : c = n.cur
    · rw [heq, Function.update_self]
      omega
    · rw [Function.update_of_ne heq]
      exact ⟨h.rest_lo c hc heq, h.rest_hi c hc heq⟩
  have hbelow : ∀ q < n.depth, strict (n.susp q).owner →
      (n.enter L k d).rest (n.susp q).owner ≤ (n.susp q).bot := by
    intro q hq hs
    show Function.update n.rest n.cur _ _ ≤ _
    by_cases heq : (n.susp q).owner = n.cur
    · rw [heq, Function.update_self]
      have := h.cur_below q hq hs heq.symm
      omega
    · rw [Function.update_of_ne heq]
      exact h.rest_below q hq hs (Ne.symm heq)
  exact {
    cur_known := hd
    susp_known := enter_susp (P := fun _ e => L.known e.owner) h.susp_known h.cur_known
    sp_le := Nat.le_refl _
    fits := Layout.fits_entry (hrest d hd).2 k
    frame_lo := enter_susp (P := fun _ e => L.lo e.owner ≤ e.bot) h.frame_lo (by
      show L.lo n.cur ≤ n.sp - L.size
      omega)
    frame_base := enter_susp (P := fun _ e => e.bot + L.size ≤ e.act.base) h.frame_base (by
      show n.sp - L.size + L.size ≤ n.act.base
      omega)
    frame_fits := enter_susp (P := fun _ e => L.Fits e.owner e.act) h.frame_fits h.fits
    rest_lo := fun c hc _ => (hrest c hc).1
    rest_hi := fun c hc _ => (hrest c hc).2
    below := by
      intro q r hqr hr
      have hq : q < n.depth := by
        have : r < n.depth + 1 := hr
        omega
      rw [enter_susp_of_lt hq]
      refine enter_susp (k := k) (d := d) (P := fun r e => q < r → strict (n.susp q).owner →
        e.owner = (n.susp q).owner → e.act.base ≤ (n.susp q).bot) ?_ ?_ r hr hqr
      · exact fun r hr hqr => h.below q r hqr hr
      · exact fun _ => h.cur_below q hq
    cur_below := by
      refine enter_susp (P := fun q e => strict e.owner → d = e.owner →
        L.entry ((n.enter L k d).rest d) k ≤ e.bot) ?_ ?_
      · intro q hq hs heq
        cases k with
        | call =>
          exact absurd heq.symm (hstrict rfl (heq ▸ hs) q hq)
        | irq =>
          rw [heq]
          exact hbelow q hq hs
      · intro _ heq
        cases k with
        | call => exact absurd heq (hcall rfl)
        | irq =>
          show Function.update n.rest n.cur _ d ≤ _
          exact Nat.le_of_eq (by rw [heq, Function.update_self])
    rest_below := by
      refine enter_susp (P := fun q e => strict e.owner → d ≠ e.owner →
        (n.enter L k d).rest e.owner ≤ e.bot) ?_ ?_
      · exact fun q hq hs _ => hbelow q hq hs
      · intro _ _
        show Function.update n.rest n.cur _ n.cur ≤ _
        exact Nat.le_of_eq (by rw [Function.update_self]) }

/-- An activation may leave for any place to rest that is not above its stack pointer. -/
theorem OK.leave (h : OK L strict n) (hdepth : n.depth ≠ 0) (hlo : L.lo n.cur ≤ r)
    (hhi : r + L.size ≤ L.hi n.cur) (hr : r ≤ n.sp) : OK L strict (n.leave L r) := by
  have hlast : n.depth - 1 < n.depth := by omega
  have hlt : ∀ q, q < n.depth - 1 → q < n.depth := fun q hq => by omega
  have hsp := h.sp_le
  exact {
    cur_known := h.susp_known _ hlast
    susp_known := fun q hq => h.susp_known q (hlt q hq)
    sp_le := h.frame_base _ hlast
    fits := h.frame_fits _ hlast
    frame_lo := fun q hq => h.frame_lo q (hlt q hq)
    frame_base := fun q hq => h.frame_base q (hlt q hq)
    frame_fits := fun q hq => h.frame_fits q (hlt q hq)
    rest_lo := by
      intro d hd _
      show L.lo d ≤ Function.update n.rest n.cur r d
      by_cases heq : d = n.cur
      · rw [heq, Function.update_self]
        exact hlo
      · rw [Function.update_of_ne heq]
        exact h.rest_lo d hd heq
    rest_hi := by
      intro d hd _
      show Function.update n.rest n.cur r d + L.size ≤ L.hi d
      by_cases heq : d = n.cur
      · rw [heq, Function.update_self]
        exact hhi
      · rw [Function.update_of_ne heq]
        exact h.rest_hi d hd heq
    below := fun q r hqr hr => h.below q r hqr (hlt r hr)
    cur_below := fun q hq hs heq => h.below q _ hq hlast hs heq
    rest_below := by
      intro q hq hs _
      show Function.update n.rest n.cur r (n.susp q).owner ≤ (n.susp q).bot
      by_cases heq : (n.susp q).owner = n.cur
      · rw [heq, Function.update_self]
        have := h.cur_below q (hlt q hq) hs heq.symm
        omega
      · rw [Function.update_of_ne heq]
        exact h.rest_below q (hlt q hq) hs (Ne.symm heq) }

end

/-! ### Activations by depth -/

/-- The activation at a depth, suspended there or running. -/
def actAt (n : Ledger ι) (q : Nat) : Act := if q < n.depth then (n.susp q).act else n.act

def ownerAt (n : Ledger ι) (q : Nat) : ι := if q < n.depth then (n.susp q).owner else n.cur

section
variable {α : Type} {L : Layout ι} {n : Ledger ι}

theorem actAt_depth : n.actAt n.depth = n.act := if_neg (Nat.lt_irrefl _)

theorem ownerAt_depth : n.ownerAt n.depth = n.cur := if_neg (Nat.lt_irrefl _)

variable [DecidableEq ι]

/-- Entering suspends what was running at its depth, and changes nothing below. -/
theorem at_enter (f : Suspended ι → α) {a c : α} (ha : f ⟨n.cur, n.sp - L.size, n.act⟩ = a)
    (hq : q ≤ n.depth) :
    (if q < (n.enter L k d).depth then f ((n.enter L k d).susp q) else c) =
      if q < n.depth then f (n.susp q) else a := by
  have hlt : q < (n.enter L k d).depth := Nat.lt_succ_of_le hq
  rw [if_pos hlt]
  by_cases heq : q = n.depth
  · rw [if_neg (by omega), heq, ← ha]
    exact congrArg f (Function.update_self ..)
  · rw [if_pos (by omega), enter_susp_of_lt (by omega)]

theorem at_leave (f : Suspended ι → α) {a : α} (hq : q < n.depth) :
    (if q < (n.leave L r).depth then f ((n.leave L r).susp q) else f (n.susp (n.depth - 1))) =
      if q < n.depth then f (n.susp q) else a := by
  rw [if_pos hq]
  by_cases heq : q = n.depth - 1
  · rw [heq]
    exact if_neg (Nat.lt_irrefl _)
  · exact if_pos (show q < n.depth - 1 by omega)

theorem actAt_enter (hq : q ≤ n.depth) : (n.enter L k d).actAt q = n.actAt q :=
  at_enter Suspended.act rfl hq

theorem actAt_leave (hq : q < n.depth) : (n.leave L r).actAt q = n.actAt q :=
  at_leave Suspended.act hq

theorem ownerAt_enter (hq : q ≤ n.depth) : (n.enter L k d).ownerAt q = n.ownerAt q :=
  at_enter Suspended.owner rfl hq

theorem ownerAt_leave (hq : q < n.depth) : (n.leave L r).ownerAt q = n.ownerAt q :=
  at_leave Suspended.owner hq

end

/-! ### Balanced returns

An activation that leaves with the stack pointer it has begun with puts its owner back to
rest where it was entered.  `Due` is what a run of such moves carries along above a depth: an
owner without an activation there rests where it is due to, and the first activation of any
other was entered from there.
-/

section
variable [DecidableEq ι] {L : Layout ι} {n n' : Ledger ι} {D : Nat} {due : ι → Nat}
  {owed : ι → Prop}

/-- A move in which whoever leaves does so with the stack pointer it has begun with. -/
inductive Move (L : Layout ι) (n : Ledger ι) : Ledger ι → Prop
  | run (sp : Nat) : Move L n { n with sp := sp }
  | enter (k : Kind) (d : ι) : Move L n (n.enter L k d)
  | leave (hdepth : n.depth ≠ 0) : Move L n (n.leave L (L.restOf n.act))

structure Due (L : Layout ι) (D : Nat) (due : ι → Nat) (owed : ι → Prop) (n : Ledger ι) :
    Prop where
  idle : ∀ c, owed c → (∀ q, D < q → q ≤ n.depth → n.ownerAt q ≠ c) → n.rest c = due c
  first : ∀ q, D < q → q ≤ n.depth → owed (n.ownerAt q) →
    (∀ p, D < p → p < q → n.ownerAt p ≠ n.ownerAt q) → L.restOf (n.actAt q) = due (n.ownerAt q)

omit [DecidableEq ι] in
theorem Due.here (n : Ledger ι) : Due L n.depth n.rest owed n where
  idle := fun _ _ _ => rfl
  first := fun _ hlt hle => absurd hlt (Nat.not_lt.mpr hle)

theorem Due.entered (n : Ledger ι) (k : Kind) (d : ι) :
    Due L n.depth (n.enter L k d).rest owed (n.enter L k d) where
  idle := fun _ _ _ => rfl
  first := by
    intro q hlt hle _ _
    have hq : q = (n.enter L k d).depth := Nat.le_antisymm hle hlt
    rw [hq, ownerAt_depth, actAt_depth]
    exact L.restOf_entry _ k

omit [DecidableEq ι] in
theorem Due.rest (h : Due L D due owed n) (hdepth : n.depth ≤ D) {c : ι} (hc : owed c) :
    n.rest c = due c :=
  h.idle c hc fun _ hlt hle => absurd (Nat.lt_of_lt_of_le hlt (Nat.le_trans hle hdepth))
    (Nat.lt_irrefl _)

theorem Due.enter (h : Due L D due owed n) (hdepth : D ≤ n.depth)
    (hcur : n.depth = D → ¬ owed n.cur) (k : Kind) (d : ι) : Due L D due owed (n.enter L k d) := by
  -- an owner without an activation is not the one that is suspended
  have hrest : ∀ c, owed c → (∀ q, D < q → q ≤ n.depth → n.ownerAt q ≠ c) →
      (n.enter L k d).rest c = due c := by
    intro c hc hnone
    have hne : c ≠ n.cur := by
      intro heq
      rcases Nat.eq_or_lt_of_le hdepth with hD | hD
      · exact hcur hD.symm (heq ▸ hc)
      · exact hnone n.depth hD (Nat.le_refl _) (ownerAt_depth.trans heq.symm)
    show Function.update n.rest n.cur _ c = due c
    rw [Function.update_of_ne hne]
    exact h.idle c hc hnone
  refine ⟨?_, ?_⟩
  · intro c hc hnone
    refine hrest c hc fun q hlt hle => ?_
    rw [← ownerAt_enter (L := L) (k := k) (d := d) hle]
    exact hnone q hlt (Nat.le_succ_of_le hle)
  · intro q hlt hle hc hnone
    by_cases hq : q ≤ n.depth
    · rw [ownerAt_enter hq] at hc hnone ⊢
      rw [actAt_enter hq]
      refine h.first q hlt hq hc fun p hp hpq => ?_
      rw [← ownerAt_enter (L := L) (k := k) (d := d) (by omega)]
      exact hnone p hp hpq
    · have hq : q = (n.enter L k d).depth := by
        have : q ≤ n.depth + 1 := hle
        show q = n.depth + 1
        omega
      rw [hq, ownerAt_depth] at hc hnone ⊢
      rw [actAt_depth]
      refine (Layout.restOf_entry L _ k).trans (hrest d hc fun p hp hle => ?_)
      rw [← ownerAt_enter (L := L) (k := k) (d := d) hle]
      exact hnone p hp (Nat.lt_succ_of_le hle)

theorem Due.leave (h : Due L D due owed n) (hdepth : D < n.depth) :
    Due L D due owed (n.leave L (L.restOf n.act)) := by
  refine ⟨?_, ?_⟩
  · intro c hc hnone
    have hbelow : ∀ q, D < q → q < n.depth → n.ownerAt q ≠ c := by
      intro q hlt hq
      rw [← ownerAt_leave (L := L) (r := L.restOf n.act) hq]
      exact hnone q hlt (Nat.le_sub_one_of_lt hq)
    show Function.update n.rest n.cur _ c = due c
    by_cases heq : c = n.cur
    · -- the one that leaves is the first of its owner
      have hfirst := h.first n.depth hdepth (Nat.le_refl _)
      rw [ownerAt_depth, actAt_depth, ← heq] at hfirst
      rw [heq, Function.update_self, ← heq]
      exact hfirst hc hbelow
    · rw [Function.update_of_ne heq]
      refine h.idle c hc fun q hlt hle => ?_
      rcases Nat.eq_or_lt_of_le hle with hq | hq
      · rw [hq, ownerAt_depth]
        exact Ne.symm heq
      · exact hbelow q hlt hq
  · intro q hlt hle hc hnone
    have hq : q < n.depth := by
      have : q ≤ n.depth - 1 := hle
      omega
    rw [ownerAt_leave hq] at hc hnone ⊢
    rw [actAt_leave hq]
    refine h.first q hlt (Nat.le_of_lt hq) hc fun p hp hpq => ?_
    rw [← ownerAt_leave (L := L) (r := L.restOf n.act) (Nat.lt_trans hpq hq)]
    exact hnone p hp hpq

/-- **What is due stays due**, in a move that stays above the depth. -/
theorem Due.move (h : Due L D due owed n) (hmove : Move L n n') (hdepth : D ≤ n.depth)
    (hdepth' : D ≤ n'.depth) (hcur : n.depth = D → ¬ owed n.cur) : Due L D due owed n' := by
  cases hmove with
  | run sp => exact ⟨h.idle, h.first⟩
  | enter k d => exact h.enter hdepth hcur k d
  | leave hne =>
    have hdepth' : D ≤ n.depth - 1 := hdepth'
    exact h.leave (by omega)

theorem Move.ownerAt (hmove : Move L n n') (hq : q ≤ n.depth) (hq' : q ≤ n'.depth) :
    n'.ownerAt q = n.ownerAt q := by
  cases hmove with
  | run sp => rfl
  | enter k d => exact ownerAt_enter hq
  | leave hne =>
    have hq' : q ≤ n.depth - 1 := hq'
    exact ownerAt_leave (by omega)

theorem Move.susp (hmove : Move L n n') (hq : q < n.depth) (hq' : q < n'.depth) :
    n'.susp q = n.susp q := by
  cases hmove with
  | run sp => rfl
  | enter k d => exact enter_susp_of_lt hq
  | leave hne => rfl

/-- A move that comes back to a depth resumes what was suspended there. -/
theorem Move.resumes (hmove : Move L n n') (hdepth : D < n.depth) (hdepth' : n'.depth ≤ D) :
    n'.depth = D ∧ n'.cur = (n.susp D).owner ∧ n'.sp = (n.susp D).bot + L.size := by
  cases hmove with
  | run sp => exact absurd hdepth (Nat.not_lt.mpr hdepth')
  | enter k d =>
    have hdepth' : n.depth + 1 ≤ D := hdepth'
    omega
  | leave hne =>
    have hdepth' : n.depth - 1 ≤ D := hdepth'
    have hD : n.depth - 1 = D := by omega
    unfold Ledger.leave
    rw [hD]
    exact ⟨rfl, rfl, rfl⟩

end

/-! ### Frames that are kept apart

What the running activation saves below its stack pointer, and the frame a call makes where
its destination rests, do not meet the frames of strict owners.
-/

section
variable {L : Layout ι} {strict : ι → Prop} {n : Ledger ι}

/-- Frames in the areas of different owners have no address in common. -/
theorem apart_of_ne {c : ι} (hc : L.known c) (hd : L.known d) (hne : c ≠ d) {y : Nat}
    (hx : L.lo c ≤ x) (hx' : x + L.size ≤ L.hi c) (hy : L.lo d ≤ y) (hy' : y + L.size ≤ L.hi d)
    (ha : L.InFrame x a) : ¬ L.InFrame y a := by
  rintro ⟨hay, hay'⟩
  obtain ⟨hax, hax'⟩ := ha
  rcases L.disjoint c d hc hd hne with h | h <;> omega

theorem OK.frames_apart (h : OK L strict n) (hqr : q < r) (hr : r < n.depth)
    (hs : strict (n.susp q).owner) (ha : L.InFrame (n.susp r).bot a) :
    ¬ L.InFrame (n.susp q).bot a := by
  have hq : q < n.depth := Nat.lt_trans hqr hr
  by_cases heq : (n.susp r).owner = (n.susp q).owner
  · have hbelow := h.below q r hqr hr hs heq
    have hbase := h.frame_base r hr
    rintro ⟨hay, hay'⟩
    have hax := ha.2
    omega
  · exact apart_of_ne (h.susp_known r hr) (h.susp_known q hq) heq (h.frame_lo r hr)
      (h.frame_hi hr) (h.frame_lo q hq) (h.frame_hi hq) ha

theorem OK.own_apart (h : OK L strict n) (hroom : n.Room L) (hq : q < n.depth)
    (hs : strict (n.susp q).owner) (ha : L.InFrame (n.sp - L.size) a) :
    ¬ L.InFrame (n.susp q).bot a := by
  unfold Room at hroom
  have hsp := h.sp_hi
  by_cases heq : n.cur = (n.susp q).owner
  · have hbelow := h.cur_below q hq hs heq
    have hbase := h.sp_le
    rintro ⟨hay, hay'⟩
    have hax := ha.2
    omega
  · exact apart_of_ne h.cur_known (h.susp_known q hq) heq (by omega) (by omega) (h.frame_lo q hq)
      (h.frame_hi hq) ha

theorem OK.call_own_apart (h : OK L strict n) (hroom : n.Room L) (hd : L.known d) (hne : d ≠ n.cur)
    (ha : L.InFrame (n.rest d) a) : ¬ L.InFrame (n.sp - L.size) a := by
  unfold Room at hroom
  have hsp := h.sp_hi
  exact apart_of_ne hd h.cur_known hne (h.rest_lo d hd hne) (h.rest_hi d hd hne) (by omega)
    (by omega) ha

theorem OK.call_apart (h : OK L strict n) (hd : L.known d) (hne : d ≠ n.cur) (hq : q < n.depth)
    (hother : (n.susp q).owner ≠ d) (ha : L.InFrame (n.rest d) a) : ¬ L.InFrame (n.susp q).bot a :=
  apart_of_ne hd (h.susp_known q hq) (Ne.symm hother) (h.rest_lo d hd hne) (h.rest_hi d hd hne)
    (h.frame_lo q hq) (h.frame_hi hq) ha

end

/-! ### Whole frames

An owner whose stack pointer does not move while it runs has all its frames a whole number
of frames below the top of its area, so two of them are the same or have no address in common.
-/

/-- A whole number of frames below the top. -/
def Aligned (L : Layout ι) (c : ι) (x : Nat) : Prop := ∃ k, x + k * L.size = L.hi c

structure Grid (L : Layout ι) (grid : ι → Prop) (n : Ledger ι) : Prop where
  cur : grid n.cur → Aligned L n.cur n.sp
  susp : ∀ q < n.depth, grid (n.susp q).owner → Aligned L (n.susp q).owner (n.susp q).bot
  rest : ∀ d, L.known d → d ≠ n.cur → grid d → Aligned L d (n.rest d)

section
variable {L : Layout ι} {strict grid : ι → Prop} {n : Ledger ι}

theorem Aligned.sub {c : ι} (h : Aligned L c x) (hx : L.size ≤ x) : Aligned L c (x - L.size) := by
  obtain ⟨k, hk⟩ := h
  refine ⟨k + 1, ?_⟩
  rw [Nat.succ_mul]
  omega

theorem Aligned.add {c : ι} (h : Aligned L c x) (hx : x + L.size ≤ L.hi c) :
    Aligned L c (x + L.size) := by
  obtain ⟨k, hk⟩ := h
  cases k with
  | zero => exact ⟨0, by omega⟩
  | succ k =>
    rw [Nat.succ_mul] at hk
    exact ⟨k, by omega⟩

theorem Aligned.eq_of_inFrame {c : ι} {y : Nat} (hx : Aligned L c x) (hy : Aligned L c y)
    (hax : L.InFrame x a) (hay : L.InFrame y a) : x = y := by
  obtain ⟨k, hk⟩ := hx
  obtain ⟨j, hj⟩ := hy
  obtain ⟨hax, hax'⟩ := hax
  obtain ⟨hay, hay'⟩ := hay
  have hmul : ∀ i l : Nat, i < l → i * L.size + L.size ≤ l * L.size := by
    intro i l hil
    rw [← Nat.succ_mul]
    exact Nat.mul_le_mul_right _ hil
  rcases Nat.lt_trichotomy k j with h | h | h
  · have := hmul k j h
    omega
  · rw [h] at hk
    omega
  · have := hmul j k h
    omega

/-- Two frames have no address in common if they are kept apart wherever the owner is strict and
on the grid elsewhere, or they are one and the same. -/
theorem apart_or_same {c : ι} (hc : L.known c) (hd : L.known d) {y : Nat} (hx : L.lo c ≤ x)
    (hx' : x + L.size ≤ L.hi c) (hy : L.lo d ≤ y) (hy' : y + L.size ≤ L.hi d)
    (hstrict : c = d → strict d → ∀ a, L.InFrame x a → ¬ L.InFrame y a)
    (hgrid : c = d → ¬ strict d → Aligned L d x ∧ Aligned L d y) :
    (∀ a, L.InFrame x a → ¬ L.InFrame y a) ∨ c = d ∧ x = y := by
  by_cases hcd : c = d
  · by_cases hs : strict d
    · exact Or.inl (hstrict hcd hs)
    · obtain ⟨hax, hay⟩ := hgrid hcd hs
      by_cases hxy : x = y
      · exact Or.inr ⟨hcd, hxy⟩
      · exact Or.inl fun a hx hy => hxy (hax.eq_of_inFrame hay hx hy)
  · exact Or.inl fun a => apart_of_ne hc hd hcd hx hx' hy hy'

section
variable (h : OK L strict n) (hg : Grid L (fun c => ¬ strict c) n) {q : Nat} (hq : q < n.depth)
include h hg hq

theorem OK.own_apart_or_same (hroom : n.Room L) :
    (∀ a, L.InFrame (n.sp - L.size) a → ¬ L.InFrame (n.susp q).bot a) ∨
      n.cur = (n.susp q).owner ∧ n.sp - L.size = (n.susp q).bot := by
  have hsp := h.sp_hi
  have hroom' : L.lo n.cur + L.size ≤ n.sp := hroom
  refine apart_or_same h.cur_known (h.susp_known q hq) (by omega) (by omega) (h.frame_lo q hq)
    (h.frame_hi hq) (fun _ hs a => h.own_apart hroom hq hs) ?_
  intro heq hs
  refine ⟨?_, hg.susp q hq hs⟩
  rw [← heq] at hs ⊢
  exact (hg.cur hs).sub (by omega)

theorem OK.call_apart_or_same (hd : L.known d) (hne : d ≠ n.cur)
    (hstrict : strict d → ∀ q < n.depth, (n.susp q).owner ≠ d) :
    (∀ a, L.InFrame (n.rest d) a → ¬ L.InFrame (n.susp q).bot a) ∨
      d = (n.susp q).owner ∧ n.rest d = (n.susp q).bot := by
  refine apart_or_same hd (h.susp_known q hq) (h.rest_lo d hd hne) (h.rest_hi d hd hne)
    (h.frame_lo q hq) (h.frame_hi hq)
    (fun heq (hs : strict _) => absurd heq.symm (hstrict (heq ▸ hs) q hq)) ?_
  intro heq hs
  refine ⟨?_, hg.susp q hq hs⟩
  rw [← heq] at hs ⊢
  exact hg.rest d hd hne hs

theorem OK.frames_apart_or_same (hqr : q ≤ r) (hr : r < n.depth) :
    (∀ a, L.InFrame (n.susp r).bot a → ¬ L.InFrame (n.susp q).bot a) ∨
      (n.susp r).owner = (n.susp q).owner ∧ (n.susp r).bot = (n.susp q).bot := by
  rcases Nat.eq_or_lt_of_le hqr with heq | hlt
  · rw [heq]
    exact Or.inr ⟨rfl, rfl⟩
  · refine apart_or_same (h.susp_known r hr) (h.susp_known q hq) (h.frame_lo r hr) (h.frame_hi hr)
      (h.frame_lo q hq) (h.frame_hi hq) (fun _ hs a => h.frames_apart hlt hr hs) ?_
    intro heq hs
    refine ⟨?_, hg.susp q hq hs⟩
    rw [← heq] at hs ⊢
    exact hg.susp r hr hs

end

theorem Aligned.entry {c : ι} (h : Aligned L c r) (hr : r + L.size ≤ L.hi c) (k : Kind) :
    Aligned L c (L.entry r k) := by
  cases k with
  | call => exact h.add hr
  | irq => exact h

variable [DecidableEq ι]

theorem Grid.enter (h : Grid L grid n) (hok : OK L strict n) (hroom : n.Room L) (k : Kind)
    (hd : L.known d) : Grid L grid (n.enter L k d) := by
  unfold Room at hroom
  have hhi := hok.sp_hi
  have hrest : ∀ c, L.known c → grid c → Aligned L c ((n.enter L k d).rest c) ∧
      (n.enter L k d).rest c + L.size ≤ L.hi c := by
    intro c hc hg
    show Aligned L c (Function.update n.rest n.cur _ c) ∧ Function.update n.rest n.cur _ c + _ ≤ _
    by_cases heq : c = n.cur
    · rw [heq, Function.update_self]
      exact ⟨(h.cur (heq ▸ hg)).sub (by omega), by omega⟩
    · rw [Function.update_of_ne heq]
      exact ⟨h.rest c hc heq hg, hok.rest_hi c hc heq⟩
  refine ⟨?_, ?_, ?_⟩
  · exact fun hg => (hrest d hd hg).1.entry (hrest d hd hg).2 k
  · refine enter_susp (P := fun _ e => grid e.owner → Aligned L e.owner e.bot) h.susp ?_
    exact fun hg => (h.cur hg).sub (by omega)
  · exact fun c hc _ hg => (hrest c hc hg).1

theorem Grid.leave (h : Grid L grid n) (hok : OK L strict n) (hdepth : n.depth ≠ 0)
    (hr : grid n.cur → Aligned L n.cur r) : Grid L grid (n.leave L r) := by
  have hlast : n.depth - 1 < n.depth := by omega
  refine ⟨?_, ?_, ?_⟩
  · exact fun hg => (h.susp _ hlast hg).add (hok.frame_hi hlast)
  · intro q hq
    have : q < n.depth - 1 := hq
    exact h.susp q (by omega)
  · intro d hd _ hg
    show Aligned L d (Function.update n.rest n.cur r d)
    by_cases heq : d = n.cur
    · rw [heq, Function.update_self]
      exact hr (heq ▸ hg)
    · rw [Function.update_of_ne heq]
      exact h.rest d hd heq hg

end

end Ledger

end Nest
