/-
A slab: one shared list carved into slices.

Several owners share one array of entries.  An owner's slice is a pointer into the
array and a count; the pointer is taken when the owner gets its first entry, and
every further entry goes right behind the ones the owner has.  The array keeps a
count of the entries handed out, and that count is where a new slice starts.

Nothing in the structure itself keeps slices apart.  What does is the order in
which entries arrive: if no owner gets an entry after a later owner has started,
the slices are consecutive runs of the array.
-/
import Mathlib.Data.List.Basic
import Mathlib.Logic.Function.Basic
import Mathlib.Data.List.GetD

/-- Where an owner's entries are: a pointer, null until the first one, and a count. -/
structure Slice where
  ptr : Option Nat
  count : Nat

/-- An array shared by many owners, with the number of entries handed out. -/
structure Slab (α : Type) where
  used : Nat
  list : Nat → α
  owner : Nat → Slice

namespace Slab

variable {α : Type} {t : Slab α} {k : Nat}

def empty (x : α) : Slab α where
  used := 0
  list := fun _ => x
  owner := fun _ => ⟨none, 0⟩

/-- Give an owner without a slice one that starts at the first free entry. -/
def assign (t : Slab α) (c : Nat) : Slab α :=
  match (t.owner c).ptr with
  | some _ => t
  | none => { t with owner := Function.update t.owner c ⟨some t.used, (t.owner c).count⟩ }

def next (t : Slab α) (c : Nat) : Nat :=
  (t.owner c).ptr.getD 0 + (t.owner c).count

/-- Write an owner's next entry and count it. -/
def put (t : Slab α) (c : Nat) (x : α) : Slab α where
  used := t.used + 1
  list := Function.update t.list (t.next c) x
  owner := Function.update t.owner c ⟨(t.owner c).ptr, (t.owner c).count + 1⟩

/-- An owner's entries, in order. -/
def slice (t : Slab α) (c : Nat) : List α :=
  (List.range (t.owner c).count).map fun i => t.list ((t.owner c).ptr.getD 0 + i)

/-- The indices of an owner's entries. -/
def Covers (t : Slab α) (c i : Nat) : Prop :=
  (t.owner c).ptr.getD 0 ≤ i ∧ i < t.next c

def add (t : Slab α) (c : Nat) (x : α) : Slab α := (t.assign c).put c x

/-! ### What handing out an entry changes -/

section
variable (t : Slab α)

@[simp] theorem assign_list (c : Nat) : (t.assign c).list = t.list := by
  unfold assign
  split <;> rfl

@[simp] theorem assign_used (c : Nat) : (t.assign c).used = t.used := by
  unfold assign
  split <;> rfl

theorem assign_owner_self (c : Nat) :
    (t.assign c).owner c = ⟨some ((t.owner c).ptr.getD t.used), (t.owner c).count⟩ := by
  unfold assign
  split
  · next p h =>
    rw [h]
    cases hc : t.owner c
    simp_all
  · next h => simp [h]

theorem assign_owner_ne {c d : Nat} (h : d ≠ c) :
    (t.assign c).owner d = t.owner d := by
  unfold assign
  split
  · rfl
  · exact Function.update_of_ne h ..

@[simp] theorem add_used (c : Nat) (x : α) : (t.add c x).used = t.used + 1 := by
  simp [add, put]

theorem add_list (c : Nat) (x : α) :
    (t.add c x).list = Function.update t.list ((t.assign c).next c) x := by
  simp [add, put]

theorem add_owner_self (c : Nat) (x : α) :
    (t.add c x).owner c = ⟨some ((t.owner c).ptr.getD t.used), (t.owner c).count + 1⟩ := by
  simp [add, put, assign_owner_self]

theorem add_owner_ne {c d : Nat} (x : α) (h : d ≠ c) :
    (t.add c x).owner d = t.owner d := by
  show Function.update (t.assign c).owner c _ d = t.owner d
  rw [Function.update_of_ne h, assign_owner_ne t h]

theorem assign_next (c : Nat) :
    (t.assign c).next c = (t.owner c).ptr.getD t.used + (t.owner c).count := by
  simp [next, assign_owner_self]

end

/-! ### Slices handed out in order

Owner `k` is the last one to have got entries.  Its slice, if it has one, ends where
the used part of the array ends, so its next entry is a free one; the slices of the
owners before it end earlier, in the order of the owners.
-/

structure Ordered (t : Slab α) (k : Nat) : Prop where
  /-- Later owners have nothing yet. -/
  fresh : ∀ c, k < c → t.owner c = ⟨none, 0⟩
  /-- Without a pointer there are no entries. -/
  null : ∀ c, (t.owner c).ptr = none → (t.owner c).count = 0
  /-- Every slice lies in the used part. -/
  inside : ∀ c p, (t.owner c).ptr = some p → p + (t.owner c).count ≤ t.used
  /-- The last slice ends with it. -/
  last : ∀ p, (t.owner k).ptr = some p → p + (t.owner k).count = t.used
  /-- A slice ends before the next one starts. -/
  apart : ∀ c d p q, c < d → (t.owner c).ptr = some p → (t.owner d).ptr = some q →
    p + (t.owner c).count ≤ q

theorem Ordered.empty (x : α) (k : Nat) : Ordered (Slab.empty x) k where
  fresh := fun _ _ => rfl
  null := fun _ _ => rfl
  inside := fun _ _ h => by simp [Slab.empty] at h
  last := fun _ h => by simp [Slab.empty] at h
  apart := fun _ _ _ _ _ h => by simp [Slab.empty] at h

variable (h : Ordered t k)
include h

theorem Ordered.later {k' : Nat} (hk : k ≤ k') : Ordered t k' := by
  refine ⟨fun c hc => h.fresh c (by omega), h.null, h.inside, ?_, h.apart⟩
  intro p hp
  by_cases hkk : k = k'
  · subst hkk
    exact h.last p hp
  · rw [h.fresh k' (by omega)] at hp
    simp at hp

/-- The entry the last owner gets is the first free one. -/
theorem Ordered.assign_next_eq : (t.assign k).next k = t.used := by
  rw [assign_next]
  cases hp : (t.owner k).ptr with
  | none => simp [h.null k hp]
  | some p => simpa using h.last p hp

theorem Ordered.add (x : α) : Ordered (t.add k x) k := by
  have hstart : (t.owner k).ptr.getD t.used + (t.owner k).count = t.used := by
    rw [← assign_next, h.assign_next_eq]
  refine ⟨?_, ?_, ?_, ?_, ?_⟩
  · intro c hc
    rw [add_owner_ne t x (by omega)]
    exact h.fresh c hc
  · intro c hc
    by_cases hck : c = k
    · subst hck
      simp [add_owner_self] at hc
    · rw [add_owner_ne t x hck] at hc ⊢
      exact h.null c hc
  · intro c p hp
    by_cases hck : c = k
    · subst hck
      simp only [add_owner_self, Option.some.injEq, add_used] at hp ⊢
      omega
    · rw [add_owner_ne t x hck] at hp ⊢
      have := h.inside c p hp
      simp only [add_used]
      omega
  · intro p hp
    simp only [add_owner_self, Option.some.injEq, add_used] at hp ⊢
    omega
  · intro c d p q hcd hp hq
    have hdk : d ≤ k := by
      by_contra hlt
      rw [add_owner_ne t x (by omega), h.fresh d (by omega)] at hq
      simp at hq
    rw [add_owner_ne t x (by omega)] at hp ⊢
    by_cases hd : d = k
    · subst hd
      simp only [add_owner_self, Option.some.injEq] at hq
      subst hq
      cases hptr : (t.owner d).ptr with
      | none => simpa using h.inside c p hp
      | some q' => simpa using h.apart c d p q' hcd hp hptr
    · rw [add_owner_ne t x hd] at hq
      exact h.apart c d p q hcd hp hq

/-- No index belongs to two owners. -/
theorem Ordered.covers_disjoint {c d i : Nat} (hcd : c ≠ d) (hc : t.Covers c i) :
    ¬ t.Covers d i := by
  -- an owner that covers an index has a pointer
  have hptr : ∀ c, t.Covers c i → ∃ p, (t.owner c).ptr = some p ∧ p ≤ i ∧
      i < p + (t.owner c).count := by
    intro c hc
    cases hp : (t.owner c).ptr with
    | none => simp [Covers, next, hp, h.null c hp] at hc
    | some p => exact ⟨p, rfl, by simpa [Covers, next, hp] using hc⟩
  intro hd
  obtain ⟨p, hp, hpi, hip⟩ := hptr c hc
  obtain ⟨q, hq, hqi, hiq⟩ := hptr d hd
  rcases Nat.lt_or_gt_of_ne hcd with hlt | hlt
  · have := h.apart c d p q hlt hp hq
    omega
  · have := h.apart d c q p hlt hq hp
    omega

/-! ### The entries themselves -/

theorem Ordered.slice_add_ne {c : Nat} (x : α) (hc : c ≠ k) : (t.add k x).slice c = t.slice c := by
  unfold slice
  rw [add_owner_ne t x hc, add_list, h.assign_next_eq]
  refine List.map_congr_left ?_
  intro i hi
  rw [List.mem_range] at hi
  cases hp : (t.owner c).ptr with
  | none => simp [h.null c hp] at hi
  | some p =>
    have := h.inside c p hp
    exact Function.update_of_ne (by simp; omega) ..

theorem Ordered.slice_add_self (x : α) : (t.add k x).slice k = t.slice k ++ [x] := by
  have hstart : (t.owner k).ptr.getD t.used + (t.owner k).count = t.used := by
    rw [← assign_next, h.assign_next_eq]
  unfold slice
  rw [add_owner_self, add_list, h.assign_next_eq, List.range_succ, List.map_append]
  congr 1
  · refine List.map_congr_left ?_
    intro i hi
    rw [List.mem_range] at hi
    have hp : (t.owner k).ptr.getD t.used = (t.owner k).ptr.getD 0 := by
      cases hp : (t.owner k).ptr with
      | none => simp [h.null k hp] at hi
      | some p => rfl
    rw [Option.getD_some, Function.update_of_ne (by omega), hp]
  · simp [hstart]

end Slab
