/-
Flash memory.

Programming a cell can only clear bits: the cell becomes the conjunction of what it held and
what is written.  Erasing sets all bits, of a whole block.  So a range can be overwritten in
place exactly where it is erased, and a block as a whole after it was erased.

A memory is a function from positions to cells.  Everything is stated cell by cell, through
`placed`: what a list of cells laid at a position has at another.
-/
import Mathlib.Data.List.Basic
import Mathlib.Data.BitVec

namespace Flash

variable {α : Type} {w : Nat} {a off : Nat} {d : List (BitVec w)} {m : Nat → BitVec w}

/-! ### Cells laid at a position -/

/-- The cell the list `d`, laid at `a`, has at `x`. -/
def placed (a : Nat) (d : List α) (x : Nat) : Option α := if a ≤ x then d[x - a]? else none

theorem placed_nil (a x : Nat) : placed a ([] : List α) x = none := by simp [placed]

theorem placed_of_lt {x : Nat} (d : List α) (h : x < a) : placed a d x = none :=
  if_neg (Nat.not_le_of_lt h)

theorem placed_of_le {x : Nat} (d : List α) (h : a + d.length ≤ x) : placed a d x = none := by
  unfold placed
  split
  · exact List.getElem?_eq_none (by omega)
  · rfl

theorem placed_eq_some {x : Nat} {d : List α} (h : a ≤ x) (hx : x < a + d.length) :
    placed a d x = some d[x - a] := by
  rw [placed, if_pos h, List.getElem?_eq_getElem]

theorem placed_append (a : Nat) (d e : List α) (x : Nat) :
    placed a (d ++ e) x = (placed a d x).or (placed (a + d.length) e x) := by
  by_cases hlow : x < a
  · rw [placed_of_lt _ hlow, placed_of_lt _ hlow, placed_of_lt _ (by omega)]
    rfl
  · by_cases hd : x < a + d.length
    · rw [placed_eq_some (by omega) (by rw [List.length_append]; omega),
        placed_eq_some (by omega) hd, List.getElem_append_left (by omega)]
      rfl
    · rw [placed_of_le d (by omega), Option.none_or, placed, placed, if_pos (by omega),
        if_pos (by omega), List.getElem?_append_right (by omega)]
      congr 1
      omega

/-! ### Reading and overwriting -/

/-- The `n` cells from `a` on. -/
def read (m : Nat → α) (a n : Nat) : List α := (List.range n).map fun i => m (a + i)

/-- The memory with the cells from `a` on replaced. -/
def overwrite (m : Nat → α) (a : Nat) (d : List α) : Nat → α := fun x => (placed a d x).getD (m x)

@[simp] theorem length_read (m : Nat → α) (a n : Nat) : (read m a n).length = n := by simp [read]

theorem read_add (m : Nat → α) (a n k : Nat) :
    read m a (n + k) = read m a n ++ read m (a + n) k := by
  simp only [read, List.range_add, List.map_append, List.map_map]
  congr 1
  exact List.map_congr_left fun i _ => by simp [Nat.add_assoc]

theorem placed_read {m : Nat → α} {n x : Nat} (h : a ≤ x) (hx : x < a + n) :
    placed a (read m a n) x = some (m x) := by
  rw [placed_eq_some h (by rw [length_read]; exact hx)]
  simp [read, Nat.add_sub_cancel' h]

theorem overwrite_append (m : Nat → α) (a : Nat) (d e : List α) :
    overwrite m a (d ++ e) = overwrite (overwrite m a d) (a + d.length) e := by
  funext x
  simp only [overwrite, placed_append]
  by_cases hx : a + d.length ≤ x
  · rw [placed_of_le d hx, Option.none_or, Option.getD_none]
  · rw [placed_of_lt e (by omega), Option.or_none, Option.getD_none]

/-- Cells `d` put into the list `l` at `off`. -/
def patch (l : List α) (off : Nat) (d : List α) : List α :=
  l.take off ++ d ++ l.drop (off + d.length)

theorem length_patch {l : List α} {d : List α} (h : off + d.length ≤ l.length) :
    (patch l off d).length = l.length := by
  simp only [patch, List.length_append, List.length_take, List.length_drop]
  omega

theorem overwrite_patch_read {m : Nat → α} {n : Nat} {d : List α} (h : off + d.length ≤ n) :
    overwrite m a (patch (read m a n) off d) = overwrite m (a + off) d := by
  have hsplit : read m a n = read m a off ++ (read m (a + off) d.length ++
      read m (a + off + d.length) (n - off - d.length)) := by
    rw [← read_add, ← read_add]
    congr 1
    omega
  have htake : (read m a n).take off = read m a off := by
    rw [hsplit, List.take_left' (length_read ..)]
  have hdrop : (read m a n).drop (off + d.length) =
      read m (a + off + d.length) (n - off - d.length) := by
    rw [hsplit, ← List.append_assoc, List.drop_left' (by simp)]
  -- reading cells and putting them back where they were changes nothing
  have hback : ∀ (m' : Nat → α) (b k : Nat), (∀ x, b ≤ x → x < b + k → m' x = m x) →
      overwrite m' b (read m b k) = m' := by
    intro m' b k hsame
    funext x
    by_cases hx : b ≤ x ∧ x < b + k
    · rw [overwrite, placed_read hx.1 hx.2, Option.getD_some, hsame x hx.1 hx.2]
    · by_cases hlow : x < b
      · rw [overwrite, placed_of_lt _ hlow, Option.getD_none]
      · rw [overwrite, placed_of_le _ (by rw [length_read]; omega), Option.getD_none]
  rw [patch, htake, hdrop, overwrite_append, overwrite_append, hback m a off fun _ _ _ => rfl,
    length_read]
  have hlen : a + (read m a off ++ d).length = a + off + d.length := by
    rw [List.length_append, length_read, Nat.add_assoc]
  rw [hlen, hback _ _ _ fun x hx _ => by rw [overwrite, placed_of_le d hx, Option.getD_none]]

/-! ### Programming and erasing -/

/-- Cells `d` programmed from `a` on. -/
def program (m : Nat → BitVec w) (a : Nat) (d : List (BitVec w)) : Nat → BitVec w :=
  fun x => (placed a d x).elim (m x) fun b => m x &&& b

/-- The block of `size` cells that `a` lies in, erased. -/
def eraseBlock (size : Nat) (m : Nat → BitVec w) (a : Nat) : Nat → BitVec w :=
  fun x => if x / size = a / size then BitVec.allOnes w else m x

theorem program_nil (m : Nat → BitVec w) (a : Nat) : program m a [] = m := by
  funext x
  rw [program, placed_nil]
  rfl

theorem program_append (m : Nat → BitVec w) (a : Nat) (d e : List (BitVec w)) :
    program m a (d ++ e) = program (program m a d) (a + d.length) e := by
  funext x
  simp only [program, placed_append]
  by_cases hx : a + d.length ≤ x
  · rw [placed_of_le d hx, Option.none_or, Option.elim_none]
  · rw [placed_of_lt e (by omega), Option.or_none, Option.elim_none]

theorem program_eq_overwrite (h : ∀ x, a ≤ x → x < a + d.length → m x = BitVec.allOnes w) :
    program m a d = overwrite m a d := by
  funext x
  by_cases hx : a ≤ x ∧ x < a + d.length
  · simp only [program, overwrite, placed_eq_some hx.1 hx.2, Option.elim_some, Option.getD_some,
      h x hx.1 hx.2, BitVec.allOnes_and]
  · have hnone : placed a d x = none := by
      by_cases hlow : x < a
      · exact placed_of_lt d hlow
      · exact placed_of_le d (by omega)
    rw [program, overwrite, hnone]
    rfl

theorem program_eraseBlock {size k : Nat} (hpos : 0 < size) (hd : d.length = size) :
    program (eraseBlock size m (k * size)) (k * size) d = overwrite m (k * size) d := by
  -- the block is the range that is programmed
  have hblock : ∀ x, x / size = k * size / size ↔ k * size ≤ x ∧ x < k * size + d.length := by
    intro x
    rw [Nat.mul_div_cancel k hpos, Nat.div_eq_iff hpos, hd]
    omega
  have herased : ∀ x, k * size ≤ x → x < k * size + d.length →
      eraseBlock size m (k * size) x = BitVec.allOnes w :=
    fun x hlow hhigh => if_pos ((hblock x).mpr ⟨hlow, hhigh⟩)
  rw [program_eq_overwrite herased]
  funext x
  by_cases hx : k * size ≤ x ∧ x < k * size + d.length
  · rw [overwrite, overwrite, placed_eq_some hx.1 hx.2, Option.getD_some, Option.getD_some]
  · rw [overwrite, overwrite, eraseBlock, if_neg fun h => hx ((hblock x).mp h)]

/-- Page programming: the position goes round inside the page. -/
def pageProgram (page : Nat) (m : Nat → BitVec w) (a : Nat) : List (BitVec w) → Nat → BitVec w
  | [] => m
  | b :: d => pageProgram page (program m a [b]) (a / page * page + (a + 1) % page) d

theorem pageProgram_eq {page : Nat} (h : a % page + d.length ≤ page) :
    pageProgram page m a d = program m a d := by
  induction d generalizing m a with
  | nil => rw [pageProgram, program_nil]
  | cons b d ih =>
    rw [List.length_cons] at h
    rw [pageProgram]
    have hcons : program m a (b :: d) = program (program m a [b]) (a + 1) d :=
      program_append m a [b] d
    rw [hcons]
    cases d with
    | nil => rw [pageProgram, program_nil]
    | cons c d =>
      rw [List.length_cons] at h
      have hnext : (a + 1) % page = a % page + 1 := by
        rw [Nat.add_mod, Nat.mod_eq_of_lt (by omega : 1 < page), Nat.mod_eq_of_lt (by omega)]
      have hpos : a / page * page + (a + 1) % page = a + 1 := by
        rw [hnext, ← Nat.add_assoc, Nat.div_add_mod']
      rw [hpos]
      exact ih (by rw [hnext, List.length_cons]; omega)

end Flash
