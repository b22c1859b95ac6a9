/-
Storing a list of words at consecutive addresses.

An entry of the list may be missing: the address is passed over and keeps what it holds.
-/
import Mathlib.Logic.Function.Basic

namespace Block

variable {α : Type} {a : Nat}

def store (mem : Nat → α) : Nat → List (Option α) → Nat → α
  | _, [] => mem
  | start, none :: rest => store mem (start + 1) rest
  | start, some w :: rest => Function.update (store mem (start + 1) rest) start w

theorem store_of_lt (mem : Nat → α) : ∀ (ws : List (Option α)) {start : Nat}, a < start →
    store mem start ws a = mem a := by
  intro ws
  induction ws with
  | nil => intro start _; rfl
  | cons w rest ih =>
    intro start h
    cases w with
    | none => exact ih (Nat.lt_succ_of_lt h)
    | some w =>
      rw [store, Function.update_of_ne (Nat.ne_of_lt h)]
      exact ih (Nat.lt_succ_of_lt h)

theorem store_of_ge (mem : Nat → α) : ∀ (ws : List (Option α)) {start : Nat},
    start + ws.length ≤ a → store mem start ws a = mem a := by
  intro ws
  induction ws with
  | nil => intro start _; rfl
  | cons w rest ih =>
    intro start h
    rw [List.length_cons] at h
    cases w with
    | none => exact ih (by omega)
    | some w =>
      rw [store, Function.update_of_ne (by omega)]
      exact ih (by omega)

theorem store_some (mem : Nat → α) {w : α} : ∀ (ws : List (Option α)) {start i : Nat},
    ws[i]? = some (some w) → store mem start ws (start + i) = w := by
  intro ws
  induction ws with
  | nil => intro start i h; simp at h
  | cons w' rest ih =>
    intro start i h
    cases i with
    | zero =>
      obtain rfl : w' = some w := by simpa using h
      exact Function.update_self ..
    | succ i =>
      have hi : rest[i]? = some (some w) := by simpa using h
      have heq : start + (i + 1) = start + 1 + i := by omega
      cases w' with
      | none =>
        rw [heq]
        exact ih hi
      | some w' =>
        rw [store, Function.update_of_ne (by omega), heq]
        exact ih hi

end Block
