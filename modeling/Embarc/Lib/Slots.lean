/-
Commands that fill slots.

A component has slots that can be filled, and it takes commands that fill some of them.  What a
list of commands leaves in a slot is decided by the last of them that fills it, and if none does
the slot is what it was before: so filling a slot before the commands, or behind them, leads to the
same only if they leave it alone or fill it with the same.
-/
import Embarc.Lib.Run

open Trace (Runs)

section Commands

variable {σ κ β : Type}

/-- What the last command that sets something sets. -/
def lastSet (sets : κ → Option β) (cmds : List κ) : Option β :=
  cmds.foldl (fun cur cmd => (sets cmd).or cur) none

/-- The commands one after the other. -/
def issue (step : σ → κ → σ) (cmds : List κ) (s : σ) : σ := cmds.foldl step s

/-- The commands are issued and each meets `ok` where it is. -/
abbrev Issued (step : σ → κ → σ) (ok : σ → κ → Prop) : σ → List κ → σ → Prop :=
  Runs (fun s cmd => (.ok (step s cmd) : Except Empty σ)) ok

variable {step : σ → κ → σ} {ok : σ → κ → Prop} {s s' : σ} {cmds : List κ}

/-- What is set is kept in step with the state. -/
theorem Issued.lastSet (h : Issued step ok s cmds s') (sets : κ → Option β)
    (R : Option β → σ → Prop)
    (hpres : ∀ cur s cmd, R cur s → ok s cmd → R ((sets cmd).or cur) (step s cmd))
    (hs : R none s) : R (lastSet sets cmds) s' := by
  refine Runs.track (fun cur s cmd s' hcur hok hstep => ?_) h hs
  cases hstep
  exact hpres cur s cmd hcur hok

end Commands

/-! A command that does nothing but fill slot `j` meets what is asked of the commands below. -/

section Fill

variable {σ ι β : Type} [DecidableEq ι] {put : σ → ι → β → σ}

theorem put_fill (put_put : ∀ s i b b', put (put s i b) i b' = put s i b')
    (put_comm : ∀ s i j b b', i ≠ j → put (put s i b) j b' = put (put s j b') i b)
    (s : σ) (i j : ι) (b b' : β) :
    put (put s i b) j b' = put (put s j b') i ((if j = i then some b' else none).getD b) := by
  by_cases hij : j = i
  · subst hij
    rw [if_pos rfl, Option.getD_some, put_put, put_put]
  · rw [if_neg hij, Option.getD_none]
    exact put_comm s i j b b' (Ne.symm hij)

theorem fill_put (put_put : ∀ s i b b', put (put s i b) i b' = put s i b') (s : σ) {i j : ι}
    {b b' : β} (h : (if j = i then some b' else none) = some b) :
    put (put s j b') i b = put s j b' := by
  split at h
  case isTrue hij =>
    cases h
    rw [hij, put_put]
  case isFalse => exact absurd h (by simp)

end Fill

/-- Slots `ι` for values `β`, with the commands that fill them. -/
structure Slots {σ κ : Type} (step : σ → κ → σ) (ok : σ → κ → Prop) (ι β : Type) where
  put : σ → ι → β → σ
  fills : ι → κ → Option β
  put_put : ∀ s i b b', put (put s i b) i b' = put s i b'
  put_comm : ∀ s i j b b', i ≠ j → put (put s i b) j b' = put (put s j b') i b
  put_inj : ∀ s i b b', put s i b = put s i b' → b = b'
  /-- What was in a slot before matters to no other part of the state. -/
  step_put : ∀ s i b cmd, ok s cmd →
    step (put s i b) cmd = put (step s cmd) i ((fills i cmd).getD b)
  step_fills : ∀ s i b cmd, ok s cmd → fills i cmd = some b → put (step s cmd) i b = step s cmd

namespace Slots

variable {σ κ ι β : Type} {step : σ → κ → σ} {ok : σ → κ → Prop} (S : Slots step ok ι β)
  {s s' : σ} {cmds : List κ} {i : ι} {b c : β}

/-- What the commands leave in slot `i`. -/
def last (i : ι) (cmds : List κ) : Option β := lastSet (S.fills i) cmds

/-- Slot `i` is as if `b` had just been put there. -/
def Holds (s : σ) (i : ι) (b : β) : Prop := S.put s i b = s

theorem holds_last (h : Issued step ok s cmds s') (hb : S.last i cmds = some b) :
    S.Holds s' i b := by
  refine h.lastSet (S.fills i) (fun cur s => ∀ b, cur = some b → S.Holds s i b)
    (fun cur s cmd hcur hok b hb => ?_) (fun b hb => absurd hb (by simp)) b hb
  cases hfills : S.fills i cmd with
  | some b' =>
    rw [hfills, Option.some_or] at hb
    cases hb
    exact S.step_fills s i b cmd hok hfills
  | none =>
    rw [hfills, Option.none_or] at hb
    have hstep := S.step_put s i b cmd hok
    rw [hcur b hb, hfills] at hstep
    exact hstep.symm

theorem issue_put (h : Issued step ok s cmds s') (i : ι) (b : β) :
    issue step cmds (S.put s i b) = S.put s' i ((S.last i cmds).getD b) := by
  suffices hall : ∀ cur, issue step cmds (S.put s i (cur.getD b)) =
      S.put s' i ((cmds.foldl (fun cur cmd => (S.fills i cmd).or cur) cur).getD b) from hall none
  induction h with
  | nil => exact fun cur => rfl
  | @cons s s₁ s' cmd cmds hok hstep _ ih =>
    intro cur
    cases hstep
    have hnext := S.step_put s i (cur.getD b) cmd hok
    rw [← Option.getD_or] at hnext
    show issue step cmds (step (S.put s i (cur.getD b)) cmd) = _
    rw [hnext]
    exact ih _

/-- A slot that is filled behind the commands loses what they have put there. -/
theorem holds_put_iff (h : ∀ j b, i ≠ j → S.last j cmds = some b → S.Holds s j b) :
    (∀ j b, S.last j cmds = some b → S.Holds (S.put s i c) j b) ↔
      ∀ b, S.last i cmds = some b → b = c := by
  constructor
  · intro hholds b hb
    have hput := hholds i b hb
    rw [Holds, S.put_put] at hput
    exact S.put_inj s i b c hput
  · intro hsame j b hb
    by_cases hij : i = j
    · subst hij
      rw [Holds, S.put_put, hsame b hb]
    · rw [Holds, S.put_comm s i j c b hij, h j b hij hb]

/-- If they have put nothing else there, the commands may as well be issued behind it. -/
theorem put_eq_issue (h : Issued step ok s cmds s') (hsame : ∀ b, S.last i cmds = some b → b = c) :
    S.put s' i c = issue step cmds (S.put s i c) := by
  have hget : (S.last i cmds).getD c = c := by
    cases hlast : S.last i cmds with
    | none => rfl
    | some b => exact hsame b hlast
  rw [S.issue_put h, hget]

end Slots
