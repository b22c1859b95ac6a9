/-
Devices that count their users.

A driver lets several users have one device: it counts them, starts the device for the first and
stops it with the last.  Beside the driver a `Log` counts what it should have counted: the calls
that were granted, and those that gave the device back while somebody had it.  The `Law` of the
driver is that the two counts agree, that the device runs exactly while it has users, and that no
call that came to nothing has disturbed it.

A driver keeps the law over a run exactly if it keeps it at every call, and `Rules` says which calls
these are.
-/
import Embarc.Lib.Run

namespace Counted

open Trace (Runs Always)

/-- A driver: its two calls, the users it has on record, whether the device runs, what of the device
can be seen, and which results of a call grant the device. -/
structure Driver (σ α β ρ χ η : Type) where
  acquire : α → σ → Except η (ρ × σ)
  release : β → σ → Except η (ρ × σ)
  count : σ → Nat
  running : σ → Bool
  hardware : σ → χ
  granted : ρ → Bool

inductive Call (α β : Type) where
  | acquire (a : α)
  | release (b : β)

/-- The driver, and what has happened so far. -/
structure Log (σ : Type) where
  dev : σ
  acquired : Nat
  released : Nat
  /-- A call that was not granted, or gave back what nobody had, has changed something. -/
  disturbed : Bool

def Log.start {σ : Type} (s : σ) : Log σ :=
  { dev := s, acquired := 0, released := 0, disturbed := false }

section Driver

variable {σ α β ρ χ η : Type} [DecidableEq χ] (D : Driver σ α β ρ χ η) {s : σ}

namespace Driver

def disturbs (s s' : σ) : Bool := D.count s' ≠ D.count s ∨ D.hardware s' ≠ D.hardware s

def call (s : σ) : Call α β → Except η (ρ × σ)
  | .acquire a => D.acquire a s
  | .release b => D.release b s

/-- A call has returned `r` and left `s` behind. -/
def record (l : Log σ) (r : ρ) (s : σ) : Call α β → Log σ
  | .acquire _ =>
    if D.granted r then { l with dev := s, acquired := l.acquired + 1 }
    else { l with dev := s, disturbed := l.disturbed || D.disturbs l.dev s }
  | .release _ =>
    if 0 < D.count l.dev then { l with dev := s, released := l.released + 1 }
    else { l with dev := s, disturbed := l.disturbed || D.disturbs l.dev s }

def step (l : Log σ) (c : Call α β) : Except η (Log σ) :=
  (D.call l.dev c).map fun r => D.record l r.1 r.2 c

/-- The device runs exactly while it has users. -/
def Serves (s : σ) : Prop := D.running s = true ↔ 0 < D.count s

structure Law (l : Log σ) : Prop where
  balance : D.count l.dev + l.released = l.acquired
  serves : D.Serves l.dev
  undisturbed : l.disturbed = false

def Right (s : σ) (r : ρ) (s' : σ) : Call α β → Prop
  | .acquire _ =>
    (if D.granted r then D.count s' = D.count s + 1 else D.disturbs s s' = false) ∧ D.Serves s'
  | .release _ =>
    (if 0 < D.count s then D.count s' + 1 = D.count s else D.disturbs s s' = false) ∧ D.Serves s'

variable {D}

theorem count_of_undisturbed {s' : σ} (h : D.disturbs s s' = false) : D.count s' = D.count s := by
  simp only [disturbs, decide_eq_false_iff_not, not_or, not_not] at h
  exact h.1

omit [DecidableEq χ] in
theorem law_counted_iff {l : Log σ} {s : σ} {acquired released : Nat} (h : D.Law l) :
    D.Law { l with dev := s, acquired, released } ↔
      D.count s + released = acquired ∧ D.Serves s :=
  ⟨fun hl => ⟨hl.balance, hl.serves⟩, fun hr => ⟨hr.1, hr.2, h.undisturbed⟩⟩

theorem law_refused_iff {l : Log σ} {s : σ} (h : D.Law l) :
    D.Law { l with dev := s, disturbed := l.disturbed || D.disturbs l.dev s } ↔
      D.disturbs l.dev s = false ∧ D.Serves s := by
  refine ⟨fun hl => ⟨?_, hl.serves⟩, fun hr => ⟨?_, hr.2, ?_⟩⟩
  · exact (Bool.or_eq_false_iff.mp hl.undisturbed).2
  · exact (count_of_undisturbed hr.1).symm ▸ h.balance
  · exact Bool.or_eq_false_iff.mpr ⟨h.undisturbed, hr.1⟩

theorem law_record_iff {l : Log σ} (h : D.Law l) (r : ρ) (s : σ) (c : Call α β) :
    D.Law (D.record l r s c) ↔ D.Right l.dev r s c := by
  have hbalance := h.balance
  cases c with simp only [record, Right]
  | acquire a =>
    by_cases hr : D.granted r = true
    · rw [if_pos hr, if_pos hr, law_counted_iff h]
      exact and_congr_left' (by omega)
    · rw [if_neg hr, if_neg hr, law_refused_iff h]
  | release b =>
    by_cases hpos : 0 < D.count l.dev
    · rw [if_pos hpos, if_pos hpos, law_counted_iff h]
      exact and_congr_left' (by omega)
    · rw [if_neg hpos, if_neg hpos, law_refused_iff h]

end Driver

/-- Among the calls with `base`, those with `kept` are as they should be, and go through. -/
structure Rules (base kept : σ → Call α β → Prop) : Prop where
  right_iff : ∀ s c r s', D.Serves s → base s c → D.call s c = .ok (r, s') →
    (D.Right s r s' c ↔ kept s c)
  goesThrough : ∀ s c, D.Serves s → base s c → kept s c → ∃ r, D.call s c = .ok r

/-- Over every run the law holds all along exactly if all calls have `kept`, and then the next of
these goes through. -/
def Keeps (base kept : σ → Call α β → Prop) (s : σ) : Prop :=
  ∀ es l, Runs D.step (fun l c => base l.dev c) (.start s) es l →
    (Always D.step D.Law (.start s) es l ↔
      Runs D.step (fun l c => base l.dev c ∧ kept l.dev c) (.start s) es l) ∧
    (D.Law l → ∀ c, base l.dev c → kept l.dev c → ∃ l', D.step l c = .ok l')

variable {D}

theorem Rules.keeps {base kept : σ → Call α β → Prop} (h : Rules D base kept)
    (hcount : D.count s = 0) (hrunning : D.running s = false) : Keeps D base kept s := by
  intro es l hrun
  have hstart : D.Law (.start s) := by
    refine ⟨by simp [Log.start, hcount], ?_, rfl⟩
    simp [Driver.Serves, Log.start, hcount, hrunning]
  refine ⟨hrun.always_iff_of (I := fun _ => True) (fun _ _ _ _ _ _ _ => trivial) ?_ trivial hstart, ?_⟩
  · intro l c l' _ hlaw hbase hstep
    obtain ⟨⟨r, s'⟩, hcall, rfl⟩ : ∃ r, D.call l.dev c = .ok r ∧ D.record l r.1 r.2 c = l' := by
      obtain ⟨r, hcall, hr⟩ := Except.exists_of_map_eq_ok hstep
      exact ⟨r, hcall, hr⟩
    exact (Driver.law_record_iff hlaw r s' c).trans (h.right_iff l.dev c r s' hlaw.serves hbase hcall)
  · intro hlaw c hbase hkept
    obtain ⟨r, hcall⟩ := h.goesThrough l.dev c hlaw.serves hbase hkept
    exact ⟨_, by rw [Driver.step, hcall]; rfl⟩

end Driver

end Counted
