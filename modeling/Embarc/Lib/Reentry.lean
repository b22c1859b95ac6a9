/-
Components that call back.

A routine of such a component runs until it returns or calls a function of its user, and the user
may enter the component again before that function returns.  What is left of a routine that waits
for a call to return is a frame.  The frames lie on a stack: the routine that called last goes on
first.

A state of the machine below is one in which no routine of the component is running.  The user
enters the component, or the function that was called last returns and what the frame on top of the
stack says is done, with whatever the component reads from its surroundings then.
-/
import Embarc.Lib.Run

open Trace (Runs Always)

namespace Reentry

variable {σ φ ε ι η : Type}

/-- How far a routine gets: to its end, or to a call with something left to do. -/
inductive Task (σ φ : Type) where
  | done (s : σ)
  | calls (s : σ) (rest : φ)

def Task.state : Task σ φ → σ
  | .done s => s
  | .calls s _ => s

@[simp] theorem Task.state_done (s : σ) : (Task.done s : Task σ φ).state = s := rfl

@[simp] theorem Task.state_calls (s : σ) (rest : φ) : (Task.calls s rest).state = s := rfl

/-- The component and what its routines have left to do, the last one first. -/
structure State (σ φ : Type) where
  here : σ
  waiting : List φ

/-- A routine has got as far as it gets. -/
def Task.above (t : Task σ φ) (waiting : List φ) : State σ φ :=
  match t with
  | .done s => ⟨s, waiting⟩
  | .calls s rest => ⟨s, rest :: waiting⟩

@[simp] theorem Task.above_here (t : Task σ φ) (waiting : List φ) :
    (t.above waiting).here = t.state := by
  cases t <;> rfl

/-- The user enters the component, or the function that was called returns. -/
inductive Event (ε ι : Type) where
  | enter (e : ε)
  | leave (i : ι)

/-- Why there is no next state. -/
inductive Stop (η : Type) where
  /-- The component stops. -/
  | fault (e : η)
  /-- No function was called that could return. -/
  | idle

section Machine

variable (enter : σ → ε → Except η (Task σ φ)) (resume : φ → ι → σ → Except η (Task σ φ))

def step (s : State σ φ) : Event ε ι → Except (Stop η) (State σ φ)
  | .enter e =>
    match enter s.here e with
    | .ok t => .ok (t.above s.waiting)
    | .error e => .error (.fault e)
  | .leave i =>
    match s.waiting with
    | [] => .error .idle
    | rest :: waiting =>
      match resume rest i s.here with
      | .ok t => .ok (t.above waiting)
      | .error e => .error (.fault e)

end Machine

variable {enter : σ → ε → Except η (Task σ φ)} {resume : φ → ι → σ → Except η (Task σ φ)}
  {s s' : State σ φ}

theorem step_cases {ev : Event ε ι} (h : step enter resume s ev = .ok s') :
    (∃ e t, ev = .enter e ∧ enter s.here e = .ok t ∧ s' = t.above s.waiting) ∨
      ∃ i rest waiting t, ev = .leave i ∧ s.waiting = rest :: waiting ∧
        resume rest i s.here = .ok t ∧ s' = t.above waiting := by
  cases ev with simp only [step] at h
  | enter e =>
    split at h
    case h_1 t ht =>
      cases h
      exact Or.inl ⟨e, t, rfl, ht, rfl⟩
    case h_2 => exact absurd h (by simp)
  | leave i =>
    split at h
    case h_1 => exact absurd h (by simp)
    case h_2 rest waiting hwaiting =>
      split at h
      case h_1 t ht =>
        cases h
        exact Or.inr ⟨i, rest, waiting, t, rfl, hwaiting, ht, rfl⟩
      case h_2 => exact absurd h (by simp)

/-- A condition on what the user does, and on the state in which a routine goes on. -/
def Meets (okEnter : σ → ε → Prop) (okLeave : φ → ι → σ → Prop) (s : State σ φ) :
    Event ε ι → Prop
  | .enter e => okEnter s.here e
  | .leave i => ∀ rest ∈ s.waiting.head?, okLeave rest i s.here

instance {okEnter : σ → ε → Prop} {okLeave : φ → ι → σ → Prop} [∀ s e, Decidable (okEnter s e)]
    [∀ rest i s, Decidable (okLeave rest i s)] (s : State σ φ) (ev : Event ε ι) :
    Decidable (Meets okEnter okLeave s ev) :=
  match ev, s with
  | .enter e, s => inferInstanceAs (Decidable (okEnter s.here e))
  | .leave _, ⟨_, []⟩ => isTrue (by simp [Meets])
  | .leave i, ⟨here, rest :: _⟩ => decidable_of_iff (okLeave rest i here) (by simp [Meets])

section Always

variable {P : σ → Prop} {base okEnter : σ → ε → Prop} {okLeave : φ → ι → σ → Prop}
  {es : List (Event ε ι)}

/-- A property that a routine keeps, where it returns or calls, exactly if its condition is met,
holds whenever no routine is running exactly if every condition is met.  `base` is what the user
keeps to in any case. -/
theorem always_iff_of (henter : ∀ s e t, P s → base s e → enter s e = .ok t →
      (P t.state ↔ okEnter s e))
    (hleave : ∀ rest i s t, P s → resume rest i s = .ok t → (P t.state ↔ okLeave rest i s))
    (h : Runs (step enter resume) (Meets base fun _ _ _ => True) s es s') (hs : P s.here) :
    Always (step enter resume) (fun s => P s.here) s es s' ↔
      Runs (step enter resume) (Meets (fun s e => base s e ∧ okEnter s e) okLeave) s es s' := by
  have hkept : ∀ s ev s', True → P s.here → Meets base (fun _ _ _ => True) s ev →
      step enter resume s ev = .ok s' → (P s'.here ↔ Meets okEnter okLeave s ev) := by
    intro s ev s' _ hP hbase hstep
    obtain ⟨e, t, rfl, ht, rfl⟩ | ⟨i, rest, waiting, t, rfl, hwaiting, ht, rfl⟩ := step_cases hstep
    · rw [Task.above_here]
      exact henter s.here e t hP hbase ht
    · rw [Task.above_here, hleave rest i s.here t hP ht]
      simp [Meets, hwaiting]
  rw [h.always_iff_of (I := fun _ => True) (fun _ _ _ _ _ _ _ => trivial) hkept trivial hs]
  have hboth : ∀ s ev, Meets base (fun _ _ _ => True) s ev ∧ Meets okEnter okLeave s ev ↔
      Meets (fun s e => base s e ∧ okEnter s e) okLeave s ev := by
    intro s ev
    cases ev with
    | enter e => exact Iff.rfl
    | leave i => simp [Meets]
  exact ⟨fun h => h.mono fun s ev => (hboth s ev).mp, fun h => h.mono fun s ev => (hboth s ev).mpr⟩

theorem always_iff (henter : ∀ s e t, P s → enter s e = .ok t → (P t.state ↔ okEnter s e))
    (hleave : ∀ rest i s t, P s → resume rest i s = .ok t → (P t.state ↔ okLeave rest i s))
    (h : Runs (step enter resume) (fun _ _ => True) s es s') (hs : P s.here) :
    Always (step enter resume) (fun s => P s.here) s es s' ↔
      Runs (step enter resume) (Meets okEnter okLeave) s es s' := by
  have hany : Runs (step enter resume) (Meets (fun _ _ => True) fun _ _ _ => True) s es s' := by
    refine h.mono fun s ev _ => ?_
    cases ev with
    | enter e => trivial
    | leave i => exact fun _ _ => trivial
  rw [always_iff_of (fun s e t hP _ => henter s e t hP) hleave hany hs]
  simp only [true_and]

end Always

end Reentry
