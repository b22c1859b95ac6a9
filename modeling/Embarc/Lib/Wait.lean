/-
Waiting for other steps.

A routine waits in a loop for something that only other steps change.  It gets out of the loop
whatever these are if three things are true: there are only so many steps that can be taken while
it waits; as long as it waits there is a step to take; and what it finds in the end is what it
should be.  `Ends` says so, and it follows from a measure that every step lowers.
-/
import Embarc.Lib.Run

namespace Trace

variable {σ ε η : Type} {step : σ → ε → Except η σ} {ok : σ → ε → Prop} {I : List ε → σ → Prop}
  {s : σ} {es : List ε} {waits : σ → Prop}

theorem Runs.invariant_log
    (hpres : ∀ es s e s', I es s → ok s e → step s e = .ok s' → I (es ++ [e]) s') {s' : σ}
    {before : List ε} (h : Runs step ok s es s') (hs : I before s) : I (before ++ es) s' := by
  induction h generalizing before with
  | nil =>
    rw [List.append_nil]
    exact hs
  | cons hok hstep _ ih =>
    have hnext := ih (hpres _ _ _ _ hs hok hstep)
    rwa [List.append_assoc] at hnext

/-- Where every step lowers a measure, there are no more steps than it counts. -/
theorem Runs.length_le {I : σ → Prop} (μ : σ → Nat)
    (hlower : ∀ s e s', I s → ok s e → step s e = .ok s' → I s' ∧ μ s' < μ s) {s' : σ}
    (h : Runs step ok s es s') (hs : I s) : es.length + μ s' ≤ μ s := by
  induction h with
  | nil => simp
  | cons hok hstep _ ih =>
    obtain ⟨hnext, hless⟩ := hlower _ _ _ hs hok hstep
    have hrest := ih hnext
    rw [List.length_cons]
    omega

variable (step ok) in
/-- A wait that begins in `s` ends, in a state that `Q` holds of together with the steps taken. -/
structure Ends (waits : σ → Prop) (s : σ) (Q : List ε → σ → Prop) : Prop where
  bounded : ∃ n, ∀ es s', Runs step (fun s e => waits s ∧ ok s e) s es s' → es.length ≤ n
  goesOn : ∀ es s', Runs step (fun s e => waits s ∧ ok s e) s es s' → waits s' →
    ∃ e s'', ok s' e ∧ step s' e = .ok s''
  result : ∀ es s', Runs step (fun s e => waits s ∧ ok s e) s es s' → ¬ waits s' → Q es s'

theorem Ends.mono {Q Q' : List ε → σ → Prop} (h : Ends step ok waits s Q)
    (hle : ∀ es s, Q es s → Q' es s) : Ends step ok waits s Q' :=
  ⟨h.bounded, h.goesOn, fun es s' hrun hends => hle es s' (h.result es s' hrun hends)⟩

theorem Ends.of_measure {Q : List ε → σ → Prop} (μ : σ → Nat)
    (hlower : ∀ es s e s', I es s → waits s → ok s e → step s e = .ok s' →
      I (es ++ [e]) s' ∧ μ s' < μ s)
    (hgo : ∀ es s, I es s → waits s → ∃ e s', ok s e ∧ step s e = .ok s')
    (hend : ∀ es s, I es s → ¬ waits s → Q es s) (hs : I [] s) : Ends step ok waits s Q := by
  have hI : ∀ es s', Runs step (fun s e => waits s ∧ ok s e) s es s' → I es s' := by
    intro es s' h
    exact h.invariant_log (fun es s e s' hi hok hstep => (hlower es s e s' hi hok.1 hok.2 hstep).1)
      hs
  refine ⟨⟨μ s, fun es s' h => ?_⟩, fun es s' h => hgo es s' (hI es s' h),
    fun es s' h => hend es s' (hI es s' h)⟩
  have hlength := h.length_le (I := fun s => ∃ es, I es s) μ
    (fun s e s' ⟨es, hi⟩ hok hstep =>
      have hboth := hlower es s e s' hi hok.1 hok.2 hstep
      ⟨⟨_, hboth.1⟩, hboth.2⟩) ⟨[], hs⟩
  omega

end Trace
