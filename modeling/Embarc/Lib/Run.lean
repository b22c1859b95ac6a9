/-
Runs of a machine that can stop.

A step takes an event and either yields the next state or stops the machine with
an error, so it is a function into `Except`.  `Runs` strings steps together: each
event has to meet a condition in the state it is taken in, and no step may stop
the machine.  The condition is `fun _ _ => True` when a statement is about every
run, and names what a run has to keep to otherwise.

Everything proved about a run is proved once here, from what one step does.
-/
import Mathlib.Logic.Function.Basic

theorem of_ite {α : Type} {P : α → Prop} {c : Prop} [Decidable c] {a b : α} (ha : P a) (hb : P b) :
    P (if c then a else b) := by
  split
  · exact ha
  · exact hb

theorem of_ite_snd {α β : Type} {P : β → Prop} {c : Prop} [Decidable c] {a b : α × β}
    (ha : P a.2) (hb : P b.2) : P (if c then a else b).2 := by
  split
  · exact ha
  · exact hb

theorem Except.of_guard {η α : Type} {c : Prop} [Decidable c] {a b : α} {e : η}
    (h : (if c then .ok a else .error e) = Except.ok b) : c ∧ a = b := by
  split at h <;> cases h
  exact ⟨‹c›, rfl⟩

theorem Except.bind_eq_ok_iff {η α β : Type} {x : Except η α} {f : α → Except η β} {r : β} :
    (x >>= f) = .ok r ↔ ∃ a, x = .ok a ∧ f a = .ok r := by
  cases x with
  | error e => simp [bind, Except.bind]
  | ok a => simp [bind, Except.bind]

/-- What is known of the first half is enough for the second. -/
theorem Except.bind_of_ok {η α β : Type} {x : Except η α} {f : α → Except η β} {P : α → Prop}
    {R : Except η β → Prop} (hx : ∃ a, x = .ok a ∧ P a) (hf : ∀ a, P a → R (f a)) : R (x >>= f) := by
  obtain ⟨a, rfl, ha⟩ := hx
  exact hf a ha

theorem Except.exists_ok_bind {η α β : Type} {x : Except η α} {f : α → Except η β} {P : α → Prop}
    {Q : β → Prop} (hx : ∃ a, x = .ok a ∧ P a) (hf : ∀ a, P a → ∃ b, f a = .ok b ∧ Q b) :
    ∃ b, (x >>= f) = .ok b ∧ Q b :=
  bind_of_ok (R := fun y => ∃ b, y = .ok b ∧ Q b) hx hf

/-- A computation whose result is known up to a projection has a result. -/
theorem Except.exists_of_map_eq_ok {η α β : Type} {x : Except η α} {f : α → β} {v : β}
    (h : x.map f = .ok v) : ∃ a, x = .ok a ∧ f a = v := by
  cases x with
  | error e => simp [Except.map] at h
  | ok a => exact ⟨a, rfl, by simpa [Except.map] using h⟩

/-- Whether a computation succeeds with a result of some kind is found by running it. -/
instance Except.decidableExistsOk {η α : Type} (x : Except η α) (p : α → Prop) [DecidablePred p] :
    Decidable (∃ a, x = .ok a ∧ p a) :=
  match x with
  | .error _ => isFalse fun ⟨_, h, _⟩ => nomatch h
  | .ok a => decidable_of_iff (p a) ⟨fun h => ⟨a, rfl, h⟩, fun ⟨_, h, hp⟩ => Except.ok.inj h ▸ hp⟩

namespace Trace

variable {σ ε η : Type}

/-- From `s` the events are taken one after the other, each meeting `ok` where it
is taken, and the machine is in `s'` at the end without having stopped. -/
inductive Runs (step : σ → ε → Except η σ) (ok : σ → ε → Prop) : σ → List ε → σ → Prop
  | nil (s : σ) : Runs step ok s [] s
  | cons {s s₁ s' : σ} {e : ε} {es : List ε} (hok : ok s e) (hstep : step s e = .ok s₁)
      (h : Runs step ok s₁ es s') : Runs step ok s (e :: es) s'

variable {step : σ → ε → Except η σ} {ok : σ → ε → Prop}

/-- What every step preserves, a run preserves. -/
theorem Runs.invariant {I : σ → Prop}
    (hpres : ∀ s e s', I s → ok s e → step s e = .ok s' → I s') {s s' : σ} {es : List ε}
    (h : Runs step ok s es s') (hs : I s) : I s' := by
  induction h with
  | nil => exact hs
  | cons hok hstep _ ih => exact ih (hpres _ _ _ hs hok hstep)

/-- A weaker condition admits more runs. -/
theorem Runs.mono {ok' : σ → ε → Prop} (hle : ∀ s e, ok s e → ok' s e) {s s' : σ}
    {es : List ε} (h : Runs step ok s es s') : Runs step ok' s es s' := by
  induction h with
  | nil s => exact Runs.nil s
  | cons hok hstep _ ih => exact Runs.cons (hle _ _ hok) hstep ih

theorem Runs.any {s s' : σ} {es : List ε} (h : Runs step ok s es s') :
    Runs step (fun _ _ => True) s es s' :=
  h.mono fun _ _ _ => trivial

/-- What holds in every state that is reached may be used at every step. -/
theorem Runs.strengthen {P : σ → Prop} {s s' : σ} {es : List ε} (h : Runs step ok s es s')
    (hall : ∀ es s', Runs step ok s es s' → P s') :
    Runs step (fun s e => ok s e ∧ P s) s es s' := by
  induction h with
  | nil s => exact Runs.nil s
  | cons hok hstep _ ih =>
    have hhere := hall [] _ (Runs.nil _)
    exact Runs.cons ⟨hok, hhere⟩ hstep (ih fun es s' h => hall _ s' (Runs.cons hok hstep h))

/-- A value that is computed from the events alone is kept in step with the state. -/
theorem Runs.track {β : Type} {f : β → ε → β} {R : β → σ → Prop}
    (hpres : ∀ b s e s', R b s → ok s e → step s e = .ok s' → R (f b e) s') {s s' : σ}
    {es : List ε} (h : Runs step ok s es s') {b : β} (hb : R b s) : R (es.foldl f b) s' := by
  induction h generalizing b with
  | nil => exact hb
  | cons hok hstep _ ih => exact ih (hpres _ _ _ _ hb hok hstep)

/-- The run in which every event is chosen in the state it is taken in. -/
def run (step : σ → ε → Except η σ) (s : σ) : List (σ → ε) → Except η σ
  | [] => .ok s
  | e :: es => step s (e s) >>= fun s₁ => run step s₁ es

/-- The run of a list of events, if each meets its condition and none stops the machine. -/
def follow (step : σ → ε → Except η σ) (ok : σ → ε → Prop) [∀ s e, Decidable (ok s e)] (s : σ) :
    List ε → Option σ
  | [] => some s
  | e :: es =>
    if ok s e then
      match step s e with
      | .ok s₁ => follow step ok s₁ es
      | .error _ => none
    else none

theorem Runs.of_follow [∀ s e, Decidable (ok s e)] {s s' : σ} {es : List ε}
    (h : follow step ok s es = some s') : Runs step ok s es s' := by
  induction es generalizing s with
  | nil =>
    cases h
    exact Runs.nil _
  | cons e es ih =>
    simp only [follow] at h
    split at h
    case isTrue hok =>
      split at h
      case h_1 s₁ hstep => exact Runs.cons hok hstep (ih h)
      case h_2 => exact absurd h (by simp)
    case isFalse => exact absurd h (by simp)

/-! ### What holds all along a run -/

/-- `P` holds in every state the run goes through. -/
def Always (step : σ → ε → Except η σ) (P : σ → Prop) (s : σ) (es : List ε) (s' : σ) : Prop :=
  Runs step (fun s _ => P s) s es s' ∧ P s'

/-- A property that a step keeps exactly when the event meets `ok` holds all along a run exactly
when every event meets `ok`.  `I` is what every step preserves that does not lose the property, and
`base` what every event of the run meets. -/
theorem Runs.always_iff_of {base : σ → ε → Prop} {I P : σ → Prop}
    (hI : ∀ s e s', I s → base s e → step s e = .ok s' → P s' → I s')
    (hP : ∀ s e s', I s → P s → base s e → step s e = .ok s' → (P s' ↔ ok s e)) {s s' : σ}
    {es : List ε} (h : Runs step base s es s') (hs : I s) (hPs : P s) :
    Always step P s es s' ↔ Runs step (fun s e => base s e ∧ ok s e) s es s' := by
  induction h with
  | nil s => exact ⟨fun _ => Runs.nil s, fun _ => ⟨Runs.nil s, hPs⟩⟩
  | @cons s s₁ s' e es hbase hstep _ ih =>
    have hkept := hP s e s₁ hs hPs hbase hstep
    constructor
    · rintro ⟨hruns, hlast⟩
      cases hruns with
      | cons _ hstep' hrest =>
        cases hstep.symm.trans hstep'
        -- the next state has the property, as the first of the rest or as the last of all
        have hnext : P s₁ := by
          cases hrest with
          | nil => exact hlast
          | cons hhere _ _ => exact hhere
        exact Runs.cons ⟨hbase, hkept.mp hnext⟩ hstep
          ((ih (hI s e s₁ hs hbase hstep hnext) hnext).mp ⟨hrest, hlast⟩)
    · intro hruns
      cases hruns with
      | cons hok hstep' hrest =>
        cases hstep.symm.trans hstep'
        have hnext := hkept.mpr hok.2
        obtain ⟨hall, hlast⟩ := (ih (hI s e s₁ hs hbase hstep hnext) hnext).mpr hrest
        exact ⟨Runs.cons hPs hstep hall, hlast⟩

theorem Runs.always_iff {I P : σ → Prop} (hI : ∀ s e s', I s → step s e = .ok s' → I s')
    (hP : ∀ s e s', I s → P s → step s e = .ok s' → (P s' ↔ ok s e)) {s s' : σ} {es : List ε}
    (h : Runs step (fun _ _ => True) s es s') (hs : I s) (hPs : P s) :
    Always step P s es s' ↔ Runs step ok s es s' := by
  rw [h.always_iff_of (fun s e s' hs _ h _ => hI s e s' hs h) (fun s e s' hs hPs _ => hP s e s' hs hPs)
    hs hPs]
  exact ⟨fun h => h.mono fun _ _ h => h.2, fun h => h.mono fun _ _ h => ⟨trivial, h⟩⟩

/-- A step keeps `I`, and where `P` holds it keeps `P` exactly when `c` does. -/
structure Decides (I P : σ → Prop) (s s' : σ) (c : Prop) : Prop where
  inv : I s'
  iff : P s → (P s' ↔ c)

theorem Decides.keeps {I P : σ → Prop} {s s' : σ} {c : Prop} (hI : I s') (hP : P s → P s')
    (hc : c) : Decides I P s s' c :=
  ⟨hI, fun hs => iff_of_true (hP hs) hc⟩

theorem Runs.always_iff_of_decides {I P : σ → Prop}
    (hdec : ∀ s e s', I s → step s e = .ok s' → Decides I P s s' (ok s e)) {s s' : σ} {es : List ε}
    (h : Runs step (fun _ _ => True) s es s') (hs : I s) (hPs : P s) :
    Always step P s es s' ↔ Runs step ok s es s' :=
  h.always_iff (fun s e s' hs h => (hdec s e s' hs h).inv)
    (fun s e s' hs hPs h => (hdec s e s' hs h).iff hPs) hs hPs

/-- A property that is never regained, and that a step keeps exactly when the event meets `ok`,
holds at the end exactly when it held at the beginning and every event meets `ok`.  `base` is what
every event of the run meets in any case. -/
theorem Runs.last_iff {base : σ → ε → Prop} {I P : σ → Prop}
    (hI : ∀ s e s', I s → base s e → step s e = .ok s' → I s')
    (hP : ∀ s e s', I s → base s e → step s e = .ok s' → (P s' ↔ P s ∧ ok s e)) {s s' : σ}
    {es : List ε} (h : Runs step base s es s') (hs : I s) :
    P s' ↔ P s ∧ Runs step (fun s e => base s e ∧ ok s e) s es s' := by
  induction h with
  | nil s => exact ⟨fun hPs => ⟨hPs, Runs.nil s⟩, fun hPs => hPs.1⟩
  | @cons s s₁ s' e es hbase hstep _ ih =>
    rw [ih (hI s e s₁ hs hbase hstep), hP s e s₁ hs hbase hstep]
    constructor
    · rintro ⟨⟨hPs, hok⟩, hruns⟩
      exact ⟨hPs, Runs.cons ⟨hbase, hok⟩ hstep hruns⟩
    · rintro ⟨hPs, hruns⟩
      cases hruns with
      | cons hok hstep' hrest =>
        cases hstep.symm.trans hstep'
        exact ⟨⟨hPs, hok.2⟩, hrest⟩

/-- Two conditions that are the same as long as the first is met admit the same runs.  `I` is what
a step that meets the first preserves. -/
theorem Runs.congr {ok' : σ → ε → Prop} {I : σ → Prop}
    (hI : ∀ s e s', I s → ok s e → step s e = .ok s' → I s')
    (hok : ∀ s e s', I s → step s e = .ok s' → (ok s e ↔ ok' s e)) {s s' : σ} {es : List ε}
    (hs : I s) : Runs step ok s es s' ↔ Runs step ok' s es s' := by
  constructor
  · intro h
    induction h with
    | nil s => exact Runs.nil s
    | cons hhere hstep _ ih =>
      exact Runs.cons ((hok _ _ _ hs hstep).mp hhere) hstep (ih (hI _ _ _ hs hhere hstep))
  · intro h
    induction h with
    | nil s => exact Runs.nil s
    | cons hhere hstep _ ih =>
      have hfirst := (hok _ _ _ hs hstep).mpr hhere
      exact Runs.cons hfirst hstep (ih (hI _ _ _ hs hfirst hstep))

/-! ### What some run reaches -/

/-- Some run from `s` ends in a state with `q`. -/
def Reaches (step : σ → ε → Except η σ) (ok : σ → ε → Prop) (s : σ) (q : σ → Prop) : Prop :=
  ∃ es s', Runs step ok s es s' ∧ q s'

theorem Reaches.here {s : σ} {q : σ → Prop} (h : q s) : Reaches step ok s q :=
  ⟨[], s, Runs.nil s, h⟩

theorem Reaches.after {s s₁ : σ} {e : ε} {q : σ → Prop} (hok : ok s e) (hstep : step s e = .ok s₁)
    (h : Reaches step ok s₁ q) : Reaches step ok s q := by
  obtain ⟨es, s', hrun, hq⟩ := h
  exact ⟨e :: es, s', Runs.cons hok hstep hrun, hq⟩

/-- A run is continued where it has got to. -/
theorem Reaches.bind {s : σ} {p q : σ → Prop} (h : Reaches step ok s p)
    (hnext : ∀ s₁, p s₁ → Reaches step ok s₁ q) : Reaches step ok s q := by
  obtain ⟨es, s₁, hrun, hp⟩ := h
  induction hrun with
  | nil s => exact hnext s hp
  | cons hok hstep _ ih => exact Reaches.after hok hstep (ih hp)

/-! ### Components that answer -/

section Answers

variable {τ ρ : Type}

/-- The answers a component gives to a list of calls. -/
def answers (step : σ → ε → ρ × σ) (s : σ) : List ε → List ρ
  | [] => []
  | e :: es => (step s e).1 :: answers step (step s e).2 es

/-- Components that answer alike and stay related give the same answers. -/
theorem answers_eq {step : σ → ε → ρ × σ} {step' : τ → ε → ρ × τ} {R : σ → τ → Prop}
    (hsim : ∀ s t e, R s t → (step s e).1 = (step' t e).1 ∧ R (step s e).2 (step' t e).2)
    {s : σ} {t : τ} (h : R s t) (es : List ε) : answers step s es = answers step' t es := by
  induction es generalizing s t with
  | nil => rfl
  | cons e es ih =>
    obtain ⟨hanswer, hnext⟩ := hsim s t e h
    simp only [answers, hanswer, ih hnext]

end Answers

/-! ### Loops that go round again while they are told to -/

section Loops

variable {ι : Type} {round : σ → ι → Bool × σ}

/-- Each round takes the next input and says whether another one follows. -/
def loop (round : σ → ι → Bool × σ) (s : σ) (inputs : Nat → ι) : Nat → σ
  | 0 => s
  | fuel + 1 =>
    let (again, s) := round s (inputs 0)
    if again then loop round s (fun k => inputs (k + 1)) fuel else s

/-- `I` is kept from round to round, for the inputs still to come, and gives `J` at the end. -/
theorem loop_rule {I : (Nat → ι) → σ → Prop} {J : σ → Prop} (hweaken : ∀ inputs s, I inputs s → J s)
    (hlast : ∀ inputs s, I inputs s → (round s (inputs 0)).1 = false → J (round s (inputs 0)).2)
    (hnext : ∀ inputs s, I inputs s → (round s (inputs 0)).1 = true →
      I (fun k => inputs (k + 1)) (round s (inputs 0)).2)
    {inputs : Nat → ι} {s : σ} (h : I inputs s) (fuel : Nat) : J (loop round s inputs fuel) := by
  induction fuel generalizing s inputs with
  | zero => exact hweaken inputs s h
  | succ fuel ih =>
    simp only [loop]
    split
    case isTrue hagain => exact ih (hnext inputs s h hagain)
    case isFalse hstop => exact hlast inputs s h (Bool.eq_false_iff.mpr hstop)

/-- What every round preserves, the loop preserves. -/
theorem loop_invariant {I : σ → Prop} (hpres : ∀ s i, I s → I (round s i).2) {s : σ} (h : I s)
    (inputs : Nat → ι) (fuel : Nat) : I (loop round s inputs fuel) :=
  loop_rule (I := fun _ => I) (fun _ _ h => h) (fun inputs s h _ => hpres s (inputs 0) h)
    (fun inputs s h _ => hpres s (inputs 0) h) h fuel

/-- A loop whose rounds lower a measure gets to its last round. -/
theorem loop_total {I : (Nat → ι) → σ → Prop} {J : σ → Prop} {m : σ → Nat}
    (hlast : ∀ inputs s, I inputs s → (round s (inputs 0)).1 = false → J (round s (inputs 0)).2)
    (hnext : ∀ inputs s, I inputs s → (round s (inputs 0)).1 = true →
      I (fun k => inputs (k + 1)) (round s (inputs 0)).2 ∧ m (round s (inputs 0)).2 < m s)
    {inputs : Nat → ι} {s : σ} (h : I inputs s) {fuel : Nat} (hfuel : m s < fuel) :
    J (loop round s inputs fuel) := by
  induction fuel generalizing s inputs with
  | zero => exact absurd hfuel (Nat.not_lt_zero _)
  | succ fuel ih =>
    simp only [loop]
    split
    case isTrue hagain =>
      obtain ⟨hI, hless⟩ := hnext inputs s h hagain
      exact ih hI (by omega)
    case isFalse hstop => exact hlast inputs s h (Bool.eq_false_iff.mpr hstop)

/-- A loop whose rounds lower a measure ends by itself: any two bounds above it agree. -/
theorem loop_ends {I : σ → Prop} {m : σ → Nat} (hpres : ∀ s i, I s → I (round s i).2)
    (hless : ∀ s i, I s → (round s i).1 = true → m (round s i).2 < m s) {s : σ} (h : I s)
    (inputs : Nat → ι) {fuel fuel' : Nat} (hfuel : m s < fuel) (hfuel' : m s < fuel') :
    loop round s inputs fuel = loop round s inputs fuel' := by
  induction fuel generalizing fuel' s inputs with
  | zero => exact absurd hfuel (Nat.not_lt_zero _)
  | succ fuel ih =>
    cases fuel' with
    | zero => exact absurd hfuel' (Nat.not_lt_zero _)
    | succ fuel' =>
      simp only [loop]
      split
      case isTrue hagain =>
        have hlt := hless s (inputs 0) h hagain
        exact ih (hpres s (inputs 0) h) _ (by omega) (by omega)
      case isFalse => rfl

end Loops

end Trace
