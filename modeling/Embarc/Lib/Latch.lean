/-
Latches that an interrupt routine serves.

An edge sets the latch of its source.  A routine that is started looks at the latches and has then a
list of things to do: handlers to enter, and writes that clear latches.  Edges come between any two
of them.

An edge is served if a handler of its source is entered behind it: at the latest by the next
execution, and until then the latch stays set.  `State.will` says from what the routine has still to
do whether this is so: either the handler is still to come, or the latch is set and the routine does
not clear it any more, and then it is found by the next execution.
-/
import Embarc.Lib.Run

namespace Latch

open Trace (Runs)

/-- What an action of the routine is to the sources. -/
inductive Act (ι : Type) where
  | handle (i : ι)
  | clear (m : ι → Bool)
  | other

structure State (ι α : Type) where
  latched : ι → Bool
  /-- What this execution has still to do. -/
  acts : List α
  /-- The handlers it has entered. -/
  called : List ι
  /-- All handlers that were ever entered. -/
  entered : List ι

inductive Event (ι α : Type) where
  | edge (i : ι)
  | start (acts : List α)
  | go

variable {ι α : Type}

/-! ### Actions -/

section Acts

variable (view : α → Act ι)

def Act.handled : Act ι → Option ι
  | .handle i => some i
  | _ => none

def Act.clears (i : ι) : Act ι → Bool
  | .clear m => m i
  | _ => false

/-- The handlers that a list of actions enters. -/
def handled (acts : List α) : List ι := acts.filterMap fun a => (view a).handled

/-- The latch is cleared somewhere in it. -/
def clears (i : ι) (acts : List α) : Bool := acts.any fun a => (view a).clears i

theorem handled_append (as bs : List α) :
    handled view (as ++ bs) = handled view as ++ handled view bs :=
  List.filterMap_append

theorem clears_append (i : ι) (as bs : List α) :
    clears view i (as ++ bs) = (clears view i as || clears view i bs) :=
  List.any_append

variable {view} {i : ι} {a : α}

theorem handled_cons_of_handle (ha : view a = .handle i) (acts : List α) :
    handled view (a :: acts) = i :: handled view acts :=
  List.filterMap_cons_some (by rw [ha]; rfl)

theorem handled_cons_of_none (ha : (view a).handled = none) (acts : List α) :
    handled view (a :: acts) = handled view acts :=
  List.filterMap_cons_none ha

theorem clears_cons (a : α) (acts : List α) :
    clears view i (a :: acts) = ((view a).clears i || clears view i acts) :=
  List.any_cons

end Acts

/-! ### Steps -/

namespace State

def edge [DecidableEq ι] (s : State ι α) (i : ι) : State ι α :=
  { s with latched := Function.update s.latched i true }

def act (s : State ι α) : Act ι → State ι α
  | .handle i => { s with called := s.called ++ [i], entered := s.entered ++ [i] }
  | .clear m => { s with latched := fun i => s.latched i && !m i }
  | .other => s

end State

section Steps

variable [DecidableEq ι] (view : α → Act ι) (progs : (ι → Bool) → List α → Prop)

def step (s : State ι α) : Event ι α → Except Empty (State ι α)
  | .edge i => .ok (s.edge i)
  | .start acts => .ok { s with acts, called := [] }
  | .go =>
    match s.acts with
    | [] => .ok s
    | a :: acts => .ok ({ s with acts }.act (view a))

/-- An execution is started when the one before is over, and does what the latches call for. -/
def Ok (s : State ι α) : Event ι α → Prop
  | .edge _ => True
  | .start acts => s.acts = [] ∧ progs s.latched acts
  | .go => s.acts ≠ []

/-- The handler has been entered between two states. -/
def State.Entered (i : ι) (s s' : State ι α) : Prop := ∃ more, s.entered ++ more = s'.entered ∧ i ∈ more

/-- However it goes on, the latch stays set until the handler has been entered, and once the running
execution is over a further one that is started and completed has entered it. -/
structure Served (i : ι) (s : State ι α) : Prop where
  pending : ∀ es s', Runs (step view) (Ok progs) s es s' → s'.acts = [] → s'.latched i = false →
    s.Entered i s'
  next : ∀ es₁ s₁ acts es₂ s₂, Runs (step view) (Ok progs) s es₁ s₁ →
    Runs (step view) (Ok progs) s₁ (.start acts :: es₂) s₂ → s₂.acts = [] → s.Entered i s₂

/-- What a routine has to do for a source. -/
structure Serves (i : ι) : Prop where
  found : ∀ latched acts, progs latched acts → latched i = true → i ∈ handled view acts
  before : ∀ latched acts, progs latched acts → clears view i acts = true → i ∈ handled view acts
  once : ∀ latched acts, progs latched acts → (handled view acts).count i ≤ 1

/-- The handler is still to come, or the latch will be found by the next execution. -/
def State.will (s : State ι α) (i : ι) : Prop :=
  i ∈ handled view s.acts ∨ s.latched i = true ∧ clears view i s.acts = false

end Steps

section Served

variable [DecidableEq ι] {view : α → Act ι} {progs : (ι → Bool) → List α → Prop} {i : ι}
  {s s' : State ι α} {es : List (Event ι α)}

/-- An action that does not enter the handler of a source. -/
structure Passes (view : α → Act ι) (i : ι) (s : State ι α) (a : α) (acts : List α) : Prop where
  entered : ∃ more, i ∉ more ∧ ({ s with acts }.act (view a)).entered = s.entered ++ more
  latched : ({ s with acts }.act (view a)).latched i = (s.latched i && !(view a).clears i)
  handled : i ∈ handled view (a :: acts) ↔ i ∈ handled view acts

theorem handle_or_passes (view : α → Act ι) (i : ι) (s : State ι α) (a : α) (acts : List α) :
    view a = .handle i ∨ Passes view i s a acts := by
  cases ha : view a with
  | handle j =>
    by_cases hij : j = i
    · exact Or.inl (congrArg Act.handle hij)
    · refine Or.inr ⟨⟨[j], ?_, ?_⟩, ?_, ?_⟩
      · intro hmem
        exact hij (List.mem_singleton.mp hmem).symm
      · rw [ha]
        rfl
      · rw [ha]
        exact (Bool.and_true _).symm
      · rw [handled_cons_of_handle ha, List.mem_cons]
        exact or_iff_right (Ne.symm hij)
  | clear m =>
    refine Or.inr ⟨⟨[], List.not_mem_nil, ?_⟩, ?_, ?_⟩
    · rw [ha]
      exact (List.append_nil _).symm
    · rw [ha]
      rfl
    · rw [handled_cons_of_none (by rw [ha]; rfl)]
  | other =>
    refine Or.inr ⟨⟨[], List.not_mem_nil, ?_⟩, ?_, ?_⟩
    · rw [ha]
      exact (List.append_nil _).symm
    · rw [ha]
      exact (Bool.and_true _).symm
    · rw [handled_cons_of_none (by rw [ha]; rfl)]

theorem entered_step {e : Event ι α} (hstep : step view s e = .ok s') :
    s.entered <+: s'.entered := by
  cases e with
  | edge j =>
    cases hstep
    exact List.prefix_rfl
  | start acts =>
    cases hstep
    exact List.prefix_rfl
  | go =>
    simp only [step] at hstep
    cases hacts : s.acts with rw [hacts] at hstep
    | nil =>
      cases hstep
      exact List.prefix_rfl
    | cons a acts =>
      cases hstep
      cases view a with
      | handle j => exact List.prefix_append s.entered [j]
      | clear m => exact List.prefix_rfl
      | other => exact List.prefix_rfl

theorem entered_run (hrun : Runs (step view) (Ok progs) s es s') : s.entered <+: s'.entered :=
  hrun.invariant (I := fun s' => s.entered <+: s'.entered)
    (fun _ _ _ hpre _ hstep => hpre.trans (entered_step hstep)) List.prefix_rfl

omit [DecidableEq ι] in
theorem State.Entered.after {s₁ s₂ : State ι α} (hpre : s.entered <+: s₁.entered)
    (h : s₁.Entered i s₂) : s.Entered i s₂ := by
  obtain ⟨more, heq⟩ := hpre
  obtain ⟨more', heq', hmem⟩ := h
  exact ⟨more ++ more', by rw [← List.append_assoc, heq, heq'], List.mem_append_right more hmem⟩

omit [DecidableEq ι] in
theorem State.Entered.before {s₁ s₂ : State ι α} (h : s.Entered i s₁)
    (hpre : s₁.entered <+: s₂.entered) : s.Entered i s₂ := by
  obtain ⟨more, heq, hmem⟩ := h
  obtain ⟨more', heq'⟩ := hpre
  exact ⟨more ++ more', by rw [← List.append_assoc, heq, heq'], List.mem_append_left more' hmem⟩

/-- What every step keeps up unless it enters the handler, a run keeps up unless it enters it. -/
theorem entered_or_run {W : State ι α → Prop}
    (hW : ∀ s e s', W s → Ok progs s e → step view s e = .ok s' → s.Entered i s' ∨ W s')
    (h : W s) (hrun : Runs (step view) (Ok progs) s es s') : s.Entered i s' ∨ W s' := by
  induction hrun with
  | nil s => exact Or.inr h
  | cons hok hstep hrest ih =>
    rcases hW _ _ _ h hok hstep with hentered | hw
    · exact Or.inl (hentered.before (entered_run hrest))
    · exact (ih hw).imp_left fun hentered => hentered.after (entered_step hstep)

omit [DecidableEq ι] in
theorem acts_act (s : State ι α) (acts : List α) (a : Act ι) :
    ({ s with acts }.act a).acts = acts := by
  cases a <;> rfl

/-- A handler that is to come in this execution is entered, or still to come. -/
theorem come_step {e : Event ι α} (h : i ∈ handled view s.acts) (hok : Ok progs s e)
    (hstep : step view s e = .ok s') : s.Entered i s' ∨ i ∈ handled view s'.acts := by
  cases e with
  | edge j =>
    cases hstep
    exact Or.inr h
  | start acts =>
    rw [hok.1] at h
    exact absurd h List.not_mem_nil
  | go =>
    simp only [step] at hstep
    cases hacts : s.acts with
    | nil => exact absurd hacts hok
    | cons a acts =>
      rw [hacts] at hstep h
      cases hstep
      rcases handle_or_passes view i s a acts with ha | hpass
      · rw [ha]
        exact Or.inl ⟨[i], rfl, List.mem_singleton.mpr rfl⟩
      · rw [acts_act]
        exact Or.inr (hpass.handled.mp h)

theorem will_step {e : Event ι α} (hserves : Serves view progs i) (h : s.will view i)
    (hok : Ok progs s e) (hstep : step view s e = .ok s') : s.Entered i s' ∨ s'.will view i := by
  rcases h with hcome | ⟨hlatched, hkept⟩
  · exact (come_step hcome hok hstep).imp_right Or.inl
  cases e with
  | edge j =>
    cases hstep
    refine Or.inr (Or.inr ⟨?_, hkept⟩)
    by_cases hij : i = j
    · rw [hij]
      exact Function.update_self j true s.latched
    · exact (Function.update_of_ne hij true s.latched).trans hlatched
  | start acts =>
    cases hstep
    exact Or.inr (Or.inl (hserves.found s.latched acts hok.2 hlatched))
  | go =>
    simp only [step] at hstep
    cases hacts : s.acts with
    | nil => exact absurd hacts hok
    | cons a acts =>
      rw [hacts] at hstep hkept
      cases hstep
      rw [clears_cons, Bool.or_eq_false_iff] at hkept
      rcases handle_or_passes view i s a acts with ha | hpass
      · rw [ha]
        exact Or.inl ⟨[i], rfl, List.mem_singleton.mpr rfl⟩
      · rw [State.will, acts_act, hpass.latched]
        exact Or.inr (Or.inr ⟨by rw [hlatched, hkept.1]; rfl, hkept.2⟩)

theorem run_out (view : α → Act ι) (progs : (ι → Bool) → List α → Prop) (i : ι)
    (s : State ι α) :
    ∃ es s', Runs (step view) (Ok progs) s es s' ∧ s'.acts = [] ∧
      s'.entered = s.entered ++ handled view s.acts ∧
      s'.latched i = (s.latched i && !clears view i s.acts) := by
  obtain ⟨acts, hacts⟩ : ∃ acts, acts = s.acts := ⟨_, rfl⟩
  induction acts generalizing s with
  | nil =>
    refine ⟨[], s, Runs.nil s, hacts.symm, ?_, ?_⟩
    · rw [← hacts]
      exact (List.append_nil _).symm
    · rw [← hacts]
      exact (Bool.and_true _).symm
  | cons a acts ih =>
    have hrest := acts_act s acts (view a)
    obtain ⟨es, s', hrun, hidle, hentered, hlatched⟩ := ih _ hrest.symm
    refine ⟨.go :: es, s', Runs.cons ?_ ?_ hrun, hidle, ?_, ?_⟩
    · show s.acts ≠ []
      rw [← hacts]
      exact List.cons_ne_nil a acts
    · simp only [step, ← hacts]
    · rw [hentered, hrest, ← hacts]
      cases ha : view a with
      | handle j =>
        rw [handled_cons_of_handle ha]
        exact List.append_assoc s.entered [j] _
      | clear m => rw [handled_cons_of_none (by rw [ha]; rfl)]; rfl
      | other => rw [handled_cons_of_none (by rw [ha]; rfl)]; rfl
    · rw [hlatched, hrest, ← hacts, clears_cons, Bool.not_or, ← Bool.and_assoc]
      congr 1
      cases view a with
      | handle j => exact (Bool.and_true _).symm
      | clear m => rfl
      | other => exact (Bool.and_true _).symm

theorem served_iff_will (hserves : Serves view progs i) :
    Served view progs i s ↔ s.will view i := by
  constructor
  · intro h
    obtain ⟨es, s', hrun, hidle, hentered, hlatched⟩ := run_out view progs i s
    by_contra hnot
    obtain ⟨hcome, hkept⟩ := not_or.mp hnot
    have hquiet : s'.latched i = false := by
      rw [hlatched]
      by_contra hset
      rw [Bool.not_eq_false, Bool.and_eq_true, Bool.not_eq_true'] at hset
      exact hkept hset
    obtain ⟨more, hmore, hmem⟩ := h.pending es s' hrun hidle hquiet
    rw [hentered, List.append_cancel_left_eq] at hmore
    rw [hmore] at hmem
    exact hcome hmem
  · intro h
    have hwill {es s'} (hrun : Runs (step view) (Ok progs) s es s') :
        s.Entered i s' ∨ s'.will view i :=
      entered_or_run (W := fun s => s.will view i) (fun _ _ _ => will_step hserves) h hrun
    constructor
    case pending =>
      intro es s' hrun hidle hquiet
      rcases hwill hrun with hentered | hwill
      · exact hentered
      · rw [State.will, hidle, hquiet] at hwill
        rcases hwill with hcome | ⟨hset, -⟩
        · exact absurd hcome List.not_mem_nil
        · exact absurd hset Bool.false_ne_true
    case next =>
      intro es₁ s₁ acts es₂ s₂ hrun hnext hidle
      rcases hwill hrun with hentered | hwill
      · exact hentered.before (entered_run hnext)
      · cases hnext with
        | cons hok hstep hrest =>
          cases hstep
          -- the running execution is over, so it is the latch that has stayed
          have hlatched : s₁.latched i = true := by
            rw [State.will, hok.1] at hwill
            rcases hwill with hcome | ⟨hset, -⟩
            · exact absurd hcome List.not_mem_nil
            · exact hset
          have hcome := hserves.found s₁.latched acts hok.2 hlatched
          rcases entered_or_run (W := fun s => i ∈ handled view s.acts)
            (fun _ _ _ => come_step) hcome hrest with hentered | hcome
          · exact hentered.after (entered_run hrun)
          · rw [hidle] at hcome
            exact absurd hcome List.not_mem_nil

def State.Within (view : α → Act ι) (progs : (ι → Bool) → List α → Prop) (s : State ι α) : Prop :=
  s.acts = [] ∨ ∃ latched pre, progs latched (pre ++ s.acts) ∧ s.called = handled view pre

theorem within_run (hidle : s.acts = []) (hrun : Runs (step view) (Ok progs) s es s') :
    s'.Within view progs := by
  refine hrun.invariant (I := State.Within view progs) ?_ (Or.inl hidle)
  intro s₁ e s₂ h hok hstep
  cases e with
  | edge j =>
    cases hstep
    exact h
  | start acts =>
    cases hstep
    exact Or.inr ⟨s₁.latched, [], hok.2, rfl⟩
  | go =>
    simp only [step] at hstep
    cases hacts : s₁.acts with
    | nil => exact absurd hacts hok
    | cons a acts =>
      rw [hacts] at hstep
      cases hstep
      rcases h with hnil | ⟨latched, pre, hprog, hcalled⟩
      · exact absurd hnil hok
      · refine Or.inr ⟨latched, pre ++ [a], ?_, ?_⟩
        · rw [acts_act, List.append_assoc]
          rw [hacts] at hprog
          exact hprog
        · rw [handled_append, ← hcalled]
          cases ha : view a with
          | handle j =>
            rw [handled_cons_of_handle ha]
            rfl
          | clear m =>
            rw [handled_cons_of_none (by rw [ha]; rfl)]
            exact (List.append_nil _).symm
          | other =>
            rw [handled_cons_of_none (by rw [ha]; rfl)]
            exact (List.append_nil _).symm

/-- An edge is served unless it comes when the handler has been entered, and the latch has not been
cleared yet. -/
theorem served_edge_iff (hserves : Serves view progs i) (hidle : s.acts = [])
    (hrun : Runs (step view) (Ok progs) s es s') :
    Served view progs i (s'.edge i) ↔ ¬ (i ∈ s'.called ∧ clears view i s'.acts = true) := by
  have hset : (s'.edge i).latched i = true := by
    show Function.update s'.latched i true i = true
    rw [Function.update_self]
  rw [served_iff_will hserves, State.will, hset]
  show i ∈ handled view s'.acts ∨ true = true ∧ clears view i s'.acts = false ↔ _
  rcases within_run hidle hrun with hnil | ⟨latched, pre, hprog, hcalled⟩
  · rw [hnil]
    exact ⟨fun _ hc => Bool.false_ne_true hc.2, fun _ => Or.inr ⟨rfl, rfl⟩⟩
  · have honce := hserves.once latched _ hprog
    rw [handled_append, List.count_append] at honce
    rw [hcalled]
    constructor
    · rintro (hcome | ⟨-, hkept⟩) ⟨hpast, hclear⟩
      · have hone := List.count_pos_iff.mpr hcome
        have htwo := List.count_pos_iff.mpr hpast
        omega
      · rw [hkept] at hclear
        exact Bool.false_ne_true hclear
    · intro hnot
      by_cases hclear : clears view i s'.acts = true
      · have hall : clears view i (pre ++ s'.acts) = true := by
          rw [clears_append, hclear, Bool.or_true]
        have hmem := hserves.before latched _ hprog hall
        rw [handled_append, List.mem_append] at hmem
        rcases hmem with hpast | hcome
        · exact absurd ⟨hpast, hclear⟩ hnot
        · exact Or.inl hcome
      · exact Or.inr ⟨rfl, Bool.eq_false_iff.mpr hclear⟩

end Served

end Latch
