/-
When the state of an IIC slave is what its events are.

The routine keeps its copy of the events in the variable into which it then reads the registers
that clear them.  After the first such read the copy is 1: no later event is found in it, but an
error is, since bit 0 is that of a receive underrun.  So of read done, start and stop only the
first that is pending is reported, and with it an error.
-/
import Embarc.DesignWare.IicSlave

namespace Embarc

/-- The poll reports the events that were pending, and has cleared none that it does not report. -/
structure SlvRead.Exact (raw : Word) (r : SlvRead) : Prop where
  reports : ∀ e : SlvEvent, hasFlag r.slvState e.state = hasFlag raw e.stat
  clears : ∀ e : SlvEvent, r.raw &&& e.stat ≠ raw &&& e.stat → hasFlag r.slvState e.state = true

/-- At most one of read done, start and stop is pending, and with it an error. -/
def PollOk (raw : Word) : Prop :=
  (hasFlag raw SlvEvent.rdDone.stat → ¬ hasFlag raw SlvEvent.start.stat) ∧
    (hasFlag raw SlvEvent.rdDone.stat ∨ hasFlag raw SlvEvent.start.stat →
      ¬ hasFlag raw SlvEvent.stop.stat) ∧
    (hasFlag raw SlvEvent.rdDone.stat ∨ hasFlag raw SlvEvent.start.stat ∨
      hasFlag raw SlvEvent.stop.stat → hasFlag raw SlvEvent.error.stat)

variable {clrs : List Word}

instance (raw : Word) : Decidable (PollOk raw) := by
  unfold PollOk
  infer_instance

namespace SlvRead

theorem foldl_readClr_slvState (clrs : List Word) (r : SlvRead) :
    (clrs.foldl readClr r).slvState = r.slvState := by
  induction clrs generalizing r with
  | nil => rfl
  | cons c clrs ih => exact ih _

theorem report_slvState (r : SlvRead) (e : SlvEvent) (clrs : List Word) :
    (r.report e clrs).slvState =
      if hasFlag r.status e.stat then r.slvState ||| e.state else r.slvState := by
  unfold report
  split
  · rw [foldl_readClr_slvState]
  · rfl

theorem report_nil (r : SlvRead) (e : SlvEvent) :
    (r.report e []).status = r.status ∧ (r.report e []).raw = r.raw := by
  unfold report
  split <;> exact ⟨rfl, rfl⟩

theorem report_one (r : SlvRead) (e : SlvEvent) :
    (r.report e [e.stat]).status =
      (if hasFlag r.status e.stat then if hasFlag r.raw e.stat then 1 else 0 else r.status) ∧
    (r.report e [e.stat]).raw = if hasFlag r.status e.stat then r.raw &&& ~~~e.stat else r.raw := by
  unfold report
  split <;> exact ⟨rfl, rfl⟩

def Clears (raw : Word) (r : SlvRead) : Prop :=
  ∀ e : SlvEvent, r.raw &&& e.stat ≠ raw &&& e.stat → hasFlag r.slvState e.state = true

theorem foldl_readClr_get {m : Word} (h : ∀ c ∈ clrs, c &&& m = 0) (r : SlvRead) :
    (clrs.foldl readClr r).raw &&& m = r.raw &&& m := by
  induction clrs generalizing r with
  | nil => rfl
  | cons c clrs ih =>
    rw [List.forall_mem_cons] at h
    exact (ih h.2 _).trans (Field.clear_get_of_disjoint h.1)

theorem Clears.report {raw : Word} {r : SlvRead} (h : r.Clears raw) (e : SlvEvent)
    (hclrs : ∀ e' ≠ e, ∀ c ∈ clrs, c &&& e'.stat = 0) : (r.report e clrs).Clears raw := by
  intro e' hcleared
  rw [report_slvState]
  unfold SlvRead.report at hcleared
  split_ifs at hcleared with hflag
  · rw [if_pos hflag, hasFlag_or]
    by_cases he : e' = e
    · have hself : hasFlag e.state e.state = true := by cases e <;> rfl
      rw [he, hself, Bool.or_true]
    · rw [foldl_readClr_get (hclrs e' he)] at hcleared
      rw [h e' hcleared, Bool.true_or]
  · rw [if_neg hflag]
    exact h e' hcleared

end SlvRead

theorem getSlvState_clears (raw : Word) : (dwIicGetSlvState raw).Clears raw := by
  have hstart : (⟨raw, raw, 0⟩ : SlvRead).Clears raw := fun e h => absurd rfl h
  refine ((((((hstart.report _ ?_).report _ ?_).report _ ?_).report _ ?_).report _ ?_).report _
    ?_).report _ ?_ <;> intro e' hne <;> cases e' <;> simp_all <;> decide

/-- Of read done, start and stop the first that is pending hides the others, and shows an error. -/
theorem getSlvState_reports_iff (raw : Word) :
    (∀ e : SlvEvent, hasFlag (dwIicGetSlvState raw).slvState e.state = hasFlag raw e.stat) ↔
      PollOk raw := by
  have hall : ∀ P : SlvEvent → Prop, (∀ e, P e) ↔
      P .gcReq ∧ P .wrReq ∧ P .rdReq ∧ P .rdDone ∧ P .start ∧ P .stop ∧ P .error :=
    fun P => ⟨fun h => ⟨h _, h _, h _, h _, h _, h _, h _⟩, fun h e => by cases e <;> simp [h]⟩
  have hone : ∀ e : SlvEvent, hasFlag 1#32 e.stat = decide (e = .error) := by
    intro e
    cases e <;> rfl
  have hzero : ∀ x : Word, hasFlag 0 x = false := fun x => by simp [hasFlag]
  have hstate : ∀ e e' : SlvEvent, hasFlag e.state e'.state = decide (e = e') := by
    intro e e'
    cases e <;> cases e' <;> rfl
  have hor : ∀ (c : Bool) (x y f : Word), hasFlag (if c then x ||| y else x) f =
      (hasFlag x f || (c && hasFlag y f)) := by
    intro c x y f
    cases c <;> simp [hasFlag_or]
  simp only [dwIicGetSlvState, SlvRead.report_slvState, SlvRead.report_nil, SlvRead.report_one, hor,
    hall, hstate, hzero, PollOk]
  cases hd : hasFlag raw SlvEvent.rdDone.stat <;> cases hs : hasFlag raw SlvEvent.start.stat <;>
    cases hp : hasFlag raw SlvEvent.stop.stat <;> cases he : hasFlag raw SlvEvent.error.stat <;>
    simp [hs, hp, he, hone]

theorem getSlvState_exact_iff (raw : Word) : (dwIicGetSlvState raw).Exact raw ↔ PollOk raw :=
  ⟨fun h => (getSlvState_reports_iff raw).mp h.reports,
    fun h => ⟨(getSlvState_reports_iff raw).mpr h, getSlvState_clears raw⟩⟩

def SlvLine.AllExact (s : SlvLine) : Prop := ∀ q ∈ s.polls, q.2.Exact q.1

/-- **In every sequence of events and polls, each poll reports what was pending and clears only what
it reports exactly if** at each poll at most one of read done, start and stop is pending, and with it
an error. -/
theorem slave_events_iff {s s' : SlvLine} {ops : List SlvOp} (hfirst : s.polls = [])
    (h : Trace.Runs slvStep (fun _ _ => True) s ops s') :
    Trace.Always slvStep SlvLine.AllExact s ops s' ↔
      Trace.Runs slvStep (fun s op => op = .poll → PollOk s.raw) s ops s' := by
  refine h.always_iff (I := fun _ => True) (fun _ _ _ _ _ => trivial) ?_ trivial ?_
  · intro s op s' _ hall hstep
    cases op with
    | events raw =>
      cases hstep
      exact iff_of_true hall (by simp)
    | poll =>
      cases hstep
      have hlast : (s.raw, dwIicGetSlvState s.raw) ∈
          s.polls ++ [(s.raw, dwIicGetSlvState s.raw)] := by simp
      constructor
      · exact fun hall' _ => (getSlvState_exact_iff s.raw).mp (hall' _ hlast)
      · intro hok q hq
        rcases List.mem_append.mp hq with hq | hq
        · exact hall q hq
        · rw [List.mem_singleton.mp hq]
          exact (getSlvState_exact_iff s.raw).mpr (hok rfl)
  · intro q hq
    rw [hfirst] at hq
    cases hq

/-- A request, then a start and later a stop, each with an abort. -/
def slvAborted : List SlvOp := [.events 0x24, .poll, .events 0x464, .poll, .events 0x240, .poll]

theorem slave_events_aborted :
    ∃ s', Trace.Always slvStep SlvLine.AllExact ⟨0, []⟩ slvAborted s' ∧
      s'.polls.map (·.2.slvState) = [0x28, 0xAA, 0x84] ∧ s'.raw = 0 := by
  have hok : Trace.Runs slvStep (fun s op => op = .poll → PollOk s.raw) ⟨0, []⟩ slvAborted _ :=
    .of_follow rfl
  exact ⟨_, (slave_events_iff rfl (hok.mono fun _ _ _ => trivial)).mpr hok, rfl, rfl⟩

/-- A stop is reported together with an error. -/
theorem slave_stop_as_error :
    (dwIicGetSlvState 0x200).slvState = 0x84 ∧ hasFlag 0x200 SlvEvent.error.stat = false := by
  decide

end Embarc
