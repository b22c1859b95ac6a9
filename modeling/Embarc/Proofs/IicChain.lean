/-
Transfers started from a completion callback of the IIC driver.

The routines clear the buffer that is through behind its callback, as those of the UART do.  But
they may also find an aborted transfer then, and turn off whatever the callback has started.  What
this is follows from its commands: at the beginning of the callback nothing goes on, and interrupts
are turned on or off only for what goes on.
-/
import Embarc.Lib.Slots
import Embarc.DesignWare.Iic

namespace Embarc

variable {cbs : IicCbs} {s s' plain left after : IicDev} {d e : Dir} {abort : Bool}
  {cmds : List IicCmd} {room : Nat} {words : List Word} {bytes : List Byte}

abbrev iicIssue (s : IicDev) (cmd : IicCmd) : IicDev := (dwIicControl s cmd).2

abbrev iicAccepts (s : IicDev) (cmd : IicCmd) : Prop := (dwIicControl s cmd).1 = eOk

/-- The buffer a command installs; all zero if it takes it back. -/
def IicCmd.buffer (d : Dir) : IicCmd → Option DevBuffer
  | .setInt _ _ => none
  | .setIntBuf d' param devbuf => if d' = d then some (intBuf param devbuf) else none

/-- The direction a command starts, or `none` if it stops it. -/
def IicCmd.starts : IicCmd → Option (Option Dir)
  | .setInt d val => some (if val = 0 then none else some d)
  | .setIntBuf _ _ _ => none

/-- The direction that is started behind the commands. -/
def iicStarted (cmds : List IicCmd) : Option Dir := (lastSet IicCmd.starts cmds).join

/-- The transfer that goes on, and which interrupts are on. -/
def IicDev.ints (s : IicDev) : IicState × Word × Bool × Bool × Bool :=
  (s.curState, s.mask, s.txInt, s.rxInt, s.gint)

section
variable (s : IicDev)

theorem IicDev.withBuf_withBuf (d : Dir) (b b' : DevBuffer) :
    (s.withBuf d b).withBuf d b' = s.withBuf d b' := by
  cases d <;> rfl

theorem IicDev.withBuf_comm (d d' : Dir) (b b' : DevBuffer) (h : d ≠ d') :
    (s.withBuf d b).withBuf d' b' = (s.withBuf d' b').withBuf d b := by
  cases d <;> cases d' <;> first | rfl | exact absurd rfl h

theorem IicDev.withBuf_inj (d : Dir) (b b' : DevBuffer)
    (h : s.withBuf d b = s.withBuf d b') : b = b' := by
  cases d with
  | tx => exact congrArg IicDev.txBuf h
  | rx => exact congrArg IicDev.rxBuf h

theorem IicDev.ints_withBuf (d : Dir) (b : DevBuffer) :
    (s.withBuf d b).ints = s.ints := by
  cases d <;> rfl

theorem dwIicDisCbr_withBuf (d cbrtn : Dir) (b : DevBuffer) :
    dwIicDisCbr (s.withBuf d b) cbrtn = (dwIicDisCbr s cbrtn).withBuf d b := by
  cases d <;> cases cbrtn <;> simp only [dwIicDisCbr, IicDev.withBuf] <;> split <;>
    first | exact if_pos ‹_› | exact if_neg ‹_›

theorem dwIicEnaCbr_withBuf (d cbrtn : Dir) (b : DevBuffer) :
    dwIicEnaCbr (s.withBuf d b) cbrtn = (dwIicEnaCbr s cbrtn).withBuf d b := by
  cases d <;> cases cbrtn <;> rfl

theorem IicDev.withState_withBuf (state : IicState) (d : Dir) (b : DevBuffer) :
    ({ s.withBuf d b with curState := state } : IicDev) =
      ({ s with curState := state } : IicDev).withBuf d b := by
  cases d <;> rfl

theorem IicDev.through_withBuf (d d' : Dir) (b : DevBuffer) :
    (s.withBuf d b).through d' = (s.through d').withBuf d b := by
  rw [IicDev.through, dwIicDisCbr_withBuf]
  exact IicDev.withState_withBuf ..

theorem iicAccepts_withBuf (d : Dir) (b : DevBuffer) (cmd : IicCmd)
    (hok : iicAccepts s cmd) : iicAccepts (s.withBuf d b) cmd := by
  have hsame : (s.withBuf d b).opnCnt = s.opnCnt ∧ (s.withBuf d b).status = s.status ∧
      (s.withBuf d b).curState = s.curState := by
    cases d <;> exact ⟨rfl, rfl, rfl⟩
  refine Eq.trans ?_ hok
  simp only [dwIicControl, hsame]
  split
  · rfl
  · split
    · rfl
    · cases cmd <;> simp only <;> split <;> first | rfl | (split <;> rfl)

end

def iicSlots : Slots iicIssue iicAccepts Dir DevBuffer where
  put := IicDev.withBuf
  fills := IicCmd.buffer
  put_put := IicDev.withBuf_withBuf
  put_comm := IicDev.withBuf_comm
  put_inj := IicDev.withBuf_inj
  step_put := by
    intro s d b cmd hok
    have hok' := iicAccepts_withBuf s d b cmd hok
    cases cmd with
    | setInt e val =>
      rw [iicIssue, iicIssue, (dwIicControl_setInt_ok hok).2, (dwIicControl_setInt_ok hok').2]
      split
      · rw [dwIicDisCbr_withBuf]
        exact IicDev.withState_withBuf ..
      · rw [dwIicEnaCbr_withBuf]
        exact IicDev.withState_withBuf ..
    | setIntBuf e param devbuf =>
      rw [iicIssue, iicIssue, dwIicControl_setIntBuf_ok hok, dwIicControl_setIntBuf_ok hok']
      exact put_fill IicDev.withBuf_withBuf IicDev.withBuf_comm s d e b _
  step_fills := by
    intro s d b cmd hok hb
    cases cmd with
    | setInt e val => exact absurd hb (by simp [IicCmd.buffer])
    | setIntBuf e param devbuf =>
      rw [iicIssue, dwIicControl_setIntBuf_ok hok]
      exact fill_put IicDev.withBuf_withBuf s hb

/-- A buffer is through in direction `d`, the callback issues `cmds` and leaves the device as
`left`, and the routine returns with `after`; with a callback that does nothing it returns with
`plain`.  `abort` is whether it finds an aborted transfer behind the callback.  The error callback
leaves the device alone. -/
inductive IicChain (cbs : IicCbs) :
    Dir → Bool → List IicCmd → IicDev → IicDev → IicDev → Prop
  | intro {s s₁ : IicDev} {status : Word} {room : Nat} {bytes : List Byte} {err : Bool}
      {words : List Word} {cmds : List IicCmd} (hbuf : (s.buf s.serves).buf ≠ 0)
      (hserve : dwIicServe s s.serves status room bytes = (words, true, s₁))
      (hcmds : Issued iicIssue iicAccepts s₁ cmds (cbs.cb s.serves s₁))
      (herr : ∀ t, cbs.errCb t = t) :
      IicChain cbs s.serves (hasFlag status icIntrTxAbrt && err) cmds
        (dwIicIsr { cbs with cb := fun _ => id } s status room bytes err).2
        (cbs.cb s.serves s₁) (dwIicIsr cbs s status room bytes err).2

/-- What the callback has installed is there, and what it has started goes on. -/
def IicIntact (cmds : List IicCmd) (left after : IicDev) : Prop :=
  (∀ d b, iicSlots.last d cmds = some b → iicSlots.Holds after d b) ∧ after.ints = left.ints

/-! What goes on behind the callback: at its beginning nothing, for the routine has turned the
interrupts of `d` off. -/

def IicDev.flag (s : IicDev) : Dir → Bool
  | .tx => s.txInt
  | .rx => s.rxInt

/-- The interrupts that are on besides those of what was started. -/
def IicDev.others (s : IicDev) (started : Option Dir) : Word :=
  started.elim s.mask fun e => s.mask &&& ~~~e.icInt

/-- Only what was started is on, of the interrupts of `d`. -/
structure IicGoing (d : Dir) (started : Option Dir) (s : IicDev) : Prop where
  curState : s.curState = started.elim .free Dir.iicState
  others : s.others started &&& ~~~d.icInt = s.others started
  flag : started ≠ some d → s.flag d = false
  gint : started = none → (s.gint && !s.txInt && !s.rxInt) = false

theorem or_and_not_self (m a : Word) : (m ||| a) &&& ~~~a = m &&& ~~~a := by
  rw [BitVec.and_or_distrib_right, BitVec.and_not_self]
  exact BitVec.or_zero

theorem and_not_right_comm (m a b : Word) : m &&& ~~~a &&& ~~~b = m &&& ~~~b &&& ~~~a := by
  rw [BitVec.and_assoc, BitVec.and_comm (~~~a), ← BitVec.and_assoc]

theorem dwIicDisCbr_off (s : IicDev) (e : Dir) :
    (dwIicDisCbr s e).mask = s.mask &&& ~~~e.icInt ∧
      (∀ d, (dwIicDisCbr s e).flag d = if e = d then false else s.flag d) ∧
      ((dwIicDisCbr s e).gint && !(dwIicDisCbr s e).txInt && !(dwIicDisCbr s e).rxInt) = false := by
  simp only [dwIicDisCbr]
  cases e <;> simp only <;> split <;>
    exact ⟨rfl, fun d => by cases d <;> rfl, by simp_all⟩

theorem flag_dwIicEnaCbr (s : IicDev) (e d : Dir) :
    (dwIicEnaCbr s e).flag d = if e = d then true else s.flag d := by
  cases e <;> cases d <;> rfl

theorem mask_dwIicEnaCbr (s : IicDev) (e : Dir) : (dwIicEnaCbr s e).mask = s.mask ||| e.icInt := by
  cases e <;> rfl

variable {started : Option Dir}

section
variable (h : IicGoing d started s)
include h

theorem IicGoing.started_eq (hstate : s.curState = .free ∨ s.curState = e.iicState) :
    started = none ∨ started = some e := by
  rw [h.curState] at hstate
  cases started with
  | none => exact .inl rfl
  | some d' =>
    right
    cases d' <;> cases e <;> simp_all [Dir.iicState]

theorem IicGoing.mask_off (hstarted : started = none ∨ started = some e) :
    s.mask &&& ~~~e.icInt &&& ~~~d.icInt = s.mask &&& ~~~e.icInt := by
  rcases hstarted with rfl | rfl
  · have hoff : s.mask &&& ~~~d.icInt = s.mask := h.others
    rw [and_not_right_comm, hoff]
  · exact h.others

theorem IicGoing.setInt {val : Word} (hok : (dwIicControl s (.setInt e val)).1 = eOk) :
    IicGoing d (if val = 0 then none else some e) (dwIicControl s (.setInt e val)).2 := by
  obtain ⟨hstate, heq⟩ := dwIicControl_setInt_ok hok
  have hstarted := h.started_eq hstate
  have hmask := h.mask_off hstarted
  have hflag : e ≠ d → s.flag d = false := by
    intro hne
    apply h.flag
    rcases hstarted with rfl | rfl <;> simp [hne]
  rw [heq]
  split
  · obtain ⟨hoff, hdis, hgint⟩ := dwIicDisCbr_off s e
    refine ⟨rfl, ?_, fun _ => ?_, fun _ => hgint⟩
    · show (dwIicDisCbr s e).mask &&& ~~~d.icInt = (dwIicDisCbr s e).mask
      rw [hoff]
      exact hmask
    · show (dwIicDisCbr s e).flag d = false
      rw [hdis]
      split
      · rfl
      · rename_i hne
        exact hflag hne
  · refine ⟨rfl, ?_, fun hne => ?_, fun hc => absurd hc (by simp)⟩
    · show (dwIicEnaCbr s e).mask &&& ~~~e.icInt &&& ~~~d.icInt =
        (dwIicEnaCbr s e).mask &&& ~~~e.icInt
      rw [mask_dwIicEnaCbr, or_and_not_self]
      exact hmask
    · have hne' : e ≠ d := fun hc => hne (by rw [hc])
      show (dwIicEnaCbr s e).flag d = false
      rw [flag_dwIicEnaCbr, if_neg hne']
      exact hflag hne'

theorem IicGoing.withBuf (b : DevBuffer) : IicGoing d started (s.withBuf e b) := by
  cases e <;> exact { h with flag := by cases d <;> exact h.flag }

end

theorem iic_going_started (h : Issued iicIssue iicAccepts s cmds s') (hs : IicGoing d none s) :
    IicGoing d (iicStarted cmds) s' := by
  refine h.lastSet IicCmd.starts (fun cur => IicGoing d cur.join) (fun cur s cmd hcur hok => ?_) hs
  cases cmd with
  | setInt e val => exact hcur.setInt hok
  | setIntBuf e param devbuf =>
    rw [iicIssue, dwIicControl_setIntBuf_ok hok]
    exact hcur.withBuf _

theorem IicGoing.through (s : IicDev) (d : Dir) : IicGoing d none (s.through d) := by
  obtain ⟨hoff, hdis, hgint⟩ := dwIicDisCbr_off s d
  refine ⟨rfl, ?_, fun _ => ?_, fun _ => hgint⟩
  · show (dwIicDisCbr s d).mask &&& ~~~d.icInt = (dwIicDisCbr s d).mask
    rw [hoff, BitVec.and_assoc, BitVec.and_self]
  · show (dwIicDisCbr s d).flag d = false
    rw [hdis, if_pos rfl]

theorem IicGoing.through_eq (h : IicGoing d none s) : s.through d = s := by
  have hmask : s.mask &&& ~~~d.icInt = s.mask := h.others
  have hstate : IicState.free = s.curState := h.curState.symm
  have hgint := h.gint rfl
  cases d with
  | tx =>
    have htx : false = s.txInt := (h.flag (by simp)).symm
    have hkeep : ¬ (s.gint && !false && !s.rxInt) = true := by simpa [← htx] using hgint
    simp only [IicDev.through, dwIicDisCbr, if_neg hkeep, hmask]
    rw [htx, hstate]
  | rx =>
    have hrx : false = s.rxInt := (h.flag (by simp)).symm
    have hkeep : ¬ (s.gint && !s.txInt && !false) = true := by simpa [← hrx] using hgint
    simp only [IicDev.through, dwIicDisCbr, if_neg hkeep, hmask]
    rw [hrx, hstate]

/-! The routine up to the callback. -/

theorem dwIicSend_through (h : dwIicSend room s = (words, true, s')) :
    ∃ t : IicDev, s' = t.through .tx := by
  induction room generalizing s s' words with
  | zero => exact absurd h (by simp [dwIicSend])
  | succ room ih =>
    simp only [dwIicSend] at h
    split at h
    · cases h
      exact ⟨_, rfl⟩
    · simp only [Prod.mk.injEq] at h
      obtain ⟨-, hcomplete, rfl⟩ := h
      exact ih (Prod.ext rfl (Prod.ext hcomplete rfl))

theorem dwIicStoreLoop_through (h : dwIicStoreLoop bytes s = (true, s')) :
    ∃ t : IicDev, s' = t.through .rx := by
  induction bytes generalizing s with
  | nil => exact absurd h (by simp [dwIicStoreLoop])
  | cons byte bytes ih =>
    simp only [dwIicStoreLoop] at h
    split at h
    case h_1 t hstore =>
      cases h
      simp only [dwIicStore] at hstore
      split at hstore
      · cases hstore
        exact ⟨_, rfl⟩
      · exact absurd hstore (by simp)
    case h_2 => exact ih h

theorem dwIicServe_through {status : Word}
    (h : dwIicServe s d status room bytes = (words, true, s')) :
    ∃ t : IicDev, s' = t.through d := by
  cases d with
  | tx =>
    simp only [dwIicServe, dwIicServeTx] at h
    split at h
    · exact dwIicSend_through h
    · exact absurd h (by simp)
  | rx =>
    simp only [dwIicServe, dwIicServeRx, Prod.mk.injEq] at h
    obtain ⟨-, hcomplete, rfl⟩ := h
    split at hcomplete
    · rename_i hflag
      rw [if_pos hflag]
      exact dwIicStoreLoop_through (Prod.ext hcomplete rfl)
    · exact absurd hcomplete (by simp)

/-- The routine behind a callback that has left the device as `s`. -/
def IicDev.finished (s : IicDev) (d : Dir) (abort : Bool) : IicDev :=
  (if abort then (s.withBuf d .cleared).through d else s).withBuf d .cleared

theorem IicChain.spec (h : IicChain cbs d abort cmds plain left after) :
    ∃ s₁, IicGoing d none s₁ ∧ Issued iicIssue iicAccepts s₁ cmds left ∧
      after = left.finished d abort ∧ plain = s₁.finished d abort := by
  cases h with
  | @intro s s₁ status room bytes err _ _ hbuf hserve hcmds herr =>
    obtain ⟨t, rfl⟩ := dwIicServe_through hserve
    refine ⟨_, IicGoing.through t _, hcmds, ?_, ?_⟩ <;>
      simp only [dwIicIsr, dwIicMstInt, if_pos hbuf, hserve, IicDev.finish, dwIicAbrt, herr,
        if_true, IicDev.finished] <;> split <;> rfl

theorem IicGoing.finished_eq (h : IicGoing d none s) (abort : Bool) :
    s.finished d abort = s.withBuf d .cleared := by
  unfold IicDev.finished
  split
  · rw [(h.withBuf .cleared).through_eq, IicDev.withBuf_withBuf]
  · rfl

variable (h : IicChain cbs d abort cmds plain left after)
include h

/-- An aborted transfer that is found turns off what the callback has started. -/
theorem IicChain.ints_after_iff :
    after.ints = left.ints ↔ (abort = true → iicStarted cmds = none) := by
  obtain ⟨s₁, hrest, hcmds, rfl, -⟩ := h.spec
  have hgoing := iic_going_started hcmds hrest
  constructor
  · rintro hints rfl
    -- nothing goes on behind the abort
    have hfree : IicState.free = left.curState := by
      rw [IicDev.finished, IicDev.ints_withBuf] at hints
      exact congrArg Prod.fst hints
    rw [hgoing.curState] at hfree
    cases hstarted : iicStarted cmds with
    | none => rfl
    | some e =>
      rw [hstarted] at hfree
      cases e <;> exact absurd hfree (by simp [Dir.iicState])
  · intro hnone
    cases abort with
    | false => exact IicDev.ints_withBuf left d .cleared
    | true =>
      rw [hnone rfl] at hgoing
      rw [hgoing.finished_eq]
      exact IicDev.ints_withBuf left d .cleared

theorem IicChain.holds_after_iff :
    (∀ d' b, iicSlots.last d' cmds = some b → iicSlots.Holds after d' b) ↔
      ∀ b, iicSlots.last d cmds = some b → b = .cleared := by
  obtain ⟨s₁, -, hcmds, rfl, -⟩ := h.spec
  refine iicSlots.holds_put_iff fun d' b hd hb => ?_
  have hleft : left.withBuf d' b = left := iicSlots.holds_last hcmds hb
  split
  · show ((left.withBuf d .cleared).through d).withBuf d' b = (left.withBuf d .cleared).through d
    rw [← IicDev.through_withBuf, IicDev.withBuf_comm left d d' _ _ hd, hleft]
  · exact hleft

/-- A new transfer is intact exactly when nothing is installed for the direction that is through,
and nothing is started if an aborted transfer is found. -/
theorem IicChain.intact_iff :
    IicIntact cmds left after ↔
      (∀ b, iicSlots.last d cmds = some b → b = .cleared) ∧
        (abort = true → iicStarted cmds = none) :=
  and_congr h.holds_after_iff h.ints_after_iff

/-- Then the commands might as well have been issued after the routine. -/
theorem IicChain.as_outside (hnone : ∀ b, iicSlots.last d cmds = some b → b = .cleared)
    (hstarted : abort = true → iicStarted cmds = none) : after = issue iicIssue cmds plain := by
  obtain ⟨s₁, hrest, hcmds, rfl, rfl⟩ := h.spec
  have hafter : left.finished d abort = left.withBuf d .cleared := by
    cases abort with
    | false => rfl
    | true =>
      have hgoing := iic_going_started hcmds hrest
      rw [hstarted rfl] at hgoing
      exact hgoing.finished_eq true
  rw [hafter, hrest.finished_eq]
  exact iicSlots.put_eq_issue hcmds hnone

end Embarc
