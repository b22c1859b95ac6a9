/-
How an interrupt transfer of the IIC master ends.

While bytes are left and no abort is found, an execution of the interrupt routine makes no call
and lowers the number of bytes that are left.  The execution that serves the last byte runs the
callback of the transfer, and the one that finds an abort runs the error callback.  One execution
may do both, since the routine looks for an abort whether or not it has just completed the buffer.
And `err_state` is written only where an abort is looked up, so that a transfer that succeeds
leaves there what an earlier one has put there.
-/
import Embarc.DesignWare.IicMaster

namespace Embarc

variable {env : Word → IicMst → IicMst} {s : IicDev} {m q : IicMst} {d : Dir} {ev : IicIsrEvent}

/-! ### Serving the FIFOs -/

/-- A transfer is under way and bytes are left. -/
structure IicDev.Serving (d : Dir) (s : IicDev) : Prop where
  state : s.curState = d.iicState
  buf : (s.buf d).buf ≠ 0
  left : (s.buf d).ofs < (s.buf d).len

def IicDev.left (d : Dir) (s : IicDev) : Nat := (s.buf d).len.toNat - (s.buf d).ofs.toNat

def IicIsrEvent.served (d : Dir) (ev : IicIsrEvent) : Nat :=
  match d with
  | .tx => if hasFlag ev.status icIntrTxEmpty then ev.room else 0
  | .rx => if hasFlag ev.status icIntrRxFull then ev.bytes.length else 0

theorem IicDev.Serving.left_pos (h : s.Serving d) : 0 < s.left d := by
  have hleft := h.left
  simp only [IicDev.left]
  bv_omega

theorem IicDev.Serving.serves (h : s.Serving d) : s.serves = d := by
  cases d <;> simp [IicDev.serves, h.state, Dir.iicState]

/-- What serving `n` bytes does: all are served and some are left, or the buffer is through. -/
structure IicServed (d : Dir) (n : Nat) (s : IicDev) (complete : Bool) (s' : IicDev) : Prop where
  complete_iff : complete = true ↔ s.left d ≤ n
  serving : complete = false → s'.Serving d
  left : complete = false → s'.left d + n = s.left d

theorem IicServed.nothing (h : s.Serving d) : IicServed d 0 s false s where
  complete_iff := by
    have hpos := h.left_pos
    simp only [Bool.false_eq_true, false_iff]
    omega
  serving _ := h
  left _ := rfl

theorem IicServed.next {n : Nat} {s₁ s' : IicDev} {complete : Bool}
    (h : IicServed d n s₁ complete s') (hleft : s₁.left d + 1 = s.left d) :
    IicServed d (n + 1) s complete s' where
  complete_iff := by
    rw [h.complete_iff]
    omega
  serving := h.serving
  left hmore := by
    have hrest := h.left hmore
    omega

theorem dwIicSend_served (h : s.Serving .tx) (room : Nat) :
    IicServed .tx room s (dwIicSend room s).2.1 (dwIicSend room s).2.2 := by
  induction room generalizing s with
  | zero => exact IicServed.nothing h
  | succ room ih =>
    have hleft : s.txBuf.ofs < s.txBuf.len := h.left
    simp only [dwIicSend, decide_eq_true_eq]
    split_ifs with hlast
    · refine ⟨?_, (fun hmore => by cases hmore), fun hmore => by cases hmore⟩
      simp only [IicDev.left, IicDev.buf, hlast, true_iff]
      bv_omega
    · have hnext :
          IicDev.Serving .tx { s with txBuf := { s.txBuf with ofs := s.txBuf.ofs + 1 } } :=
        ⟨h.state, h.buf, show s.txBuf.ofs + 1 < s.txBuf.len by bv_omega⟩
      refine (ih hnext).next ?_
      simp only [IicDev.left, IicDev.buf]
      bv_omega

theorem dwIicIssueLoop_serving (h : s.Serving .rx) (room : Nat) :
    (dwIicIssueLoop room s).2.Serving .rx ∧ (dwIicIssueLoop room s).2.left .rx = s.left .rx := by
  induction room generalizing s with
  | zero => exact ⟨h, rfl⟩
  | succ room ih =>
    simp only [dwIicIssueLoop, dwIicIssue]
    by_cases hall : s.cmdOfs ≥ s.cmdLen
    · rw [if_pos hall]
      exact ⟨{ h with }, rfl⟩
    · rw [if_neg hall]
      exact ih { h with }

theorem dwIicStoreLoop_served (h : s.Serving .rx) (bytes : List Byte) :
    IicServed .rx bytes.length s (dwIicStoreLoop bytes s).1 (dwIicStoreLoop bytes s).2 := by
  induction bytes generalizing s with
  | nil => exact IicServed.nothing h
  | cons byte bytes ih =>
    have hleft : s.rxBuf.ofs < s.rxBuf.len := h.left
    simp only [dwIicStoreLoop, dwIicStore]
    split_ifs with hlast
    · refine ⟨?_, (fun hmore => by cases hmore), fun hmore => by cases hmore⟩
      simp only [IicDev.left, IicDev.buf, true_iff, List.length_cons]
      bv_omega
    · have hnext : IicDev.Serving .rx { s with
          mem := Function.update s.mem (s.rxBuf.buf + s.rxBuf.ofs) byte
          rxBuf := { s.rxBuf with ofs := s.rxBuf.ofs + 1 } } :=
        ⟨h.state, h.buf, show s.rxBuf.ofs + 1 < s.rxBuf.len by bv_omega⟩
      refine (ih hnext).next ?_
      simp only [IicDev.left, IicDev.buf]
      bv_omega

theorem dwIicServe_served (h : s.Serving d) (ev : IicIsrEvent) :
    IicServed d (ev.served d) s (dwIicServe s d ev.status ev.room ev.bytes).2.1
      (dwIicServe s d ev.status ev.room ev.bytes).2.2 := by
  cases d with
  | tx =>
    simp only [dwIicServe, dwIicServeTx, IicIsrEvent.served]
    split_ifs
    · exact dwIicSend_served h ev.room
    · exact IicServed.nothing h
  | rx =>
    simp only [dwIicServe, dwIicServeRx, IicIsrEvent.served]
    -- the read commands that go out first leave the buffer alone
    have hissue : (if hasFlag ev.status icIntrTxEmpty then dwIicIssueLoop ev.room s
        else ([], s)).2.Serving .rx ∧ (if hasFlag ev.status icIntrTxEmpty then
          dwIicIssueLoop ev.room s else ([], s)).2.left .rx = s.left .rx := by
      split
      · exact dwIicIssueLoop_serving h ev.room
      · exact ⟨h, rfl⟩
    generalize (if hasFlag ev.status icIntrTxEmpty then dwIicIssueLoop ev.room s
      else ([], s)) = issued at hissue ⊢
    obtain ⟨hserving, hleft⟩ := hissue
    have hserved : ∀ n complete s', IicServed .rx n issued.2 complete s' →
        IicServed .rx n s complete s' := fun n complete s' hn =>
      ⟨by rw [hn.complete_iff, hleft], hn.serving, fun hmore => by rw [hn.left hmore, hleft]⟩
    split_ifs
    · exact hserved _ _ _ (dwIicStoreLoop_served hserving ev.bytes)
    · exact hserved _ _ _ (IicServed.nothing hserving)

/-! ### One execution of the routine -/

/-- A transfer is under way, and its callback and the error callback are set. -/
structure IicMst.Started (d : Dir) (m : IicMst) : Prop where
  serving : m.dev.Serving d
  cb : m.cbs.of d ≠ 0
  err : m.cbs.errCb ≠ 0

def IicMst.Completes (d : Dir) (m : IicMst) (ev : IicIsrEvent) : Prop := m.dev.left d ≤ ev.served d

instance (d : Dir) (m : IicMst) (ev : IicIsrEvent) : Decidable (m.Completes d ev) :=
  inferInstanceAs (Decidable (_ ≤ _))

namespace IicMst

theorem chkerr_fst (m : IicMst) (ev : IicIsrEvent) :
    (m.chkerr ev).1 = if hasFlag ev.raw icIntrTxAbrt then iicAbrtErr ev.source else .none := by
  simp only [chkerr]
  split
  · rfl
  · split <;> dsimp only <;> split <;> rfl

theorem chkerr_snd (m : IicMst) (ev : IicIsrEvent) :
    (m.chkerr ev).2.dev = m.dev ∧ (m.chkerr ev).2.cbs = m.cbs := by
  simp only [chkerr]
  split
  · exact ⟨rfl, rfl⟩
  · split <;> split <;> exact ⟨rfl, rfl⟩

theorem check_spec (m : IicMst) (d : Dir) (ev : IicIsrEvent) :
    (m.check d ev).1 = ev.aborts ∧ (m.check d ev).2.cbs = m.cbs ∧
      (m.check d ev).2.dev = (if ev.aborts then m.dev.through d else m.dev) ∧
      (m.check d ev).2.errState =
        (if hasFlag ev.status icIntrTxAbrt then (m.chkerr ev).1 else m.errState) := by
  simp only [check, IicIsrEvent.aborts]
  by_cases hstatus : hasFlag ev.status icIntrTxAbrt
  · simp only [hstatus, if_true, Bool.true_and, m.chkerr_fst ev]
    by_cases hraw : hasFlag ev.raw icIntrTxAbrt
    · have herr := iicAbrtErr_ne_none ev.source
      simp [hraw, herr, m.chkerr_snd ev]
    · simp [hraw, m.chkerr_snd ev]
  · simp [hstatus]

theorem served_spec (m : IicMst) (d : Dir) (status : Word) (complete : Bool) :
    (m.served d status complete).cbs = m.cbs ∧
      (m.served d status complete).errState = m.errState ∧
      (m.served d status complete).dev =
        if complete then m.dev.withBuf d .cleared else m.dev := by
  simp only [served]
  cases d <;> cases complete <;> dsimp only <;> split <;> simp

theorem Started.complete_iff (h : m.Started d) (ev : IicIsrEvent) :
    (m.serve d ev).2.1 = true ↔ m.Completes d ev :=
  (dwIicServe_served h.serving ev).complete_iff

theorem Started.isr_calls (env : Word → IicMst → IicMst) (h : m.Started d) (ev : IicIsrEvent) :
    (dwIicMstIsr env m ev).err = ev.aborts ∧ ∃ (status : Word) (m' : IicMst),
      (dwIicMstIsr env m ev).calls =
        (if m.Completes d ev then [{ cbrtn := .ofDir d, status, err := m.errState }] else []) ++
          (if ev.aborts then m'.callOf .err else []) ∧
      (ev.aborts = true → m'.errState = iicAbrtErr ev.source) ∧
      (¬m.Completes d ev → m'.cbs = m.cbs) := by
  simp only [dwIicMstIsr, h.serving.serves, int, if_pos h.serving.buf]
  generalize hm₂ : (if (m.serve d ev).2.1 = true then
    ((m.serve d ev).2.2).callback env (.ofDir d) else (m.serve d ev).2.2) = m₂
  obtain ⟨herr, hcbs, -, hstate⟩ := (m₂.served d ev.status (m.serve d ev).2.1).check_spec d ev
  refine ⟨herr, (m.serve d ev).2.2.dev.status,
    ((m₂.served d ev.status (m.serve d ev).2.1).check d ev).2, ?_, ?_, ?_⟩
  · rw [herr]
    congr 1
    simp only [h.complete_iff ev]
    split
    · exact callOf_set h.cb
    · rfl
  · intro habort
    obtain ⟨hstatus, hraw⟩ := (Bool.and_eq_true _ _).mp habort
    rw [hstate, if_pos hstatus, chkerr_fst, if_pos hraw]
  · intro hleft
    rw [hcbs, (m₂.served_spec d ev.status _).1, ← hm₂,
      if_neg (fun hall => hleft ((h.complete_iff ev).mp hall))]
    rfl

/-- No call is made where bytes are left and there is no abort, and the transfer goes on. -/
theorem Started.goes_on (env : Word → IicMst → IicMst) (h : m.Started d)
    (hleft : ¬m.Completes d ev) (habort : ev.aborts = false) :
    (dwIicMstIsr env m ev).mst.Started d ∧
      (dwIicMstIsr env m ev).mst.dev.left d + ev.served d = m.dev.left d := by
  have hserve := dwIicServe_served h.serving ev
  have hmore : (m.serve d ev).2.1 = false := by
    rw [Bool.eq_false_iff]
    exact fun hall => hleft ((h.complete_iff ev).mp hall)
  obtain ⟨herr, hcbs, hdev, -⟩ := ((m.serve d ev).2.2.served d ev.status false).check_spec d ev
  rw [habort] at herr hdev
  obtain ⟨hcbs', -, hdev'⟩ := (m.serve d ev).2.2.served_spec d ev.status false
  rw [hcbs'] at hcbs
  rw [hdev'] at hdev
  simp only [dwIicMstIsr, h.serving.serves, int, if_pos h.serving.buf, hmore, herr,
    Bool.false_eq_true, if_false, checked] at hcbs hdev ⊢
  rw [hdev]
  exact ⟨⟨hdev ▸ hserve.serving hmore, hcbs ▸ h.cb, hcbs ▸ h.err⟩, hserve.left hmore⟩

/-- No call is made exactly where bytes are left and there is no abort. -/
theorem Started.calls_eq_nil_iff (h : m.Started d) (ev : IicIsrEvent) :
    (dwIicMstIsr env m ev).calls = [] ↔ ¬m.Completes d ev ∧ ev.aborts = false := by
  obtain ⟨-, status, m', hcalls, -, hcbs⟩ := h.isr_calls env ev
  rw [hcalls]
  by_cases hall : m.Completes d ev
  · simp [hall]
  · by_cases habort : ev.aborts
    · have herr : m'.cbs.get .err ≠ 0 := by
        rw [hcbs hall]
        exact h.err
      simp [hall, habort, callOf_set herr]
    · simp [hall, habort]

end IicMst

/-! ### A whole transfer -/

abbrev iicIsrStep (env : Word → IicMst → IicMst) (m : IicMst) (ev : IicIsrEvent) :
    Except Empty IicMst := .ok (dwIicMstIsr env m ev).mst

/-- The routine makes no call, so that the transfer goes on. -/
def IicQuiet (env : Word → IicMst → IicMst) (m : IicMst) (ev : IicIsrEvent) : Prop :=
  (dwIicMstIsr env m ev).calls = []

/-- An execution leaves the transfer under way without a call, or it makes one call, for the
transfer or for an error, and an error is found and reported exactly in the second case. -/
def IicMst.EndsOnce (env : Word → IicMst → IicMst) (d : Dir) (m : IicMst) (ev : IicIsrEvent) :
    Prop :=
  let r := dwIicMstIsr env m ev
  r.calls = [] ∧ r.err = false ∧ r.mst.Started d ∨
    ∃ call, r.calls = [call] ∧ (call.cbrtn = .ofDir d ∨ call.cbrtn = .err) ∧
      (call.err ≠ .none ↔ call.cbrtn = .err) ∧ (r.err = true ↔ call.cbrtn = .err)

/-- **Exactly one outcome** is reported by the execution that ends a transfer, unless it has
both completed the buffer and found an abort, or found an old error in `err_state`. -/
theorem IicMst.Started.endsOnce_iff (h : m.Started d) (ev : IicIsrEvent) :
    m.EndsOnce env d ev ↔ (m.Completes d ev → m.errState = .none ∧ ev.aborts = false) := by
  obtain ⟨herr, status, m', hcalls, hstate, hcbs⟩ := h.isr_calls env ev
  by_cases hall : m.Completes d ev
  · rw [if_pos hall] at hcalls
    constructor
    · rintro (⟨hnone, -⟩ | ⟨call, hone, -, herrs, habrt⟩) _
      · rw [hcalls] at hnone
        exact absurd hnone (by simp)
      · -- the call is the one for the buffer
        rw [hcalls, List.singleton_append, List.cons.injEq] at hone
        obtain ⟨rfl, -⟩ := hone
        rw [herr] at habrt
        refine ⟨?_, ?_⟩
        · by_contra hold
          exact absurd (herrs.mp hold) (by simp)
        · rw [Bool.eq_false_iff]
          exact fun habort => absurd (habrt.mp habort) (by simp)
    · intro hclean
      obtain ⟨hnone, habort⟩ := hclean hall
      refine Or.inr ⟨_, by rw [hcalls, habort]; rfl, Or.inl rfl, ?_, ?_⟩
      · simp [hnone]
      · simp [herr, habort]
  · refine ⟨fun _ hcompletes => absurd hcompletes hall, fun _ => ?_⟩
    by_cases habort : ev.aborts
    · have hset : m'.cbs.get .err ≠ 0 := by
        rw [hcbs hall]
        exact h.err
      have hfound := iicAbrtErr_ne_none ev.source
      rw [if_neg hall, if_pos habort, IicMst.callOf_set hset] at hcalls
      refine Or.inr ⟨_, hcalls, Or.inr rfl, ?_, ?_⟩
      · simp [hstate habort, hfound]
      · simp [herr, habort]
    · have hquiet : ev.aborts = false := Bool.eq_false_iff.mpr habort
      refine Or.inl ⟨(h.calls_eq_nil_iff ev).mpr ⟨hall, hquiet⟩, herr.trans hquiet, ?_⟩
      exact (h.goes_on env hall hquiet).1

/-- As long as no call is made the transfer is under way, and what was served is missing from what
was left. -/
theorem IicMst.Started.quiet {evs : List IicIsrEvent} (h : m.Started d)
    (hruns : Trace.Runs (iicIsrStep env) (IicQuiet env) m evs q) :
    q.Started d ∧ q.dev.left d + (evs.map (IicIsrEvent.served d)).sum = m.dev.left d := by
  induction hruns with
  | nil => exact ⟨h, rfl⟩
  | @cons m m₁ q ev evs hquiet hstep _ ih =>
    cases hstep
    obtain ⟨hleft, habort⟩ := (h.calls_eq_nil_iff ev).mp hquiet
    obtain ⟨hgoes, hless⟩ := h.goes_on env hleft habort
    obtain ⟨hend, hrest⟩ := ih hgoes
    refine ⟨hend, ?_⟩
    simp only [List.map_cons, List.sum_cons]
    omega

/-- Over any sequence of interrupts, a transfer ends, when all its bytes are served at the latest,
with one call that `err_state` agrees with, **exactly if** the execution that serves the last byte
finds neither an abort nor an old error. -/
theorem iic_once_iff (h : m.Started d) (evs : List IicIsrEvent) :
    ((∀ pre ev q, pre ++ [ev] <+: evs →
        Trace.Runs (iicIsrStep env) (IicQuiet env) m pre q → q.EndsOnce env d ev) ∧
      ∀ q, Trace.Runs (iicIsrStep env) (IicQuiet env) m evs q →
        (evs.map (IicIsrEvent.served d)).sum < m.dev.left d) ↔
    ∀ pre ev q, pre ++ [ev] <+: evs → Trace.Runs (iicIsrStep env) (IicQuiet env) m pre q →
      q.Completes d ev → q.errState = .none ∧ ev.aborts = false := by
  constructor
  · rintro ⟨honce, -⟩ pre ev q hpre hruns
    exact ((h.quiet hruns).1.endsOnce_iff ev).mp (honce pre ev q hpre hruns)
  · intro hclean
    refine ⟨fun pre ev q hpre hruns => ?_, fun q hruns => ?_⟩
    · exact ((h.quiet hruns).1.endsOnce_iff ev).mpr (hclean pre ev q hpre hruns)
    · obtain ⟨hgoes, hsum⟩ := h.quiet hruns
      have hpos := hgoes.serving.left_pos
      omega

def iicMstSending : IicMst where
  dev :=
    { opnCnt := 1, status := devEnabled, curState := .inTx, stop := true
      txBuf := { buf := 0x100, len := 2, ofs := 0 }, rxBuf := .cleared, cmdOfs := 0, cmdLen := 0
      mask := 0x58, txInt := true, rxInt := false, gint := true
      ram := fun _ => 0x5a, mem := fun _ => 0 }
  errState := .none
  cbs := { txCb := 0x200, rxCb := 0x204, errCb := 0x208 }
  txOver := 0
  rxOver := 0

theorem iicMstSending_started : iicMstSending.Started .tx := by
  refine ⟨⟨rfl, ?_, ?_⟩, ?_, ?_⟩ <;> decide

def iicRoom : IicIsrEvent :=
  { status := icIntrTxEmpty, room := 4, bytes := [], raw := icIntrTxEmpty, source := 0,
    clrTxOver := 0 }

theorem iic_once_sent :
    iicMstSending.Started .tx ∧ iicMstSending.EndsOnce (fun _ m => m) .tx iicRoom ∧
      (dwIicMstIsr (fun _ m => m) iicMstSending iicRoom).calls =
        [{ cbrtn := .ofDir .tx, status := devEnabled, err := .none }] := by
  refine ⟨iicMstSending_started, ?_, by decide⟩
  refine ((iic_once_iff iicMstSending_started [iicRoom]).mpr ?_).1 [] iicRoom iicMstSending
    (List.prefix_refl _) (.nil _)
  rintro pre ev q ⟨rest, hevs⟩ hruns _
  cases pre with
  | nil =>
    cases hruns
    obtain ⟨rfl, -⟩ := List.cons.inj hevs
    exact ⟨rfl, rfl⟩
  | cons ev' pre => exact absurd hevs (by simp)

def iicRoomAndAbort : IicIsrEvent :=
  { status := icIntrTxEmpty ||| icIntrTxAbrt, room := 4, bytes := []
    raw := icIntrTxEmpty ||| icIntrTxAbrt, source := iicMstAbrtDataNoack, clrTxOver := 0 }

/-- Both callbacks are made, by one execution of the routine. -/
theorem iic_sent_and_failed :
    iicMstSending.Started .tx ∧
      (dwIicMstIsr (fun _ m => m) iicMstSending iicRoomAndAbort).calls =
        [{ cbrtn := .ofDir .tx, status := devEnabled, err := .none },
          { cbrtn := .err, status := devEnabled, err := .dataNoack }] ∧
      ¬iicMstSending.EndsOnce (fun _ m => m) .tx iicRoomAndAbort := by
  have hcalls : (dwIicMstIsr (fun _ m => m) iicMstSending iicRoomAndAbort).calls =
      [{ cbrtn := .ofDir .tx, status := devEnabled, err := .none },
        { cbrtn := .err, status := devEnabled, err := .dataNoack }] := by decide
  refine ⟨iicMstSending_started, hcalls, ?_⟩
  rintro (⟨hnone, -⟩ | ⟨call, hone, -⟩)
  · rw [hcalls] at hnone
    exact absurd hnone (by simp)
  · rw [hcalls] at hone
    exact absurd hone (by simp)

end Embarc
