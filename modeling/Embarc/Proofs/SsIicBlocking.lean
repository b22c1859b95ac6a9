/-
The blocking calls of the subsystem: those of the I2C master, and with the ones of the UART all
four.

A write of the I2C master ends with the interrupt that finds everything in the transmit FIFO, and a
read with the one that takes the last byte.  The interrupts on the way move something, or are
masked because there is nothing left to move.

An error is only noted in the flags.  A write goes on behind it and reports it in the end.  A read
whose bytes the error has cost does not end: it waits for its last byte.
-/
import Embarc.Proofs.SsUartBlocking
import Embarc.Subsystem.SsIicBlocking

namespace Embarc

open Trace (Runs Ends)

namespace I2cDev

/-! ### The device between and during calls -/

structure CallReady (hw : I2cHw) (s : I2cDev) : Prop where
  handle : s.handle = true
  dirCb : ∀ d, s.cbs.get (.ofDir d) ≠ 0
  errCb : s.cbs.get .err ≠ 0
  fifo : hw.fifoDepth ≠ 0

/-- Nothing is being moved, and no interrupt would come. -/
structure Idle (s : I2cDev) : Prop where
  tx : s.handlingTx = false
  rx : s.handlingRx = false
  txMasked : hasFlag s.regs.intrMask rTxEmpty = false
  rxMasked : hasFlag s.regs.intrMask rRxFull = false

/-- A write of `n` bytes in progress. -/
structure Writes (n : Word) (s : I2cDev) : Prop where
  tx : s.handlingTx = true
  rx : s.handlingRx = false
  size : s.txSize = n
  count_le : s.txCount.toNat ≤ n.toNat
  on : hasFlag s.regs.intrMask rTxEmpty = true
  rxMasked : hasFlag s.regs.intrMask rRxFull = false

/-- A read of `n` bytes in progress: what has come was asked for, and there is more to come. -/
structure Reads (n : Word) (s : I2cDev) : Prop where
  tx : s.handlingTx = false
  rx : s.handlingRx = true
  size : s.rxSize = n
  count_le : s.rxCount.toNat ≤ s.rxReqCount.toNat
  req_le : s.rxReqCount.toNat ≤ n.toNat
  count_lt : s.rxCount.toNat < n.toNat
  on : hasFlag s.regs.intrMask rRxFull = true
  asks : s.rxReqCount ≠ n → hasFlag s.regs.intrMask rTxEmpty = true

/-! ### The FIFOs -/

variable {hw : I2cHw} {s : I2cDev}

theorem count_add_capped {size count : Word} (free : Word) (h : count.toNat ≤ size.toNat) :
    (count + capped (size - count) free).toNat =
      count.toNat + min (size.toNat - count.toNat) free.toNat := by
  have hleft : (size - count).toNat = size.toNat - count.toNat := BitVec.toNat_sub_of_le h
  have hcapped := capped_toNat (size - count) free
  rw [hleft] at hcapped
  rw [BitVec.toNat_add_of_lt (by omega), hcapped]

theorem fillTxfifo_spec (hw : I2cHw) (txflr : Word) (h : s.txCount.toNat ≤ s.txSize.toNat) :
    ∃ count sent, fillTxfifo hw s txflr = { s with txCount := count, sent } ∧
      count.toNat =
        s.txCount.toNat + min (s.txSize.toNat - s.txCount.toNat) (hw.fifoDepth - txflr).toNat := by
  have hlast : ∀ a b : Word, a + (b - 1) + 1 = a + b := fun a b => by bv_omega
  refine ⟨_, (fillTxfifo hw s txflr).sent, ?_, count_add_capped (hw.fifoDepth - txflr) h⟩
  rw [← hlast]
  rfl

theorem fillTxfifoForRx_spec (hw : I2cHw) (txflr : Word)
    (h : s.rxReqCount.toNat ≤ s.rxSize.toNat) :
    ∃ count sent, fillTxfifoForRx hw s txflr = { s with rxReqCount := count, sent } ∧
      count.toNat = s.rxReqCount.toNat +
        min (s.rxSize.toNat - s.rxReqCount.toNat) (hw.fifoDepth - txflr).toNat :=
  ⟨_, _, rfl, count_add_capped _ h⟩

theorem retrieveRxfifo_spec {frames : List Byte} (hframes : frames.length < 2 ^ 32)
    (h : s.rxCount.toNat ≤ s.rxSize.toNat) :
    ∃ count mem, retrieveRxfifo s frames = { s with rxCount := count, mem } ∧
      count.toNat = s.rxCount.toNat + min (s.rxSize.toNat - s.rxCount.toNat) frames.length := by
  refine ⟨_, _, rfl, (count_add_capped _ h).trans ?_⟩
  rw [BitVec.toNat_ofNat, Nat.mod_eq_of_lt hframes]

theorem call_eq {which : DevCb} (h : s.cbs.get which ≠ 0) :
    s.call which = { s with calls := s.calls ++ [which] } := if_pos h

theorem free_pos {txflr : Word} (h : txflr < hw.fifoDepth) : 0 < (hw.fifoDepth - txflr).toNat := by
  bv_omega

theorem CallReady.fifo_pos (h : s.CallReady hw) : 0 < hw.fifoDepth :=
  Nat.pos_of_ne_zero fun hc => h.fifo (BitVec.eq_of_toNat_eq hc)

end I2cDev

/-! ### The interrupts for a call -/

def SsIicIrq.failed : SsIicIrq → Bool
  | .err _ _ => true
  | _ => false

/-- What the hardware raises: interrupts that are not masked, for a transmit FIFO that has room and
for bytes that were asked for. -/
def I2cDev.Raises (hw : I2cHw) (s : I2cDev) : SsIicIrq → Prop
  | .txReq txflr txflr' =>
    hasFlag s.regs.intrMask rTxEmpty = true ∧ txflr < hw.fifoDepth ∧ txflr' < hw.fifoDepth
  | .rxAvail frames =>
    hasFlag s.regs.intrMask rRxFull = true ∧ frames ≠ [] ∧
      frames.length ≤ (s.rxReqCount - s.rxCount).toNat
  | .err txAbrt rxOver => (txAbrt || rxOver) = true

/-- An error costs no bytes that are waited for, and the last of these does not come before the
interrupt that finds all of them asked for. -/
def SsIicCallKept (d : Dir) (s : I2cDev) : SsIicIrq → Prop
  | .txReq _ _ => True
  | .rxAvail frames => (s.rxSize - s.rxCount).toNat ≤ frames.length →
      hasFlag s.regs.intrMask rTxEmpty = false
  | .err _ _ => d = .tx

/-- While a call waits, an error comes once at most. -/
def SsIicCallOk (hw : I2cHw) (d : Dir) (p : SsIicCtx) (e : SsIicIrq) : Prop :=
  p.io.Raises hw e ∧ (e.failed = true → hasFlag p.flags ssIicFlagError = false) ∧
    SsIicCallKept d p.io e

/-- What the device makes of an interrupt. -/
def SsIicIrq.serve (hw : I2cHw) (s : I2cDev) : SsIicIrq → I2cDev
  | .txReq txflr txflr' => i2cMstTxReqIsrRx hw (i2cMstTxReqIsrTx hw s txflr) txflr'
  | .rxAvail frames => i2cMstRxAvailIsr s frames
  | .err txAbrt rxOver => i2cMstErrIsr s txAbrt rxOver

theorem ssIicServe_eq (hw : I2cHw) (p : SsIicCtx) (e : SsIicIrq) :
    ssIicServe hw p e = .ok (p.after (e.serve hw p.io)) := by
  cases e <;> rfl

variable {p : SsIicCtx} {es : List SsIicIrq}

theorem SsIicCtx.after_flags {io : I2cDev} {cs : List DevCb} (h : io.calls = p.io.calls ++ cs) :
    (p.after io).flags = cs.foldl ssIicCb p.flags := by
  simp only [SsIicCtx.after, h, List.drop_left]

/-! ### Both directions -/

section Call

variable {hw : I2cHw} {d : Dir} {work : I2cDev → Prop} {left : I2cDev → Nat}

/-- The errors so far, as they stand in the flags. -/
def ssIicError (es : List SsIicIrq) : Word :=
  if es.any SsIicIrq.failed then ssIicFlagError else 0

/-- What is known of a call: `work` until its flag is cleared. -/
structure SsIicInCall (hw : I2cHw) (d : Dir) (work : I2cDev → Prop) (es : List SsIicIrq)
    (p : SsIicCtx) : Prop where
  ready : p.io.CallReady hw
  stage : p.flags = d.ssIicFlag ||| ssIicError es ∧ work p.io ∨
    p.flags = ssIicError es ∧ p.io.Idle

/-- What an interrupt for the call does: it moves something, or ends the call.  And as long as the
call is not at its end there is one to come. -/
structure SsIicMoves (hw : I2cHw) (d : Dir) (work : I2cDev → Prop) (left : I2cDev → Nat) : Prop where
  moves : ∀ s e, s.CallReady hw → work s → s.Raises hw e → SsIicCallKept d s e → e.failed = false →
    (e.serve hw s).CallReady hw ∧
      ((e.serve hw s).calls = s.calls ∧ work (e.serve hw s) ∧ left (e.serve hw s) < left s ∨
        (e.serve hw s).calls = s.calls ++ [.ofDir d] ∧ (e.serve hw s).Idle)
  comes : ∀ s, s.CallReady hw → work s → ∃ e : SsIicIrq,
    s.Raises hw e ∧ SsIicCallKept d s e ∧ e.failed = false
  calls : ∀ s cs, work s → work { s with calls := cs } ∧ left { s with calls := cs } = left s

theorem i2cMstErrIsr_eq (s : I2cDev) (txAbrt rxOver : Bool) :
    ∃ n, i2cMstErrIsr s txAbrt rxOver = { s with calls := s.calls ++ List.replicate n .err } ∧
      (s.cbs.get .err ≠ 0 → (txAbrt || rxOver) = true → n ≠ 0) := by
  by_cases hcb : s.cbs.get .err = 0
  · have hnone : ∀ s : I2cDev, s.cbs.get .err = 0 → s.call .err = s := fun s h =>
      if_neg (not_not.mpr h)
    refine ⟨0, ?_, fun hc => absurd hcb hc⟩
    cases txAbrt <;> cases rxOver <;> simp [i2cMstErrIsr, hnone s hcb]
  · cases txAbrt <;> cases rxOver
    · exact ⟨0, by simp [i2cMstErrIsr], fun _ hc => absurd hc (by decide)⟩
    · exact ⟨1, s.call_eq hcb, fun _ _ => by decide⟩
    · exact ⟨1, s.call_eq hcb, fun _ _ => by decide⟩
    · refine ⟨2, ?_, fun _ _ => by decide⟩
      simp only [i2cMstErrIsr, if_true, I2cDev.call_eq hcb]
      rw [I2cDev.call_eq (by exact hcb)]
      simp

theorem ssIicCb_errs (flags : Word) {n : Nat} (h : n ≠ 0) :
    (List.replicate n DevCb.err).foldl ssIicCb flags = flags ||| ssIicFlagError := by
  induction n with
  | zero => exact absurd rfl h
  | succ n ih =>
    cases n with
    | zero => rfl
    | succ n =>
      rw [List.replicate_succ', List.foldl_append, ih (Nat.succ_ne_zero n)]
      show flags ||| ssIicFlagError ||| ssIicFlagError = _
      rw [BitVec.or_assoc, BitVec.or_self]

theorem ssIicFlags (d : Dir) (es : List SsIicIrq) :
    hasFlag (d.ssIicFlag ||| ssIicError es) d.ssIicFlag = true ∧
      hasFlag (ssIicError es) d.ssIicFlag = false ∧
      ssIicCb (d.ssIicFlag ||| ssIicError es) (.ofDir d) = ssIicError es ∧
      hasFlag (d.ssIicFlag ||| ssIicError es) ssIicFlagError = es.any SsIicIrq.failed := by
  rw [ssIicError]
  cases es.any SsIicIrq.failed <;> cases d <;> decide

/-- How much there is to do until a call gets on: the moves, the end, and one error. -/
def ssIicLeft (d : Dir) (left : I2cDev → Nat) (p : SsIicCtx) : Nat :=
  if p.waits d then left p.io + 1 + (if hasFlag p.flags ssIicFlagError then 0 else 1) else 0

theorem SsIicInCall.lower (hmoves : SsIicMoves hw d work left) {p' : SsIicCtx} {e : SsIicIrq}
    (h : SsIicInCall hw d work es p) (hwaits : p.waits d = true) (hok : SsIicCallOk hw d p e)
    (hstep : ssIicServe hw p e = .ok p') :
    SsIicInCall hw d work (es ++ [e]) p' ∧ ssIicLeft d left p' < ssIicLeft d left p := by
  obtain ⟨hself, hzero, hends, herror⟩ := ssIicFlags d es
  rw [ssIicServe_eq] at hstep
  cases hstep
  obtain ⟨hflags, hwork⟩ | ⟨hflags, -⟩ := h.stage
  · obtain ⟨hraises, honce, hkept⟩ := hok
    cases hfailed : e.failed with
    | true =>
      cases e with
      | txReq | rxAvail => exact absurd hfailed Bool.false_ne_true
      | err txAbrt rxOver =>
        obtain ⟨n, hserve, hn⟩ := i2cMstErrIsr_eq p.io txAbrt rxOver
        have hnone := honce hfailed
        have hready := h.ready
        obtain ⟨hwork', hleft⟩ := hmoves.calls p.io (p.io.calls ++ List.replicate n .err) hwork
        have hflags' : (p.after (i2cMstErrIsr p.io txAbrt rxOver)).flags =
            d.ssIicFlag ||| ssIicError (es ++ [.err txAbrt rxOver]) := by
          rw [SsIicCtx.after_flags (by rw [hserve]), ssIicCb_errs _ (hn hready.errCb hraises),
            hflags]
          rw [hflags, herror] at hnone
          simp [ssIicError, hnone, SsIicIrq.failed]
        refine ⟨⟨?_, .inl ⟨hflags', ?_⟩⟩, ?_⟩
        · show (i2cMstErrIsr p.io txAbrt rxOver).CallReady hw
          rw [hserve]
          exact { hready with }
        · show work (i2cMstErrIsr p.io txAbrt rxOver)
          rw [hserve]
          exact hwork'
        · obtain ⟨hself', -, -, herror'⟩ := ssIicFlags d (es ++ [.err txAbrt rxOver])
          have hio : left (p.after (i2cMstErrIsr p.io txAbrt rxOver)).io = left p.io := by
            show left (i2cMstErrIsr p.io txAbrt rxOver) = left p.io
            rw [hserve, hleft]
          simp only [ssIicLeft, SsIicIrq.serve, SsIicCtx.waits, hflags', hself', herror', hio]
          simp [SsIicIrq.failed, hflags ▸ hself, hnone]
    | false =>
      have hsame : ssIicError (es ++ [e]) = ssIicError es := by
        simp [ssIicError, hfailed]
      obtain ⟨hready, ⟨hcalls, hwork', hless⟩ | ⟨hcalls, hidle⟩⟩ :=
        hmoves.moves p.io e h.ready hwork hraises hkept hfailed
      · have hnone : (e.serve hw p.io).calls = p.io.calls ++ [] := by rw [hcalls, List.append_nil]
        have hflags' : (p.after (e.serve hw p.io)).flags = p.flags := SsIicCtx.after_flags hnone
        refine ⟨⟨hready, .inl ⟨by rw [hflags', hflags, hsame], hwork'⟩⟩, ?_⟩
        simp only [ssIicLeft, SsIicCtx.waits, hflags', hflags, hself, if_true]
        exact Nat.add_lt_add_right (Nat.add_lt_add_right hless 1) _
      · have hflags' : (p.after (e.serve hw p.io)).flags = ssIicError es := by
          rw [SsIicCtx.after_flags hcalls, hflags]
          exact hends
        refine ⟨⟨hready, .inr ⟨by rw [hflags', hsame], hidle⟩⟩, ?_⟩
        simp only [ssIicLeft, SsIicCtx.waits, hflags', hzero, hflags, hself, if_true]
        exact Nat.lt_of_lt_of_le (Nat.succ_pos _) (Nat.le_add_right _ _)
  · rw [SsIicCtx.waits, hflags, hzero] at hwaits
    exact absurd hwaits (by decide)

/-- What a call returns: its length, or an error if one was reported.  The device is then ready for
the next call. -/
def SsIicReturned (hw : I2cHw) (len : Word) (es : List SsIicIrq) (r : Int × SsIicCtx) : Prop :=
  r.1 = (if es.any SsIicIrq.failed then eSys else len.toInt) ∧ r.2.flags = 0 ∧
    r.2.io.CallReady hw ∧ r.2.io.Idle

/-- A call that begins with `start` waits, and returns in the end. -/
def SsIicCallReturns (hw : I2cHw) (d : Dir) (len : Word) (start : Except I2cStop SsIicCall) :
    Prop :=
  ∃ p, start = .ok (.waits p) ∧
    Ends (ssIicServe hw) (SsIicCallOk hw d) (fun p => p.waits d = true) p
      fun es p => SsIicReturned hw len es (ssIicMasterEnd p len)

theorem SsIicMoves.ends (hmoves : SsIicMoves hw d work left) (hp : p.io.CallReady hw)
    (hflags : p.flags = d.ssIicFlag) (hwork : work p.io) (len : Word) :
    Ends (ssIicServe hw) (SsIicCallOk hw d) (fun p => p.waits d = true) p
      fun es p => SsIicReturned hw len es (ssIicMasterEnd p len) := by
  have hstart : p.flags = d.ssIicFlag ||| ssIicError [] := by
    rw [hflags]
    cases d <;> rfl
  refine Ends.of_measure (I := SsIicInCall hw d work) (ssIicLeft d left)
    (fun es p e p' h hwaits hok hstep => h.lower hmoves hwaits hok hstep) ?_ ?_
    ⟨hp, .inl ⟨hstart, hwork⟩⟩
  · intro es p h hwaits
    obtain ⟨hflags, hwork⟩ | ⟨hflags, -⟩ := h.stage
    · obtain ⟨e, hraises, hkept, hfailed⟩ := hmoves.comes p.io h.ready hwork
      refine ⟨e, _, ⟨hraises, fun hc => ?_, hkept⟩, ssIicServe_eq hw p e⟩
      rw [hfailed] at hc
      exact absurd hc (by decide)
    · rw [SsIicCtx.waits, hflags, (ssIicFlags d es).2.1] at hwaits
      exact absurd hwaits (by decide)
  · intro es p h hends
    obtain ⟨hflags, -⟩ | ⟨hflags, hidle⟩ := h.stage
    · exact absurd (by rw [SsIicCtx.waits, hflags, (ssIicFlags d es).1]) hends
    · refine ⟨?_, rfl, h.ready, hidle⟩
      rw [ssIicMasterEnd, hflags, ssIicError]
      cases es.any SsIicIrq.failed <;> rfl

end Call

/-! ### Writing -/

variable {hw : I2cHw}

theorem i2cWrite_moves (n : Word) :
    SsIicMoves hw .tx (I2cDev.Writes n) fun s => s.txSize.toNat - s.txCount.toNat where
  moves := by
    intro s e hs hwork hraises hkept hfailed
    cases e with
    | err => exact absurd hfailed.symm Bool.false_ne_true
    | rxAvail frames =>
      rw [I2cDev.Raises, hwork.rxMasked] at hraises
      exact absurd hraises.1 Bool.false_ne_true
    | txReq txflr txflr' =>
      obtain ⟨-, hroom, -⟩ := hraises
      by_cases hcount : s.txSize = s.txCount
      · have hserve : (SsIicIrq.txReq txflr txflr').serve hw s =
            { s.writeMask (s.regs.intrMask &&& ~~~rTxEmpty) with
              handlingTx := false, txData := 0, calls := s.calls ++ [.ofDir .tx] } := by
          simp only [SsIicIrq.serve, i2cMstTxReqIsrTx, if_pos hwork.tx, if_pos hcount]
          rw [I2cDev.call_eq (by exact hs.dirCb .tx)]
          simp only [i2cMstTxReqIsrRx, I2cDev.writeMask, hwork.rx]
          rfl
        rw [hserve]
        refine ⟨{ hs with }, .inr ⟨rfl, rfl, hwork.rx, hasFlag_clear _ _, ?_⟩⟩
        exact (hasFlag_clear_of_disjoint (by decide)).trans hwork.rxMasked
      · have hle : s.txCount.toNat ≤ s.txSize.toNat := hwork.size ▸ hwork.count_le
        obtain ⟨count, sent, hfill, hcapped⟩ := I2cDev.fillTxfifo_spec hw txflr hle
        have hserve : (SsIicIrq.txReq txflr txflr').serve hw s = fillTxfifo hw s txflr := by
          simp only [SsIicIrq.serve, i2cMstTxReqIsrTx, if_pos hwork.tx, if_neg hcount, hfill]
          simp only [i2cMstTxReqIsrRx, hwork.rx]
          rfl
        have hne : s.txCount.toNat ≠ s.txSize.toNat := fun hc =>
          hcount (BitVec.eq_of_toNat_eq hc.symm)
        have hpos := I2cDev.free_pos hroom
        rw [hserve, hfill]
        refine ⟨{ hs with }, .inl ⟨rfl, { hwork with count_le := ?_ }, ?_⟩⟩
        · rw [← hwork.size]
          dsimp only
          omega
        · dsimp only
          omega
  comes := by
    intro s hs hwork
    exact ⟨.txReq 0 0, ⟨hwork.on, hs.fifo_pos, hs.fifo_pos⟩, trivial, rfl⟩
  calls s cs hwork := ⟨{ hwork with }, rfl⟩

theorem ssIicWrite_returns (hp : p.io.CallReady hw) (hidle : p.io.Idle) (hflags : p.flags = 0)
    (data len txflr : Word) :
    SsIicCallReturns hw .tx len (ssIicMasterWrite hw p data len txflr false) := by
  obtain ⟨count, sent, hfill, hcapped⟩ := I2cDev.fillTxfifo_spec hw txflr
    (s := { p.io with txSize := len, txCount := 0, txData := data, handlingTx := true })
    (Nat.zero_le _)
  have hwrite : p.io.write hw data len txflr =
      ({ p.io with txSize := len, txCount := count, txData := data, handlingTx := true, sent } :
        I2cDev).writeMask (p.io.regs.intrMask ||| rTxEmpty) := by
    refine (if_pos hidle.rx).trans ?_
    rw [I2cDev.startTx, hfill]
  refine ⟨{ io := p.io.write hw data len txflr, flags := ssIicFlagTx }, ?_,
    (i2cWrite_moves len).ends ?_ rfl ?_ len⟩
  · simp only [ssIicMasterWrite, ssIicMasterStart, hflags, ioI2cMasterWrite, if_pos hp.handle]
    rfl
  · show (p.io.write hw data len txflr).CallReady hw
    rw [hwrite]
    exact { hp with }
  · show (p.io.write hw data len txflr).Writes len
    rw [hwrite]
    refine ⟨rfl, hidle.rx, rfl, hcapped.trans_le (by simp), hasFlag_or_self _ (by decide), ?_⟩
    exact (hasFlag_or_of_disjoint (by decide)).trans hidle.rxMasked

/-! ### Reading -/

/-- The interrupts of a read ask for bytes, find all of them asked for, or take some. -/
theorem i2cRead_moves (n : Word) :
    SsIicMoves hw .rx (I2cDev.Reads n) fun s =>
      2 * (s.rxSize.toNat - s.rxReqCount.toNat) +
        (if hasFlag s.regs.intrMask rTxEmpty then 1 else 0) +
        (s.rxSize.toNat - s.rxCount.toNat) where
  moves := by
    intro s e hs hwork hraises hkept hfailed
    have hsize := hwork.size
    have hreq : s.rxReqCount.toNat ≤ s.rxSize.toNat := hsize ▸ hwork.req_le
    have hlt : s.rxCount.toNat < s.rxSize.toNat := hsize ▸ hwork.count_lt
    have hcount := hwork.count_le
    cases e with
    | err => exact absurd hfailed.symm Bool.false_ne_true
    | txReq txflr txflr' =>
      obtain ⟨hon, -, hroom⟩ := hraises
      have htx : i2cMstTxReqIsrTx hw s txflr = s := by
        simp [i2cMstTxReqIsrTx, hwork.tx]
      by_cases hall : s.rxSize = s.rxReqCount
      · have hserve : (SsIicIrq.txReq txflr txflr').serve hw s =
            s.writeMask (s.regs.intrMask &&& ~~~rTxEmpty) := by
          simp only [SsIicIrq.serve, htx, i2cMstTxReqIsrRx, if_pos hwork.rx, if_pos hall]
        rw [hserve]
        refine ⟨{ hs with }, .inl ⟨rfl,
          { hwork with size := hsize, count_le := hcount, on := ?_, asks := ?_ }, ?_⟩⟩
        · exact (hasFlag_clear_of_disjoint (by decide)).trans hwork.on
        · exact fun hc => absurd (hall.symm.trans hsize) hc
        · simp only [I2cDev.writeMask, hasFlag_clear, hon, if_true]
          simp
      · obtain ⟨count, sent, hfill, hcapped⟩ := I2cDev.fillTxfifoForRx_spec hw txflr' hreq
        have hserve : (SsIicIrq.txReq txflr txflr').serve hw s = fillTxfifoForRx hw s txflr' := by
          simp only [SsIicIrq.serve, htx, i2cMstTxReqIsrRx, if_pos hwork.rx, if_neg hall]
        have hne : s.rxReqCount.toNat ≠ s.rxSize.toNat := fun hc =>
          hall (BitVec.eq_of_toNat_eq hc.symm)
        have hpos := I2cDev.free_pos hroom
        rw [hserve, hfill]
        refine ⟨{ hs with }, .inl ⟨rfl,
          { hwork with size := hsize, count_le := ?_, req_le := ?_, asks := fun _ => hon }, ?_⟩⟩
        · dsimp only
          omega
        · rw [← hsize]
          dsimp only
          omega
        · dsimp only
          omega
    | rxAvail frames =>
      obtain ⟨-, hsome, hasked⟩ := hraises
      have hlength : 0 < frames.length := List.length_pos_iff.mpr hsome
      have hasked' : (s.rxReqCount - s.rxCount).toNat = s.rxReqCount.toNat - s.rxCount.toNat :=
        BitVec.toNat_sub_of_le hcount
      obtain ⟨count, mem, hretrieve, hcapped⟩ := I2cDev.retrieveRxfifo_spec
        (hasked.trans_lt (BitVec.isLt _)) hlt.le
      by_cases hall : s.rxSize = count
      · have hserve : (SsIicIrq.rxAvail frames).serve hw s =
            { s.writeMask (s.regs.intrMask &&& ~~~rRxFull) with
              handlingRx := false, rxData := 0, mem, rxCount := count
              calls := s.calls ++ [.ofDir .rx] } := by
          simp only [SsIicIrq.serve, i2cMstRxAvailIsr, hretrieve, if_pos hall]
          rw [I2cDev.call_eq (by exact hs.dirCb .rx)]
          rfl
        have hlast : (s.rxSize - s.rxCount).toNat ≤ frames.length := by
          rw [← hall] at hcapped
          rw [BitVec.toNat_sub_of_le hlt.le]
          omega
        rw [hserve]
        refine ⟨{ hs with }, .inr ⟨rfl, hwork.tx, rfl, ?_, hasFlag_clear _ _⟩⟩
        exact (hasFlag_clear_of_disjoint (by decide)).trans (hkept hlast)
      · have hserve : (SsIicIrq.rxAvail frames).serve hw s =
            { s with mem, rxCount := count } := by
          simp only [SsIicIrq.serve, i2cMstRxAvailIsr, hretrieve, if_neg hall]
        have hne : count.toNat ≠ s.rxSize.toNat := fun hc => hall (BitVec.eq_of_toNat_eq hc.symm)
        rw [hserve]
        refine ⟨{ hs with }, .inl ⟨rfl,
          { hwork with size := hsize, count_le := ?_, count_lt := ?_ }, ?_⟩⟩
        · dsimp only
          omega
        · rw [← hsize]
          dsimp only
          omega
        · dsimp only
          omega
  comes := by
    intro s hs hwork
    cases hempty : hasFlag s.regs.intrMask rTxEmpty with
    | true => exact ⟨.txReq 0 0, ⟨hempty, hs.fifo_pos, hs.fifo_pos⟩, trivial, rfl⟩
    | false =>
      -- all bytes are asked for, and not all have come
      have hall : s.rxReqCount = n := by
        by_contra hc
        rw [hwork.asks hc] at hempty
        exact Bool.false_ne_true hempty.symm
      have hlt := hwork.count_lt
      refine ⟨.rxAvail [0], ⟨hwork.on, by simp, ?_⟩, fun _ => hempty, rfl⟩
      rw [BitVec.toNat_sub_of_le hwork.count_le, hall, List.length_singleton]
      omega
  calls s cs hwork := ⟨{ hwork with }, rfl⟩

theorem ssIicRead_returns (hp : p.io.CallReady hw) (hidle : p.io.Idle) (hflags : p.flags = 0)
    (data : Word) {len : Word} (hlen : len ≠ 0) (txflr : Word) :
    SsIicCallReturns hw .rx len (ssIicMasterRead hw p data len txflr false) := by
  obtain ⟨count, sent, hfill, hcapped⟩ := I2cDev.fillTxfifoForRx_spec hw txflr
    (s := { p.io with
      rxSize := len, rxCount := 0, rxReqCount := 0, rxData := data, handlingRx := true })
    (Nat.zero_le _)
  have hread : p.io.read hw data len txflr =
      ({ p.io with
        rxSize := len, rxCount := 0, rxReqCount := count, rxData := data, handlingRx := true
        sent } : I2cDev).writeMask (p.io.regs.intrMask ||| rTxEmpty ||| rRxFull) := by
    refine (if_pos hidle.tx).trans ?_
    rw [I2cDev.startRx, hfill]
  have hon : hasFlag (p.io.regs.intrMask ||| rTxEmpty ||| rRxFull) rTxEmpty = true :=
    (hasFlag_or_of_disjoint (by decide)).trans (hasFlag_or_self _ (by decide))
  refine ⟨{ io := p.io.read hw data len txflr, flags := ssIicFlagRx }, ?_,
    (i2cRead_moves len).ends ?_ rfl ?_ len⟩
  · simp only [ssIicMasterRead, ssIicMasterStart, hflags, ioI2cMasterRead, if_pos hp.handle]
    rfl
  · show (p.io.read hw data len txflr).CallReady hw
    rw [hread]
    exact { hp with }
  · show (p.io.read hw data len txflr).Reads len
    rw [hread]
    refine ⟨hidle.tx, rfl, rfl, Nat.zero_le _, hcapped.trans_le (by simp), ?_,
      hasFlag_or_self _ (by decide), fun _ => hon⟩
    exact Nat.pos_of_ne_zero fun hc => hlen (BitVec.eq_of_toNat_eq hc)

/-! ### All four calls -/

def ssIicSmall : I2cHw where
  present := true
  fifoDepth := 4

def ssIicOpened : SsIicCtx where
  io := { (ioI2cMasterOpen ssIicSmall .fresh).2 with
    cbs := { txCb := 0x100, rxCb := 0x200, errCb := 0x300 } }
  flags := 0

instance (s : I2cDev) (e : SsIicIrq) : Decidable (s.Raises hw e) := by
  cases e <;> unfold I2cDev.Raises <;> infer_instance

def SsIicIrq.brings : SsIicIrq → Bool
  | .rxAvail _ => true
  | _ => false

/-- Without bytes a read waits, whatever else happens. -/
theorem ssIicRead_waits {p' : SsIicCtx}
    (hrun : Runs (ssIicServe hw) (fun _ e => e.brings = false) p es p')
    (htx : p.io.handlingTx = false) (hwaits : p.waits .rx = true) : p'.waits .rx = true := by
  refine (hrun.invariant (I := fun p => p.io.handlingTx = false ∧ p.waits .rx = true) ?_
    ⟨htx, hwaits⟩).2
  rintro p e p' ⟨htx, hwaits⟩ hbrings hstep
  rw [ssIicServe_eq] at hstep
  cases hstep
  cases e with
  | rxAvail => exact absurd hbrings.symm Bool.false_ne_true
  | txReq txflr txflr' =>
    have hserve : (i2cMstTxReqIsrRx hw p.io txflr').calls = p.io.calls ++ [] ∧
        (i2cMstTxReqIsrRx hw p.io txflr').handlingTx = false := by
      rw [List.append_nil, i2cMstTxReqIsrRx]
      split
      · split <;> exact ⟨rfl, htx⟩
      · exact ⟨rfl, htx⟩
    have htx' : i2cMstTxReqIsrTx hw p.io txflr = p.io := by
      simp [i2cMstTxReqIsrTx, htx]
    simp only [SsIicIrq.serve, htx', SsIicCtx.waits, SsIicCtx.after_flags hserve.1]
    exact ⟨hserve.2, hwaits⟩
  | err txAbrt rxOver =>
    obtain ⟨n, hserve, -⟩ := i2cMstErrIsr_eq p.io txAbrt rxOver
    simp only [SsIicIrq.serve, hserve]
    refine ⟨htx, ?_⟩
    rw [SsIicCtx.waits, SsIicCtx.after_flags (by exact rfl)]
    cases n with
    | zero => exact hwaits
    | succ n =>
      rw [ssIicCb_errs _ (Nat.succ_ne_zero n), hasFlag_or]
      exact Bool.or_eq_true_iff.mpr (.inl hwaits)

end Embarc
