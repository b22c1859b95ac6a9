/-
An interrupt transfer does what a polled one does.

The two run the writer and the reader in different orders and at different times.  Neither the
frames nor the buffers depend on that: at the end of either, the frames of the list are on the
wire and the replies to them in the buffers.  The interrupt routine sees the end in the very call
in which the last frame is read, makes the callback there, and clears the transfer, after which
an interrupt does nothing but turn interrupts off.
-/
import Embarc.Proofs.SpiSystem

namespace Embarc

open Trace (Runs)

/-- No frame comes in when the receive FIFO is full, and no interrupt reports an error. -/
def SpiClean (hw : DwHw) (sys : SpiSys) : SpiEvent → Prop
  | .shift => sys.link.line = none ∨ sys.link.rx.length < hw.rxDepth
  | .irq status => hasFlag status dwSpiImrErr = false
  | _ => True

instance (hw : DwHw) (sys : SpiSys) (e : SpiEvent) : Decidable (SpiClean hw sys e) :=
  match e with
  | .shift => inferInstanceAs (Decidable (_ ∨ _))
  | .irq _ => inferInstanceAs (Decidable (_ = false))
  | .load | .drive => isTrue trivial

/-- The interrupt routine has ended the transfer and returned. -/
def SpiSys.Completed (sys : SpiSys) : Prop := sys.pc = .idle ∧ sys.dev.xfer = .cleared

/-! ### Polled transfers -/

variable {hw : DwHw} {cbs : SpiCbs} {s : SpiDev} {xs : List DevSpiTransfer} {sys sys' : SpiSys}

theorem SpiClean.room {e : SpiEvent} (h : SpiClean hw sys e) (he : e = .shift) :
    sys.link.line = none ∨ sys.link.rx.length < hw.rxDepth := by
  rw [he] at h
  exact h

/-- In the loop, or behind it with everything in the buffers. -/
def SpiPolled (hw : DwHw) (s : SpiDev) (xs : List DevSpiTransfer) (sys : SpiSys) : Prop :=
  SpiActive hw s xs sys ∧ sys.pc.polled = true ∧ sys.pc ≠ .done ∨
    SpiOver hw s xs sys ∧ sys.pc = .done ∧ sys.dev.mem = s.stores xs sys.got

variable {e : SpiEvent} {es : List SpiEvent}

theorem SpiPolled.step (hpos : (dwSpiInitTransfer xs s.dfs).xferLen ≠ 0) (h : SpiPolled hw s xs sys)
    (hclean : SpiClean hw sys e) (hstep : spiStep hw cbs sys e = .ok sys') :
    SpiPolled hw s xs sys' := by
  have hmove := spiStep_move hstep
  rcases h with ⟨hactive, hpolled, hpc⟩ | ⟨hover, hdone, hmem⟩
  · have hpolled' := hmove.polled.trans hpolled
    rcases hactive.move hmove hpc hpos hclean.room with
      ⟨hactive', hpc'⟩ | ⟨hover, ⟨hdone, hmem⟩ | hidle⟩
    · exact .inl ⟨hactive', hpolled', hpc'⟩
    · exact .inr ⟨hover, hdone, hmem⟩
    · rw [hidle.1] at hpolled'
      exact absurd hpolled' (by simp [SpiPc.polled])
  · rcases hover.move hmove with rfl | ⟨hidle, -⟩
    · exact .inr ⟨hover, hdone, hmem⟩
    · rw [hdone] at hidle
      exact absurd hidle (by simp)

/-! ### Interrupt transfers -/

/-- Frames are left to be read whenever no interrupt is served; or the transfer is over, the
callback was made once, and everything is in the buffers. -/
def SpiServed (hw : DwHw) (s : SpiDev) (xs : List DevSpiTransfer) (sys : SpiSys) : Prop :=
  SpiActive hw s xs sys ∧ sys.pc.polled = false ∧
      (sys.pc = .idle → dwSpiNbytes s.dfs * sys.got.length < (dwSpiInitTransfer xs s.dfs).xferLen) ∨
    SpiOver hw s xs sys ∧ sys.Completed ∧ sys.dev.mem = s.stores xs sys.got ∧
      sys.dev.calls = s.calls ++ [.xfer]

/-- The callback of a transfer leaves the buffers alone. -/
def SpiCbs.Harmless (cbs : SpiCbs) : Prop :=
  ∃ f, cbs.xferCb = some f ∧ ∀ dev, (f dev).mem = dev.mem ∧ (f dev).calls = dev.calls

theorem isrEnd_inXfer (hcbs : cbs.Harmless) {dev : SpiDev}
    (hstatus : dev.status &&& dwSpiInXfer = dwSpiInXfer) :
    (dwSpiIsrEnd cbs dev).mem = dev.mem ∧
      (dwSpiIsrEnd cbs dev).calls = dev.calls ++ [.xfer] := by
  obtain ⟨f, hf, hkeep⟩ := hcbs
  have hdis : ¬ (dev.status &&& dwSpiInXfer ≠ 0 ∧
      dev.status &&& dwSpiInXfer ≠ SpiCbrtn.state .xfer) := fun hc => hc.2 hstatus
  have htx : ¬ dev.status &&& dwSpiInXfer = dwSpiInTx := by
    rw [hstatus]
    decide
  have hrx : ¬ dev.status &&& dwSpiInXfer = dwSpiInRx := by
    rw [hstatus]
    decide
  simp only [dwSpiIsrEnd, if_neg htx, if_neg hrx, if_pos hstatus, dwSpiDisCbr, if_neg hdis,
    SpiDev.callback, hf, Option.elim_some]
  exact hkeep _

/-- A routine that returns without having seen the end has left frames to be read. -/
theorem SpiActive.frames_left (h : SpiActive hw s xs sys)
    (hend : dwSpiXferEnd sys.dev.xfer = false) :
    dwSpiNbytes s.dfs * sys.got.length < (dwSpiInitTransfer xs s.dfs).xferLen := by
  rw [h.dev] at hend
  refine Nat.lt_of_not_le fun hall => ?_
  have hflow := h.flow.length
  have hmore : dwSpiNbytes s.dfs * sys.got.length ≤ dwSpiNbytes s.dfs * sys.pushed.length :=
    Nat.mul_le_mul_left _ (by omega)
  have htrue : dwSpiXferEnd (s.at xs sys.pushed.length sys.got).xfer = true := by
    simp only [dwSpiXferEnd, Bool.and_eq_true, decide_eq_true_eq]
    exact ⟨Nat.le_trans hall hmore, hall⟩
  rw [htrue] at hend
  exact absurd hend (by simp)

theorem SpiActive.idle_left (h : SpiActive hw s xs sys) (hmove : SpiMove hw cbs sys e sys')
    (h' : SpiActive hw s xs sys')
    (hleft : sys.pc = .idle →
      dwSpiNbytes s.dfs * sys.got.length < (dwSpiInitTransfer xs s.dfs).xferLen)
    (hidle : sys'.pc = .idle) :
    dwSpiNbytes s.dfs * sys'.got.length < (dwSpiInitTransfer xs s.dfs).xferLen := by
  cases hmove with
  | load | shift | off | stay => exact hleft hidle
  | write | read | leave | enter => exact absurd hidle (by simp)
  | exit status hpc hend => exact (h.served status).frames_left hend
  | complete status hpc hend =>
    -- the transfer is cleared, which it is not while frames are counted
    have hnb : 0 = dwSpiNbytes s.dfs := congrArg (fun dev => dev.xfer.nbytes) h'.dev
    exact absurd hnb (Nat.ne_of_lt (dwSpiNbytes_pos s.dfs))

theorem SpiServed.step (hpos : (dwSpiInitTransfer xs s.dfs).xferLen ≠ 0)
    (hstatus : s.status &&& dwSpiInXfer = dwSpiInXfer) (hcbs : cbs.Harmless)
    (h : SpiServed hw s xs sys) (hclean : SpiClean hw sys e)
    (hstep : spiStep hw cbs sys e = .ok sys') : SpiServed hw s xs sys' := by
  have hmove := spiStep_move hstep
  rcases h with ⟨hactive, hpolled, hleft⟩ | ⟨hover, hdone, hmem, hcalls⟩
  · have hpolled' := hmove.polled.trans hpolled
    have hpc : sys.pc ≠ .done := by
      intro hc
      rw [hc] at hpolled
      exact absurd hpolled (by simp [SpiPc.polled])
    rcases hactive.move hmove hpc hpos hclean.room with
      ⟨hactive', hpc'⟩ | ⟨hover, ⟨hdone, -⟩ | ⟨hidle, hdev⟩⟩
    · exact .inl ⟨hactive', hpolled', hactive.idle_left hmove hactive' hleft⟩
    · rw [hdone] at hpolled'
      exact absurd hpolled' (by simp [SpiPc.polled])
    · have hst : (s.at xs (spiFrames xs s.dfs) sys'.got).status &&& dwSpiInXfer = dwSpiInXfer :=
        hstatus
      obtain ⟨hmem, hcalls⟩ := isrEnd_inXfer hcbs hst
      rw [← hdev] at hmem hcalls
      exact .inr ⟨hover, ⟨hidle, by rw [hdev]; rfl⟩, hmem, hcalls⟩
  · rcases hover.move hmove with rfl | ⟨hidle, rfl⟩
    · exact .inr ⟨hover, hdone, hmem, hcalls⟩
    · obtain ⟨hmem', hcalls'⟩ := disableInterrupt_keeps sys.dev
      refine .inr ⟨hover.kept hmove, ⟨hdone.1, ?_⟩, hmem'.trans hmem, hcalls'.trans hcalls⟩
      exact (xfer_disableInterrupt sys.dev).trans hdone.2

/-! ### Runs -/

theorem polled_run (hs : s.xfer = dwSpiInitTransfer xs s.dfs)
    (hpos : (dwSpiInitTransfer xs s.dfs).xferLen ≠ 0)
    (hrun : Runs (spiStep hw cbs) (SpiClean hw) (.start s .write) es sys) : SpiPolled hw s xs sys :=
  Runs.invariant (I := SpiPolled hw s xs) (fun _ _ _ h hclean hstep => h.step hpos hclean hstep)
    hrun (.inl ⟨SpiActive.start hw hs .write, rfl, by simp [SpiSys.start]⟩)

theorem served_run (hs : s.xfer = dwSpiInitTransfer xs s.dfs)
    (hpos : (dwSpiInitTransfer xs s.dfs).xferLen ≠ 0)
    (hstatus : s.status &&& dwSpiInXfer = dwSpiInXfer) (hcbs : cbs.Harmless)
    (hrun : Runs (spiStep hw cbs) (SpiClean hw) (.start s .idle) es sys) : SpiServed hw s xs sys :=
  Runs.invariant (I := SpiServed hw s xs)
    (fun _ _ _ h hclean hstep => h.step hpos hstatus hcbs hclean hstep) hrun
    (.inl ⟨SpiActive.start hw hs .idle, rfl, fun _ => Nat.pos_of_ne_zero hpos⟩)

/-! ### The two compared -/

theorem or_inXfer (status : Word) : (status ||| dwSpiInXfer) &&& dwSpiInXfer = dwSpiInXfer := by
  rw [BitVec.and_comm, BitVec.and_or_distrib_left, BitVec.and_self]
  ext i
  simp only [BitVec.getElem_or, BitVec.getElem_and]
  cases dwSpiInXfer[i] <;> simp

/-- **An interrupt transfer puts the frames on the wire and the bytes in the buffers that a polled
transfer does**, for any pacing of the controller and any interrupts.  The callback is made once,
with all frames read; and a routine that has read the last frame completes the transfer. -/
theorem spi_interrupt_as_polling (s : SpiDev) (param : Word) (xs : List DevSpiTransfer)
    (hpolling : (dwSpiTransferPolling s param xs).1 = eOk)
    (hint : (dwSpiControl s (.transferInt param xs)).1 = eOk) (cbs : SpiCbs) (hcbs : cbs.Harmless)
    (hw hw' : DwHw) (hreply : hw'.reply = hw.reply) (es es' : List SpiEvent) (sys sys' : SpiSys)
    (hrun : Runs (spiStep hw cbs) (SpiClean hw)
      (.start (dwSpiTransferPolling s param xs).2 .write) es sys)
    (hdone : sys.pc = .done)
    (hrun' : Runs (spiStep hw' cbs) (SpiClean hw')
      (.start (dwSpiControl s (.transferInt param xs)).2 .idle) es' sys') :
    (sys'.Completed → sys'.link.wire = sys.link.wire ∧ sys'.dev.mem = sys.dev.mem ∧
      sys'.dev.calls = s.calls ++ [.xfer]) ∧
    (sys'.dev.calls = s.calls ∨ sys'.dev.calls = s.calls ++ [.xfer] ∧ sys'.got = sys.got) ∧
    (0 < (dwSpiInitTransfer xs s.dfs).xferLen → sys'.pc = .idle →
      (dwSpiInitTransfer xs s.dfs).xferLen ≤ dwSpiNbytes s.dfs * sys'.got.length →
      sys'.Completed) := by
  obtain ⟨hparam, hpoll⟩ := transferPolling_ok hpolling
  have hstart := transferInt_ok hparam hint
  generalize (dwSpiTransferPolling s param xs).2 = dev at hpoll hrun
  generalize (dwSpiControl s (.transferInt param xs)).2 = dev' at hstart hrun'
  have hdfs : dev'.dfs = s.dfs := by rw [hstart]
  have hxfer' : dev'.xfer = dwSpiInitTransfer xs dev'.dfs := by rw [hstart]
  have hcalls : dev'.calls = s.calls := by rw [hstart]
  rw [← hdfs, ← hcalls]
  by_cases hzero : (dwSpiInitTransfer xs dev'.dfs).xferLen = 0
  · -- a list counted as nothing is never completed
    have hvoid := void_run hxfer' hzero (.inr rfl) hrun'
    refine ⟨fun hc => absurd ?_ hvoid.nbytes, .inl hvoid.calls, fun hc => by omega⟩
    rw [hc.2]
    rfl
  have hstatus : dev'.status &&& dwSpiInXfer = dwSpiInXfer := by
    rw [hstart]
    exact or_inXfer s.status
  rcases served_run hxfer' hzero hstatus hcbs hrun' with
    ⟨hactive, -, hleft⟩ | ⟨hover', hcompleted, hmem', hcalls'⟩
  · have hlog : sys'.dev.calls = dev'.calls := by
      rw [hactive.dev]
      rfl
    refine ⟨fun hc => ?_, .inl hlog, fun _ hidle hall => ?_⟩
    · have hnb : 0 = dwSpiNbytes dev'.dfs := by
        have hdev := congrArg (fun dev => dev.xfer.nbytes) hactive.dev
        rw [hc.2] at hdev
        exact hdev
      exact absurd hnb (Nat.ne_of_lt (dwSpiNbytes_pos _))
    · exact absurd (hleft hidle) (Nat.not_lt.mpr hall)
  · have hpos : (dwSpiInitTransfer xs dev.dfs).xferLen ≠ 0 := by
      rw [hpoll]
      rw [hstart] at hzero
      exact hzero
    rcases polled_run (by rw [hpoll]) hpos hrun with ⟨-, -, hpc⟩ | ⟨hover, -, hmem⟩
    · exact absurd hdone hpc
    · obtain ⟨hwire, hgot, -, -⟩ := hover.settled
      obtain ⟨hwire', hgot', -, -⟩ := hover'.settled
      have hsame : dev'.sends xs (spiFrames xs dev'.dfs) = dev.sends xs (spiFrames xs dev.dfs) := by
        rw [hpoll, hstart]
        rfl
      rw [hsame, hreply, ← hgot] at hgot'
      rw [hsame, ← hwire] at hwire'
      refine ⟨fun _ => ⟨hwire', ?_, hcalls'⟩, .inr ⟨hcalls', hgot'⟩, fun _ _ _ => hcompleted⟩
      rw [hmem', hmem, hgot', hpoll, hstart]
      rfl

/-- Three bytes through FIFOs of one. -/
theorem spi_interrupt_as_polling_three :
    ∃ sys sys' : SpiSys, sys.pc = .done ∧ sys'.Completed ∧ sys'.link.wire = [1, 1, 1] ∧
      sys'.link.wire = sys.link.wire ∧ sys'.dev.mem = sys.dev.mem ∧ sys'.dev.calls = [.xfer] := by
  obtain ⟨hagree, -, -⟩ := spi_interrupt_as_polling spiOpened 0x40 (spiBytes 3) (by decide)
    (by decide) spiCallback ⟨id, rfl, fun _ => ⟨rfl, rfl⟩⟩ spiSmall spiSmall rfl
    [.drive, .load, .shift, .drive, .drive, .load, .shift, .drive, .drive, .load, .shift, .drive,
      .drive]
    [.irq 0x01, .drive, .load, .shift, .irq 0x11, .drive, .load, .shift, .irq 0x11, .drive, .load,
      .shift, .irq 0x10, .drive] _ _ (.of_follow rfl) (by decide) (.of_follow rfl)
  have hcompleted := hagree ⟨by decide, by decide⟩
  exact ⟨_, _, by decide, ⟨by decide, by decide⟩, by decide, hcompleted⟩

end Embarc
