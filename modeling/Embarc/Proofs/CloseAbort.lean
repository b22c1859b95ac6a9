/-
What closing a UART, IIC or SPI device tells the owners of transfers that are still going.

All three drivers turn the interrupts off first, and with them clear the flags that say which
transfers are in progress.  The routines that abort a transfer and call its callback come next; they
look at the same flags and find nothing to do.  So closing makes no callback at all, and it is as
silent as it may be only if no transfer in progress has one.  The interrupts are off in any case.
-/
import Embarc.Proofs.IicPort
import Embarc.Proofs.SpiPort
import Embarc.Proofs.UartPort

namespace Embarc

/-! ### What is owed to a callback -/

/-- The transfers of a device, by the kind `κ` of their callbacks: which of them are in progress,
where their callbacks are, the status flag of an abort, and the calls made so far. -/
structure Xfers (κ : Type) where
  inXfer : κ → Prop
  cb : κ → Word
  abrt : κ → Word
  calls : List (DevCall κ)

namespace Xfers

variable {κ : Type} [DecidableEq κ]

/-- Since then the callback of `k` has been called once, and found the flag of an abort. -/
def Told (before after : Xfers κ) (k : κ) : Prop :=
  ∃ made status, after.calls = before.calls ++ made ∧
    made.filter (·.cbrtn = k) = [⟨k, status⟩] ∧ hasFlag status (before.abrt k) = true

/-- Every transfer in progress that has a callback. -/
def AllTold (before after : Xfers κ) : Prop :=
  ∀ k, before.inXfer k → before.cb k ≠ 0 → before.Told after k

def Unheard (before : Xfers κ) : Prop := ∀ k, before.inXfer k → before.cb k = 0

/-- Where nothing has been called, everyone was told exactly if there was no one to tell. -/
theorem allTold_iff_of_calls {before after : Xfers κ} (h : after.calls = before.calls) :
    before.AllTold after ↔ before.Unheard := by
  constructor
  · intro htold k hin
    by_contra hcb
    obtain ⟨made, status, hcalls, hmade, -⟩ := htold k hin hcb
    rw [h] at hcalls
    rw [List.self_eq_append_right.mp hcalls] at hmade
    cases hmade
  · intro hunheard k hin hcb
    exact absurd (hunheard k hin) hcb

end Xfers

/-! ### The three drivers -/

def UartPort.xfers (p : UartPort) : Xfers Dir where
  inXfer d := p.dev.int d = true
  cb := p.cbs.of
  abrt := Dir.abrt
  calls := p.calls

/-- The error callback belongs to no transfer. -/
def IicPort.xfers (p : IicPort) : Xfers DevCb where
  inXfer
    | .ofDir d => p.dev.int d = true
    | .err => False
  cb := p.cbs.get
  abrt
    | .ofDir d => d.abrt
    | .err => 0
  calls := p.calls.map fun c => ⟨c.cbrtn, c.status⟩

def SpiPort.xfers (p : SpiPort) : Xfers SpiCbrtn where
  inXfer := p.InXfer
  cb := p.cbs.of
  abrt := SpiCbrtn.abrt
  calls := p.calls

/-- No interrupt source is enabled, at the device or at the processor. -/
structure UartPort.Quiet (p : UartPort) : Prop where
  ier : p.dev.ier = 0
  int : ∀ d, p.dev.int d = false
  irq : p.irq = false

structure IicPort.Quiet (p : IicPort) : Prop where
  mask : p.dev.mask = 0
  int : ∀ d, p.dev.int d = false
  irq : p.irq = false

structure SpiPort.Quiet (p : SpiPort) : Prop where
  imr : p.dev.imr = 0
  xfer : ∀ cbrtn, ¬p.InXfer cbrtn
  irq : p.irq = false

theorem irq_off {irq hasIntno : Bool} (h : hasIntno = false → irq = false) :
    (irq && !hasIntno) = false := by
  cases hasIntno with
  | true => simp
  | false => simp [h rfl]

/-- Closing the last reference of a UART makes no callback, and turns the interrupts off. -/
theorem uart_close_last {hw : UartHw} {env : Word → UartPort → UartPort} {fresh p : UartPort}
    {ops : List UartOp} (hfresh : fresh.Closed)
    (hruns : Trace.Runs (uartStep hw env) (fun _ _ => True) fresh ops p)
    (hlast : p.dev.opnCnt = 1) :
    (dwUartClose hw env p).2.calls = p.calls ∧ (dwUartClose hw env p).2.Quiet := by
  have hp : p.Inv hw :=
    hruns.invariant (fun _ _ _ hinv _ hstep => (uartStep_decides hinv hstep).inv) hfresh.inv
  have hopen : p.dev.opnCnt ≠ 0 := by omega
  obtain ⟨txBuf, regs, sent, hclose⟩ := dwUartClose_last hw env hlast (hp.window hopen)
  rw [hclose]
  refine ⟨rfl, ?_, fun d => by cases d <;> rfl, irq_off hp.irq⟩
  have hsources := hp.sources hopen
  rw [BitVec.and_assoc]
  exact hsources

theorem iic_close_last {hw : IicHw} {env : Word → IicPort → IicPort} {fresh p : IicPort}
    {ops : List IicOp} (hfresh : fresh.Closed)
    (hruns : Trace.Runs (iicPortStep hw env) (fun _ _ => True) fresh ops p)
    (hlast : p.dev.opnCnt = 1) :
    (dwIicClose hw env p).2.calls = p.calls ∧ (dwIicClose hw env p).2.Quiet := by
  have hp : p.Inv hw := hruns.invariant
    (fun _ _ _ hinv _ hstep => (IicPort.iicPortStep_decides hinv hstep).inv) hfresh.inv
  have hopen : p.dev.opnCnt ≠ 0 := by omega
  rw [dwIicClose_last env hlast]
  refine ⟨rfl, ?_, fun d => by cases d <;> rfl, irq_off hp.irq⟩
  have hsources := hp.sources hopen
  rw [IicPort.allInt, BitVec.not_or, ← BitVec.and_assoc] at hsources
  exact hsources

theorem spi_close_last {hw : SpiHw} {env : Word → SpiPort → SpiPort} {fresh p : SpiPort}
    {ops : List SpiOp} (hfresh : fresh.Closed)
    (hruns : Trace.Runs (spiPortStep hw env) (fun _ _ => True) fresh ops p)
    (hlast : p.dev.opnCnt = 1) :
    (dwSpiClose hw env p).2.calls = p.calls ∧ (dwSpiClose hw env p).2.Quiet := by
  have hp : p.Inv hw := hruns.invariant
    (fun _ _ _ hinv _ hstep => (SpiPort.spiPortStep_decides hinv hstep).inv) hfresh.inv
  have hopen : p.dev.opnCnt ≠ 0 := by omega
  have hidle : ∀ cbrtn : SpiCbrtn, (0 : Word) &&& dwSpiInXfer ≠ cbrtn.state := by
    intro cbrtn
    cases cbrtn <;> decide
  rw [dwSpiClose_last env hlast]
  exact ⟨rfl, hp.sources hopen, hidle, irq_off hp.irq⟩

/-! ### Any of them -/

/-- A device of one of the three drivers, with its controller and what the functions do that its
callbacks point to. -/
inductive DwDevice where
  | uart (hw : UartHw) (env : Word → UartPort → UartPort) (p : UartPort)
  | iic (hw : IicHw) (env : Word → IicPort → IicPort) (p : IicPort)
  | spi (hw : SpiHw) (env : Word → SpiPort → SpiPort) (p : SpiPort)

namespace DwDevice

def opnCnt : DwDevice → Nat
  | .uart _ _ p => p.dev.opnCnt
  | .iic _ _ p => p.dev.opnCnt
  | .spi _ _ p => p.dev.opnCnt

/-- Calls of the driver and interrupts lead there from a device that has not been opened. -/
def Reachable : DwDevice → Prop
  | .uart hw env p =>
    ∃ fresh ops, fresh.Closed ∧ Trace.Runs (uartStep hw env) (fun _ _ => True) fresh ops p
  | .iic hw env p =>
    ∃ fresh ops, fresh.Closed ∧ Trace.Runs (iicPortStep hw env) (fun _ _ => True) fresh ops p
  | .spi hw env p =>
    ∃ fresh ops, fresh.Closed ∧ Trace.Runs (spiPortStep hw env) (fun _ _ => True) fresh ops p

/-- Closing the device calls the callback of every transfer in progress once, with its abort flag
set, and leaves no interrupt source enabled. -/
def CloseTells : DwDevice → Prop
  | .uart hw env p =>
    p.xfers.AllTold (dwUartClose hw env p).2.xfers ∧ (dwUartClose hw env p).2.Quiet
  | .iic hw env p =>
    p.xfers.AllTold (dwIicClose hw env p).2.xfers ∧ (dwIicClose hw env p).2.Quiet
  | .spi hw env p =>
    p.xfers.AllTold (dwSpiClose hw env p).2.xfers ∧ (dwSpiClose hw env p).2.Quiet

def Unheard : DwDevice → Prop
  | .uart _ _ p => p.xfers.Unheard
  | .iic _ _ p => p.xfers.Unheard
  | .spi _ _ p => p.xfers.Unheard

/-- What holds of a device at any time. -/
def Sound : DwDevice → Prop
  | .uart hw _ p => p.Inv hw
  | .iic hw _ p => p.Inv hw
  | .spi hw _ p => p.Inv hw

end DwDevice

/-- **Closing the last reference tells the owner of every transfer in progress about the abort,
and leaves no interrupt enabled, exactly if** there is no transfer in progress with a callback. -/
theorem close_tells_iff {dev : DwDevice} (hreach : dev.Reachable) (hlast : dev.opnCnt = 1) :
    dev.CloseTells ↔ dev.Unheard := by
  cases dev with obtain ⟨fresh, ops, hfresh, hruns⟩ := hreach
  | uart hw env p =>
    obtain ⟨hcalls, hquiet⟩ := uart_close_last hfresh hruns hlast
    exact (and_iff_left hquiet).trans (Xfers.allTold_iff_of_calls hcalls)
  | iic hw env p =>
    obtain ⟨hcalls, hquiet⟩ := iic_close_last hfresh hruns hlast
    exact (and_iff_left hquiet).trans
      (Xfers.allTold_iff_of_calls (congrArg (List.map _) hcalls))
  | spi hw env p =>
    obtain ⟨hcalls, hquiet⟩ := spi_close_last hfresh hruns hlast
    exact (and_iff_left hquiet).trans (Xfers.allTold_iff_of_calls hcalls)

def uartRxOps : List UartOp :=
  [.opened 115200, .control (.transfer (.setIntBuf .rx 0x100 ⟨0x1000, 16, 0⟩)),
    .control (.transfer (.setInt .rx 1))]

theorem close_tells_unheard :
    ∃ p, (DwDevice.uart (uartSampleHw 50000000) (fun _ p => p) p).Reachable ∧ p.dev.opnCnt = 1 ∧
      p.dev.int .rx = true ∧
      (DwDevice.uart (uartSampleHw 50000000) (fun _ p => p) p).CloseTells := by
  have hreach : (DwDevice.uart (uartSampleHw 50000000) (fun _ p => p) _).Reachable :=
    ⟨uartSample, uartRxOps, uartSample_closed, .of_follow rfl⟩
  exact ⟨_, hreach, rfl, rfl, (close_tells_iff hreach rfl).mpr fun d _ => by cases d <;> rfl⟩

def uartTxOps : List UartOp :=
  [.opened 115200, .control (.setCb (.ofDir .tx) 0x2000),
    .control (.transfer (.setIntBuf .tx 0x100 ⟨0x1000, 16, 0⟩)),
    .control (.transfer (.setInt .tx 1))]

def iicTxOps : List IicOp :=
  [.opened 0 1, .control (.setCb (.ofDir .tx) 0x2000),
    .control (.transfer (.setIntBuf .tx 0x100 ⟨0x1000, 16, 0⟩)),
    .control (.transfer (.setInt .tx 1))]

def spiTxOps : List SpiOp :=
  [.opened 0 1000000, .control (.setCb (.ofCbrtn .snd) 0x2000),
    .control (.transfer (.setTxintBuf 0x100 0x1000 16)), .control (.transfer (.setTxint 1))]

/-- Each of the three devices is closed for good in the middle of a transmission, and its transmit
callback is not called. -/
theorem close_not_told :
    (∃ p, Trace.Runs (uartStep (uartSampleHw 50000000) fun _ p => p) (fun _ _ => True) uartSample
        uartTxOps p ∧ p.dev.opnCnt = 1 ∧ p.dev.int .tx = true ∧ p.cbs.of .tx = 0x2000 ∧
      (dwUartClose (uartSampleHw 50000000) (fun _ p => p) p).2.calls = [] ∧
      ¬(DwDevice.uart (uartSampleHw 50000000) (fun _ p => p) p).CloseTells) ∧
    (∃ p, Trace.Runs (iicPortStep iicBoard fun _ p => p) (fun _ _ => True) iicFresh iicTxOps p ∧
      p.dev.opnCnt = 1 ∧ p.dev.int .tx = true ∧ p.cbs.of .tx = 0x2000 ∧
      (dwIicClose iicBoard (fun _ p => p) p).2.calls = [] ∧
      ¬(DwDevice.iic iicBoard (fun _ p => p) p).CloseTells) ∧
    (∃ p, Trace.Runs (spiPortStep spiBoard fun _ p => p) (fun _ _ => True) spiFresh spiTxOps p ∧
      p.dev.opnCnt = 1 ∧ p.InXfer .snd ∧ p.cbs.of .snd = 0x2000 ∧
      (dwSpiClose spiBoard (fun _ p => p) p).2.calls = [] ∧
      ¬(DwDevice.spi spiBoard (fun _ p => p) p).CloseTells) := by
  have huart : ∃ p, Trace.Runs (uartStep (uartSampleHw 50000000) fun _ p => p) (fun _ _ => True)
      uartSample uartTxOps p ∧ p.dev.opnCnt = 1 ∧ p.dev.int .tx = true ∧ p.cbs.of .tx = 0x2000 ∧
      p.calls = [] :=
    ⟨_, .of_follow rfl, rfl, rfl, rfl, rfl⟩
  have hiic : ∃ p, Trace.Runs (iicPortStep iicBoard fun _ p => p) (fun _ _ => True) iicFresh
      iicTxOps p ∧ p.dev.opnCnt = 1 ∧ p.dev.int .tx = true ∧ p.cbs.of .tx = 0x2000 ∧ p.calls = [] :=
    ⟨_, .of_follow rfl, rfl, rfl, rfl, rfl⟩
  have hspi : ∃ p, Trace.Runs (spiPortStep spiBoard fun _ p => p) (fun _ _ => True) spiFresh
      spiTxOps p ∧ p.dev.opnCnt = 1 ∧ p.InXfer .snd ∧ p.cbs.of .snd = 0x2000 ∧ p.calls = [] :=
    ⟨_, .of_follow rfl, rfl, rfl, rfl, rfl⟩
  refine ⟨?_, ?_, ?_⟩
  · obtain ⟨p, hruns, hcnt, hint, hcb, hnone⟩ := huart
    obtain ⟨hcalls, -⟩ := uart_close_last uartSample_closed hruns hcnt
    refine ⟨p, hruns, hcnt, hint, hcb, hcalls.trans hnone, fun htells => ?_⟩
    have hzero := (Xfers.allTold_iff_of_calls hcalls).mp htells.1 .tx hint
    exact absurd (hcb.symm.trans hzero) (by decide)
  · obtain ⟨p, hruns, hcnt, hint, hcb, hnone⟩ := hiic
    obtain ⟨hcalls, -⟩ := iic_close_last iicFresh_closed hruns hcnt
    refine ⟨p, hruns, hcnt, hint, hcb, hcalls.trans hnone, fun htells => ?_⟩
    have hzero := (Xfers.allTold_iff_of_calls (congrArg (List.map _) hcalls)).mp htells.1
      (.ofDir .tx) hint
    exact absurd (hcb.symm.trans hzero) (by decide)
  · obtain ⟨p, hruns, hcnt, hint, hcb, hnone⟩ := hspi
    obtain ⟨hcalls, -⟩ := spi_close_last spiFresh_closed hruns hcnt
    refine ⟨p, hruns, hcnt, hint, hcb, hcalls.trans hnone, fun htells => ?_⟩
    have hzero := (Xfers.allTold_iff_of_calls hcalls).mp htells.1 .snd hint
    exact absurd (hcb.symm.trans hzero) (by decide)

end Embarc
