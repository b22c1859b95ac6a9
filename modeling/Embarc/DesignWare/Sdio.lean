/-
The SDIO host controller: `dw_sdio_open`, `dw_sdio_close` and `dw_sdio_control` in `dw_sdio.c`, and
what they are made of.

Whether a wait loop sees what it waits for before its tries are used up is an argument.  None of the
callers looks at what the two functions with such a loop return.
-/
import Embarc.DesignWare.DevCommon

namespace Embarc

structure SdioRegs where
  ctrl : Word
  pwren : Word
  clkdiv : Word
  clksrc : Word
  clkena : Word
  ctype : Word
  blksiz : Word
  bytcnt : Word
  cmdarg : Word
  cmd : Word
  fifoth : Word
  rstN : Word
  cardThrCtrl : Word
  uhsRegExt : Word
deriving DecidableEq, Repr

def SdioRegs.zero : SdioRegs where
  ctrl := 0
  pwren := 0
  clkdiv := 0
  clksrc := 0
  clkena := 0
  ctype := 0
  blksiz := 0
  bytcnt := 0
  cmdarg := 0
  cmd := 0
  fifoth := 0
  rstN := 0
  cardThrCtrl := 0
  uhsRegExt := 0

/-- `DW_SDIO_CTRL` and `DEV_SDIO_INFO`, with the registers. -/
structure DwSdio where
  regs : SdioRegs
  refClk : Word
  fifoDepth : Word
  opnCnt : Word
deriving DecidableEq, Repr

/-- As `dw_sdio_0_install` leaves the device, with the registers out of reset. -/
def DwSdio.installed (refClk fifoDepth : Word) (regs : SdioRegs) : DwSdio where
  regs := { regs with pwren := 0, clkena := 0 }
  refClk := refClk
  fifoDepth := fifoDepth
  opnCnt := 0

def sdioCtrlResetFifo : Word := 0x2#32
def sdioCtrlResetAll : Word := 0x7#32

def sdioCmdRespExp : Word := 0x40#32
def sdioCmdRespLength : Word := 0x80#32
def sdioCmdCheckCrc : Word := 0x100#32
def sdioCmdDataExp : Word := 0x200#32
def sdioCmdRw : Word := 0x400#32
def sdioCmdPrvDatWait : Word := 0x2000#32
def sdioCmdAbortStop : Word := 0x4000#32
def sdioCmdUpdClk : Word := 0x200000#32
def sdioCmdUseHoldReg : Word := 0x20000000#32
def sdioCmdStart : Word := 0x80000000#32

/-- `DWSDIO_ENUMERATION_FREQ` -/
def sdioEnumerationFreq : Word := 400000

def sdioCardBit (card : Word) : Word := 1#32 <<< card.toNat

theorem sdioCardBit_flag (x card : Word) : hasFlag x (sdioCardBit card) = x.getLsbD card.toNat :=
  hasFlag_bit x card.toNat

/-- A card has no bit of another. -/
theorem sdioCardBit_getLsbD (card : Word) {other : Word} (hother : other.toNat < 32) :
    (sdioCardBit card).getLsbD other.toNat = true ↔ other = card := by
  rw [sdioCardBit, BitVec.getLsbD_shiftLeft, BitVec.getLsbD_one, BitVec.toNat_inj.symm]
  simp only [hother, decide_true, Bool.true_and, Bool.and_eq_true, Bool.not_eq_true',
    decide_eq_false_iff_not, decide_eq_true_eq]
  omega

theorem sdioCardBit_self {card : Word} (h : card.toNat < 32) :
    hasFlag (sdioCardBit card) (sdioCardBit card) = true := by
  rw [sdioCardBit_flag]
  exact (sdioCardBit_getLsbD card h).mpr rfl

namespace DwSdio

def writeCtrl (s : DwSdio) (val : Word) : DwSdio := { s with regs := { s.regs with ctrl := val } }

def writePwren (s : DwSdio) (val : Word) : DwSdio := { s with regs := { s.regs with pwren := val } }

def writeClkena (s : DwSdio) (val : Word) : DwSdio := { s with regs := { s.regs with clkena := val } }

def writeRstN (s : DwSdio) (val : Word) : DwSdio := { s with regs := { s.regs with rstN := val } }

def writeCmd (s : DwSdio) (val : Word) : DwSdio := { s with regs := { s.regs with cmd := val } }

end DwSdio

/-! ### Cards and clocks -/

def dwSdioClkEnable (s : DwSdio) (card : Word) : DwSdio :=
  s.writeClkena (s.regs.clkena ||| sdioCardBit card)

def dwSdioClkDisable (s : DwSdio) (card : Word) : DwSdio :=
  s.writeClkena (s.regs.clkena &&& ~~~sdioCardBit card)

/-- The bits of the other cards are not kept. -/
def dwSdioPowerOn (s : DwSdio) (card : Word) : DwSdio := s.writePwren (sdioCardBit card)

def dwSdioPowerOff (s : DwSdio) (card : Word) : DwSdio :=
  s.writePwren (s.regs.pwren &&& ~~~sdioCardBit card)

def dwSdioReset (s : DwSdio) (card : Word) : DwSdio :=
  let s := s.writeRstN (s.regs.rstN &&& ~~~sdioCardBit card)
  s.writeRstN (s.regs.rstN ||| sdioCardBit card)

def dwSdioBusTypeSet (s : DwSdio) (card width : Word) : DwSdio :=
  let reg := s.regs.ctype &&& ~~~(sdioCardBit card ||| sdioCardBit (card + 16))
  let reg :=
    if width = 4 then reg ||| sdioCardBit card
    else if width = 8 then reg ||| sdioCardBit (card + 16)
    else reg
  { s with regs := { s.regs with ctype := reg } }

def dwSdioRefClkSet (s : DwSdio) (refClk : Word) : DwSdio :=
  let refClk : Word := if refClk = 50000000 then 1 else if refClk = 100000000 then 2 else 0
  { s with
    regs := { s.regs with
      uhsRegExt := s.regs.uhsRegExt &&& ~~~0xC0000000#32 ||| refClk <<< 30 } }

/-- The two waits are for the command to be taken. -/
structure SdioClkWaits where
  off : Bool
  on : Bool
deriving DecidableEq, Repr

def dwSdioBusFreqSet (s : DwSdio) (card freq : Word) (taken : SdioClkWaits) : Int × DwSdio :=
  let clk := s.refClk
  let div := if freq = clk then 0 else (clk + 2 * freq - 1) / (2 * freq)
  let update := sdioCmdPrvDatWait ||| sdioCmdUpdClk ||| sdioCmdStart ||| sdioCmdUseHoldReg
  let s := dwSdioClkDisable s card
  let s := { s with regs := { s.regs with clksrc := 0, clkdiv := div } }
  let s := s.writeCmd update
  if taken.off = false then (eTmout, s)
  else
    let s := dwSdioClkEnable s card
    let s := s.writeCmd update
    (if taken.on then eOk else eTmout, s)

/-- `done` says that the reset is over before the tries are used up.  What is returned then is the
error. -/
def dwSdioResetWait (s : DwSdio) (resetVal : Word) (done : Bool) : Int × DwSdio :=
  (if done then eSys else eOk, s.writeCtrl resetVal)

/-! ### Open and close -/

structure SdioWaits where
  reset : Bool
  clk : SdioClkWaits
deriving DecidableEq, Repr

def sdioWaitsDone : SdioWaits := { reset := true, clk := { off := true, on := true } }

/-- The watermarks: a request for data above half the FIFO, and one for room below it. -/
def sdioFifoth (fifoDepth : Word) : Word :=
  0x2#32 <<< 28 ||| (fifoDepth / 2 - 1) <<< 16 ||| fifoDepth / 2

def dwSdioOpen (s : DwSdio) (card : Word) (waits : SdioWaits) : Int × DwSdio :=
  if s.opnCnt > 0 then
    let s := dwSdioPowerOn s card
    let s := dwSdioReset s card
    let s := (dwSdioBusFreqSet s card sdioEnumerationFreq waits.clk).2
    (eOpned, { s with opnCnt := s.opnCnt + 1 })
  else
    let s := { s with opnCnt := s.opnCnt + 1 }
    let s := (dwSdioResetWait s sdioCtrlResetAll waits.reset).2
    let s := dwSdioRefClkSet s s.refClk
    let s := dwSdioPowerOn s card
    let s := dwSdioReset s card
    let s := dwSdioBusTypeSet s card 1
    let s := (dwSdioBusFreqSet s card sdioEnumerationFreq waits.clk).2
    let s :=
      if s.fifoDepth = 0 then { s with fifoDepth := (s.regs.fifoth &&& 0xfff0000) >>> 16 + 1 } else s
    (eOk, { s with regs := { s.regs with fifoth := sdioFifoth s.fifoDepth } })

def dwSdioClose (s : DwSdio) (card : Word) (waits : SdioWaits) : Int × DwSdio :=
  let s := { s with opnCnt := s.opnCnt - 1 }
  let s := dwSdioPowerOff s card
  if s.opnCnt = 0 then (eOk, (dwSdioResetWait s sdioCtrlResetAll waits.reset).2) else (eOpned, s)

/-! ### Control -/

inductive SdioCtrl where
  | setBusWidth (param : Word)
  | setBusFreq (param : Word)
  | other

def dwSdioControl (s : DwSdio) (card : Word) (waits : SdioClkWaits) : SdioCtrl → Int × DwSdio
  | .setBusWidth param => (eOk, dwSdioBusTypeSet s card param)
  | .setBusFreq param => (eOk, (dwSdioBusFreqSet s card param waits).2)
  | .other => (ePar, s)

end Embarc
