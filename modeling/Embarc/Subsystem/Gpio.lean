/-
The GPIO of the subsystem: `gpio.c`, and the GPIO interface to it, `ss_gpio.c`.

The status that the interrupt routine reads is an argument.  Opening and closing with the settings
they make, and the interrupt routine are here; the commands, reading and writing of `ss_gpio.c` are
left out, and so is the interrupt vector.
-/
import Embarc.DesignWare.Gpio

namespace Embarc

/-- The port of one number. -/
structure SsGpioHw where
  /-- It is part of the design. -/
  present : Bool
  enableDebounce : Bool

structure SsGpioRegs where
  dr : Word
  ddr : Word
  inten : Word
  intmask : Word
  inttypeLevel : Word
  intPolarity : Word
  debounce : Word
  lsSync : Word
  intBothedge : Word
  clken : Word
deriving DecidableEq, Repr

/-- `gpio_info_t`, with the registers. -/
structure SsGpioInfo where
  /-- `gpio_handles` has an entry for the port. -/
  handle : Bool
  rxCb : Word
  opened : Bool
  regs : SsGpioRegs

inductive SsGpioStop where
  /-- The entry of `gpio_handles` is followed, and is null. -/
  | nullHandle
deriving DecidableEq, Repr

/-! ### The driver below -/

def ioGpioOpen (hw : SsGpioHw) (s : SsGpioInfo) : Word × SsGpioInfo :=
  if hw.present = false ∨ s.handle = true then (1, s)
  else (0, { s with handle := true, opened := true, regs := { s.regs with clken := 1, lsSync := 1 } })

/-- What closing does to a port that is open. -/
def SsGpioInfo.closed (s : SsGpioInfo) : SsGpioInfo :=
  { s with
    regs := { s.regs with inten := 0, lsSync := 0, clken := 0 }
    rxCb := 0, opened := false, handle := false }

def ioGpioClose (s : SsGpioInfo) : Except SsGpioStop SsGpioInfo :=
  if s.handle then .ok s.closed else .error .nullHandle

/-- The commands of `io_gpio_ioctl` that set something, with what `arg` points to. -/
inductive SsGpioIoctl where
  | setCbRx (cb : Word)
  | setDirection (arg : Word)
  | setIntEnable (arg : Word)
  | setIntMask (arg : Word)
  | setIntType (arg : Word)
  | setIntPolarity (arg : Word)
  | setIntBothedge (arg : Word)
  | setDebounce (arg : Word)
  | other

def SsGpioInfo.ioctl (hw : SsGpioHw) (s : SsGpioInfo) : SsGpioIoctl → SsGpioInfo
  | .setCbRx cb => { s with rxCb := cb }
  | .setDirection arg => { s with regs := { s.regs with ddr := arg } }
  | .setIntEnable arg => { s with regs := { s.regs with inten := arg } }
  | .setIntMask arg => { s with regs := { s.regs with intmask := arg } }
  | .setIntType arg => { s with regs := { s.regs with inttypeLevel := arg } }
  | .setIntPolarity arg => { s with regs := { s.regs with intPolarity := arg } }
  | .setIntBothedge arg => { s with regs := { s.regs with intBothedge := arg } }
  | .setDebounce arg =>
    if hw.enableDebounce then { s with regs := { s.regs with debounce := arg } } else s
  | .other => s

def ioGpioIoctl (hw : SsGpioHw) (s : SsGpioInfo) (cmd : SsGpioIoctl) : Except SsGpioStop SsGpioInfo :=
  if s.handle then .ok (s.ioctl hw cmd) else .error .nullHandle

/-- Out of reset. -/
def SsGpioInfo.fresh : SsGpioInfo where
  handle := false
  rxCb := 0
  opened := false
  regs :=
    { dr := 0, ddr := 0, inten := 0, intmask := 0, inttypeLevel := 0, intPolarity := 0, debounce := 0
      lsSync := 0, intBothedge := 0, clken := 0 }

/-! ### The interface -/

/-- `SS_GPIO_DEV_CONTEXT` and `DEV_GPIO_INFO`, with the port below. -/
structure SsGpio where
  io : SsGpioInfo
  opnCnt : Word
  direction : Word
  /-- `method`. -/
  intMethod : Word
  width : Byte
  /-- `int_cb`: the function that leads to `ss_gpio_int_cb`. -/
  intCb : Word
  handlers : Word → Word
  intBitType : Word
  intBitPolarity : Word
  intBitDebounce : Word
  /-- The interrupt is enabled at the processor. -/
  irq : Bool

/-- As `dfss_gpio_0_install` leaves the port. -/
def SsGpio.installed (width : Byte) (intCb : Word) : SsGpio where
  io := .fresh
  opnCnt := 0
  direction := 0
  intMethod := 0
  width := width
  intCb := intCb
  handlers := fun _ => 0
  intBitType := 0
  intBitPolarity := 0
  intBitDebounce := 0
  irq := false

section Port

variable (hw : SsGpioHw)

namespace SsGpio

def ioctl (s : SsGpio) (cmd : SsGpioIoctl) : Except SsGpioStop SsGpio :=
  (ioGpioIoctl hw s.io cmd).map fun io => { s with io }

/-- Commands for the port below, one after the other. -/
def ioctls (s : SsGpio) (cmds : List SsGpioIoctl) : Except SsGpioStop SsGpio :=
  cmds.foldlM (ioctl hw) s

end SsGpio

def ssGpioOpen (s : SsGpio) (dir : Word) : Except SsGpioStop (Int × SsGpio) :=
  let s := { s with opnCnt := s.opnCnt + 1 }
  if s.opnCnt > 1 then .ok (if dir = s.direction then eOk else eOpned, s)
  else
    let (err, io) := ioGpioOpen hw s.io
    let s := { s with io }
    if err ≠ 0 then .ok (eSys, s)
    else do
      let s := { s with
        direction := dir, intMethod := 0, intBitType := 0, intBitPolarity := 0, intBitDebounce := 0 }
      let s ← s.ioctls hw [.setCbRx s.intCb, .setIntEnable s.intMethod, .setDirection s.direction,
        .setIntPolarity s.intBitPolarity, .setDebounce s.intBitDebounce]
      return (eOk, { s with irq := true })

def ssGpioClose (s : SsGpio) : Except SsGpioStop (Int × SsGpio) :=
  let s := { s with opnCnt := s.opnCnt - 1 }
  if s.opnCnt = 0 then (ioGpioClose s.io).map fun io => (eOk, { s with io, irq := false })
  else .ok (eOpned, s)

end Port

/-! ### The interrupt routine -/

/-- The handlers of the bits in `param`. -/
def ssGpioIntCb (s : SsGpio) (param : Word) : List GpioAct :=
  (List.range s.width.toNat).flatMap fun i =>
    if hasFlag param (1#32 <<< i) ∧ s.handlers (BitVec.ofNat 32 i) ≠ 0 then
      [.call i (s.handlers (BitVec.ofNat 32 i))]
    else []

/-- `rx_cb` is the function that leads to `ss_gpio_int_cb`. -/
def gpioIsrProc (s : SsGpio) (status : Word) : List GpioAct :=
  if status = 0 then []
  else (if s.io.rxCb ≠ 0 then ssGpioIntCb s status else []) ++ [.eoi status]

end Embarc
