/-
The DesignWare GPIO driver: `dw_gpio.c`.

The status that the interrupt routine reads is an argument.  The routine is given as the list of
what it does behind that: handlers that it calls, and writes to the register that ends interrupts.
The interrupt vector and `extra` are left out, and so are `dw_gpio_read` and
`dw_gpio_bit_isr_handler`.
-/
import Embarc.DesignWare.DevCommon
import Mathlib.Logic.Function.Basic

namespace Embarc

structure DevGpioIntCfg where
  intBitMask : Word
  intBitType : Word
  intBitPolarity : Word
  intBitDebounce : Word
deriving DecidableEq, Repr

/-- What the interrupt routine of a port does. -/
inductive GpioAct where
  /-- `bitofs` is set. -/
  | setBitofs (i : Nat)
  | call (i : Nat) (handler : Word)
  /-- `PORTA_EOI` is written. -/
  | eoi (mask : Word)
deriving DecidableEq, Repr

structure DwGpioBitIsr where
  intBitMaxCnt : Word
  handlers : Word → Word

/-- The registers of the data and the directions are there for every port. -/
structure DwGpioRegs where
  dr : Word → Word
  ddr : Word → Word
  inten : Word
  intmask : Word
  inttypeLevel : Word
  intPolarity : Word
  debounce : Word
  /-- The edges that have not been cleared. -/
  latched : Word

/-- `DEV_GPIO_INFO` and `DW_GPIO_PORT`, with the registers. -/
structure DwGpio where
  no : Word
  /-- `intno` is not `DW_GPIO_INVALID_INTNO`. -/
  hasIntno : Bool
  validBitMask : Word
  bitIsr : Option DwGpioBitIsr
  opnCnt : Word
  direction : Word
  /-- `method`. -/
  intMethod : Word
  bitofs : Word
  /-- The interrupt is enabled at the processor. -/
  irq : Bool
  regs : DwGpioRegs

def dwGpioPortA : Word := 0#32
def dwGpioPortD : Word := 3#32
def dwGpioMaskAll : Word := 0xffffffff#32
def dwGpioInputAll : Word := 0x0#32
def dwGpioOutputAll : Word := 0xffffffff#32

def gpioIntCfgDefault : DevGpioIntCfg where
  intBitMask := dwGpioMaskAll
  intBitType := 0
  intBitPolarity := 0
  intBitDebounce := 0

inductive DwGpioStop where
  /-- `gpio_bit_isr` is followed, and is null. -/
  | nullBitIsr
deriving DecidableEq, Repr

namespace DwGpio

/-! ### Registers -/

def withRegs (s : DwGpio) (f : DwGpioRegs → DwGpioRegs) : DwGpio := { s with regs := f s.regs }

/-- `val` in the bits of `mask`, and what was there in the others. -/
def masked (old mask val : Word) : Word := old &&& ~~~mask ||| val &&& mask

def intEnable (s : DwGpio) (mask : Word) : DwGpio :=
  s.withRegs fun r => { r with inten := r.inten ||| mask }

def intDisable (s : DwGpio) (mask : Word) : DwGpio :=
  s.withRegs fun r => { r with inten := r.inten &&& ~~~mask }

def intUnmask (s : DwGpio) (mask : Word) : DwGpio :=
  s.withRegs fun r => { r with intmask := r.intmask &&& ~~~mask }

def intClear (s : DwGpio) (mask : Word) : DwGpio :=
  s.withRegs fun r => { r with latched := r.latched &&& ~~~mask }

def intWriteLevel (s : DwGpio) (mask level : Word) : DwGpio :=
  s.withRegs fun r => { r with inttypeLevel := masked r.inttypeLevel mask level }

def intWritePolarity (s : DwGpio) (mask polarity : Word) : DwGpio :=
  s.withRegs fun r => { r with intPolarity := masked r.intPolarity mask polarity }

def intWriteDebounce (s : DwGpio) (mask debounce : Word) : DwGpio :=
  s.withRegs fun r => { r with debounce := masked r.debounce mask debounce }

def setIntCfg (s : DwGpio) (cfg : DevGpioIntCfg) : DwGpio :=
  ((s.intWriteLevel cfg.intBitMask cfg.intBitType).intWritePolarity cfg.intBitMask
    cfg.intBitPolarity).intWriteDebounce cfg.intBitMask cfg.intBitDebounce

def getIntCfg (s : DwGpio) (cfg : DevGpioIntCfg) : DevGpioIntCfg :=
  { cfg with
    intBitType := s.regs.inttypeLevel &&& cfg.intBitMask
    intBitPolarity := s.regs.intPolarity &&& cfg.intBitMask
    intBitDebounce := s.regs.debounce &&& cfg.intBitMask }

def readDr (s : DwGpio) : Word := s.regs.dr s.no

def readDir (s : DwGpio) : Word := s.regs.ddr s.no

def writeDr (s : DwGpio) (mask val : Word) : DwGpio :=
  s.withRegs fun r => { r with dr := Function.update r.dr s.no (masked s.readDr mask val) }

def toggleDr (s : DwGpio) (mask : Word) : DwGpio :=
  s.withRegs fun r =>
    { r with dr := Function.update r.dr s.no (~~~s.readDr &&& mask ||| s.readDr &&& ~~~mask) }

def writeDir (s : DwGpio) (mask val : Word) : DwGpio :=
  s.withRegs fun r => { r with ddr := Function.update r.ddr s.no (masked s.readDir mask val) }

end DwGpio

/-! ### Open, close, read and write -/

/-- What opening does to the interrupts of port A. -/
def DwGpio.openInt (s : DwGpio) : DwGpio :=
  let s := ((s.intClear dwGpioMaskAll).intDisable dwGpioMaskAll).intUnmask dwGpioMaskAll
  let s := if s.hasIntno then { s with irq := false } else s
  let s := s.setIntCfg gpioIntCfgDefault
  { s with intMethod := s.regs.inten }

def dwGpioOpen (s : DwGpio) (dir : Word) : Int × DwGpio :=
  if s.no > dwGpioPortD then (eObj, s)
  else
    let s := { s with opnCnt := s.opnCnt + 1 }
    if s.opnCnt > 1 then (if dir = s.direction then eOk else eOpned, s)
    else
      let s := s.writeDir s.validBitMask dir
      let s := if s.no = dwGpioPortA then s.openInt else { s with intMethod := 0 }
      let s := s.writeDr s.validBitMask 0
      (eOk, { s with direction := dir, bitofs := 0 })

/-- What closing does to the interrupts of port A. -/
def DwGpio.closeInt (s : DwGpio) : DwGpio :=
  let s := (s.intClear dwGpioMaskAll).intDisable dwGpioMaskAll
  if s.hasIntno then { s with irq := false } else s

def dwGpioClose (s : DwGpio) : Int × DwGpio :=
  if s.no > dwGpioPortD then (eObj, s)
  else if s.opnCnt = 0 then (eOk, s)
  else
    let s := { s with opnCnt := s.opnCnt - 1, bitofs := 0 }
    if s.opnCnt = 0 then
      let s := (s.writeDr s.validBitMask 0).writeDir s.validBitMask 0
      let s := if s.no = dwGpioPortA then s.closeInt else s
      (eOk, { s with direction := 0, intMethod := 0 })
    else (eOpned, s)

def dwGpioWrite (s : DwGpio) (val mask : Word) : Int × DwGpio :=
  if s.no > dwGpioPortD then (eObj, s)
  else if s.opnCnt = 0 then (eClsed, s)
  else (eOk, s.writeDr mask val)

/-! ### Control -/

/-- The commands of `dw_gpio_control`, with `param` and what it points to. -/
inductive DwGpioCtrl where
  | setBitDirInput (param : Word)
  | setBitDirOutput (param : Word)
  | getBitDir (param : Word)
  | toggleBits (param : Word)
  | setBitIntCfg (param : Word) (cfg : DevGpioIntCfg)
  | getBitIntCfg (param : Word) (cfg : DevGpioIntCfg)
  | setBitIsr (param intBitOfs intBitHandler : Word)
  | getBitIsr (param intBitOfs : Word)
  | enaBitInt (param : Word)
  | disBitInt (param : Word)
  | getBitMthd (param : Word)
  | other

/-- What a control call returns, and what it has written to `*param`. -/
structure DwGpioAnswer extends DevAnswer where
  cfg : Option DevGpioIntCfg
deriving DecidableEq, Repr

def DwGpioAnswer.code (ercd : Int) : DwGpioAnswer := { DevAnswer.code ercd with cfg := none }

def DwGpioAnswer.read (param val : Word) : DwGpioAnswer := { DevAnswer.read param val with cfg := none }

/-- `CHECK_ALIGN_4BYTES` for a pointer that is not null. -/
def gpioParamOk (param : Word) : Bool := param ≠ 0 ∧ param.toNat % 4 = 0

namespace DwGpio

/-- The directions are read back. -/
def setDir (s : DwGpio) (mask val : Word) : DwGpio :=
  let s := s.writeDir mask val
  { s with direction := s.readDir }

/-- The enabled bits are read back, and the interrupt of the port follows them. -/
def followMethod (s : DwGpio) (whenAny : Bool) : DwGpio :=
  let s := { s with intMethod := s.regs.inten }
  if decide (s.intMethod ≠ 0) = whenAny ∧ s.hasIntno then { s with irq := whenAny } else s

/-- The commands that port A alone has. -/
def controlInt (s : DwGpio) : DwGpioCtrl → Except DwGpioStop (DwGpioAnswer × DwGpio)
  | .setBitIntCfg param cfg =>
    .ok (if gpioParamOk param then (.code eOk, s.setIntCfg cfg) else (.code ePar, s))
  | .getBitIntCfg param cfg =>
    .ok (if gpioParamOk param then ({ DevAnswer.code eOk with cfg := some (s.getIntCfg cfg) }, s)
      else (.code ePar, s))
  | .setBitIsr param ofs handler =>
    if gpioParamOk param then
      match s.bitIsr with
      | none => .error .nullBitIsr
      | some t =>
        .ok (if ofs < t.intBitMaxCnt then
          let t := { t with handlers := Function.update t.handlers ofs handler }
          (.code eOk, { s with bitIsr := some t })
        else (.code ePar, s))
    else .ok (.code ePar, s)
  | .getBitIsr param ofs =>
    if gpioParamOk param then
      match s.bitIsr with
      | none => .error .nullBitIsr
      | some t =>
        .ok (if ofs < t.intBitMaxCnt then
          ({ ercd := eOk, value := some (t.handlers ofs), cfg := none }, s)
        else (.code ePar, s))
    else .ok (.code ePar, s)
  | .enaBitInt param => .ok (.code eOk, (s.intEnable param).followMethod true)
  | .disBitInt param => .ok (.code eOk, (s.intDisable param).followMethod false)
  | .getBitMthd param =>
    .ok (if gpioParamOk param then
      (.read param s.regs.inten, { s with intMethod := s.regs.inten })
    else (.code ePar, s))
  | _ => .ok (.code eNospt, s)

end DwGpio

def dwGpioControl (s : DwGpio) (cmd : DwGpioCtrl) : Except DwGpioStop (DwGpioAnswer × DwGpio) :=
  if s.no > dwGpioPortD then .ok (.code eObj, s)
  else if s.opnCnt = 0 then .ok (.code eClsed, s)
  else
    match cmd with
    | .setBitDirInput param => .ok (.code eOk, s.setDir param dwGpioInputAll)
    | .setBitDirOutput param => .ok (.code eOk, s.setDir param dwGpioOutputAll)
    | .getBitDir param =>
      .ok (if gpioParamOk param then (.read param s.readDir, { s with direction := s.readDir })
        else (.code ePar, s))
    | .toggleBits param => .ok (.code eOk, s.toggleDr (param &&& s.direction))
    | cmd => if s.no ≠ dwGpioPortA then .ok (.code eNospt, s) else s.controlInt cmd

/-! ### The interrupt routine -/

/-- What is done for one bit that is set in the status. -/
def DwGpioBitIsr.serve (t : DwGpioBitIsr) (i : Nat) : List GpioAct :=
  let handler := t.handlers (BitVec.ofNat 32 i)
  .setBitofs i :: (if handler ≠ 0 then [.call i handler] else []) ++ [.eoi (1#32 <<< i)]

/-- What is returned, and what is done behind the read of the status. -/
def dwGpioIsrHandler (s : DwGpio) (status : Word) : Int × List GpioAct :=
  if s.no ≠ dwGpioPortA then (eNospt, [])
  else
    match s.bitIsr with
    | none => (eOk, [.eoi status])
    | some t =>
      (eOk, (List.range t.intBitMaxCnt.toNat).flatMap fun i =>
        if hasFlag status (1#32 <<< i) then t.serve i else [])

end Embarc
