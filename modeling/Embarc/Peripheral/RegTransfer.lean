/-
Registers behind I2C: `device/peripheral/io/cy8c95xx/cy8c95xx.c`,
`sensor/temperature/adt7420/adt7420.c` and `sensor/temperature/tcn75/tcn75.c`, as far as they
report how a transaction went.

Temperatures are in ten-thousandths of a degree.
-/
import Embarc.Arc.Types

namespace Embarc

/-- What the calls of one transaction return, and what is in the caller's buffer afterwards. -/
structure RegOutcome where
  /-- IIC_CMD_MST_SET_TAR_ADDR -/
  tar : Int
  /-- IIC_CMD_MST_SET_NEXT_COND with IIC_MODE_RESTART -/
  restart : Int
  /-- the register's address is written, which is one byte -/
  pointer : Int
  /-- IIC_CMD_MST_SET_NEXT_COND with IIC_MODE_STOP -/
  stop : Int
  /-- the bytes are written or read -/
  data : Int
  buf : Nat → Byte

/-- Each answer overwrites the one before. -/
def RegOutcome.ercd (o : RegOutcome) : Int :=
  [o.tar, o.restart, o.pointer, o.stop, o.data].foldl (fun _ ercd => ercd) ePar

/-- A transaction of a sensor; `iicObj` says whether the bus exists. -/
def sensorRegRead (iicObj : Bool) (o : RegOutcome) : Int := if iicObj then o.ercd else ePar

/-- `_adt7420_reg_read` -/
def adt7420RegRead (iicObj : Bool) (o : RegOutcome) : Int := sensorRegRead iicObj o

/-- `_tcn75_reg_read` -/
def tcn75RegRead (iicObj : Bool) (o : RegOutcome) : Int := sensorRegRead iicObj o

/-- A transaction of the port expander, which has two devices. -/
def cy8c95xxReg (iicObj : Bool) (dev : Nat) (o : RegOutcome) : Int :=
  if !iicObj then ePar
  else if ¬ (dev = 0 ∨ dev = 1) then ePar
  else o.ercd

def cy8c95xxRegWrite (iicObj : Bool) (dev : Nat) (o : RegOutcome) : Int := cy8c95xxReg iicObj dev o

def cy8c95xxRegRead (iicObj : Bool) (dev : Nat) (o : RegOutcome) : Int := cy8c95xxReg iicObj dev o

def cy8c95xxDevIo : Nat := 0
def cy8c95xxPortNone : Nat := 3

variable (iicObj : Bool)

/-- `value` says whether a place is given. -/
def cy8c95xxReadid (value : Bool) (o : RegOutcome) : Int × Option Byte :=
  if !value then (ePar, none)
  else if cy8c95xxRegRead iicObj cy8c95xxDevIo o ≠ eOk then (eSys, none)
  else (eOk, some (o.buf 0))

def cy8c95xxWriteport (port : Nat) (value : Byte) (write read : RegOutcome) : Int :=
  if ¬ port < cy8c95xxPortNone then ePar
  else if cy8c95xxRegWrite iicObj cy8c95xxDevIo write ≠ eOk then eSys
  else if cy8c95xxRegRead iicObj cy8c95xxDevIo read ≠ eOk then eSys
  else if read.buf 0 ≠ value then eObj
  else eOk

def cy8c95xxReadport (port : Nat) (o : RegOutcome) : Int × Option Byte :=
  if ¬ port < cy8c95xxPortNone then (ePar, none)
  else if cy8c95xxRegRead iicObj cy8c95xxDevIo o ≠ eOk then (eSys, none)
  else (eOk, some (o.buf 0))

/-- `regRead` reads 16 bits, from which the temperature is converted. -/
def sensorRead (regRead : Bool → RegOutcome → Int) (convert : BitVec 16 → Int) (val : Bool)
    (o : RegOutcome) : Int × Option Int :=
  if !val then (eOk, none)
  else if regRead iicObj o ≠ 2 then (eObj, none)
  else (eOk, some (convert (o.buf 0 ++ o.buf 1)))

/-- `resolution13` is ADT7420_RESOLUTION_13BIT. -/
def adt7420SensorRead (resolution13 val : Bool) (o : RegOutcome) : Int × Option Int :=
  sensorRead iicObj adt7420RegRead (fun temp =>
    if resolution13 then (temp.sshiftRight 3).toInt * 625 else temp.toInt * 78) val o

def tcn75SensorRead (val : Bool) (o : RegOutcome) : Int × Option Int :=
  sensorRead iicObj tcn75RegRead (fun temp => (temp.sshiftRight 7).toInt * 5000) val o

end Embarc
