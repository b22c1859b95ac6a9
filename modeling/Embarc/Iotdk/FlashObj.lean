/-
The flash objects of `flash_obj.c`: the embedded flash and the boot SPI flash behind one
interface.

Every access function checks that the object is open and that the address is not below the
device, clamps the length at the end of the device, and calls the driver.  The clamping is the
same text in all of them, and so is one definition here.  The boot SPI flash is mapped at an
address of its own, which is subtracted before the driver is called.
-/
import Embarc.Iotdk.Flash

namespace Embarc

structure DevFlashInfo where
  beginAddr : Word
  totalSize : Word
  openCnt : Nat

inductive FlashFn
  | read
  | write
  | writeNocheck
  | erase
  deriving DecidableEq

/-- A call of a driver function, with the address and length it is given. -/
structure FlashCall where
  fn : FlashFn
  addr : Word
  len : Word
  deriving DecidableEq

def flashLen (info : DevFlashInfo) (addr len : Word) : Word :=
  if addr + len > info.beginAddr + info.totalSize then info.beginAddr + info.totalSize - len else len

/-- The access functions: an error, or the call that is made.  `base` is what is subtracted from
the address. -/
def flashAccess (fn : FlashFn) (base : Word) (info : DevFlashInfo) (addr len : Word) :
    Except Int FlashCall :=
  if ¬ info.openCnt > 0 then .error eClsed
  else if ¬ info.beginAddr ≤ addr then .error ePar
  else .ok ⟨fn, addr - base, flashLen info addr len⟩

/-! ### The embedded flash -/

def iotdkEflashRead := flashAccess .read 0
def iotdkEflashWrite := flashAccess .write 0
def iotdkEflashWriteNocheck := flashAccess .writeNocheck 0
def iotdkEflashErase := flashAccess .erase 0

/-- `iotdk_eflash_install`, and `iotdk_eflash_open` after it. -/
def iotdkEflashInfo (openCnt : Nat) : DevFlashInfo where
  beginAddr := 0
  totalSize := BitVec.ofNat 32 (smicEflashPageSize * smicEflashPageCnt)
  openCnt := openCnt

/-! ### The boot SPI flash -/

def iotdkBootspiRead (info : DevFlashInfo) := flashAccess .read info.beginAddr info
def iotdkBootspiWrite (info : DevFlashInfo) := flashAccess .write info.beginAddr info
def iotdkBootspiWriteNocheck (info : DevFlashInfo) := flashAccess .writeNocheck info.beginAddr info
def iotdkBootspiErase (info : DevFlashInfo) := flashAccess .erase info.beginAddr info

def iotdkBootspiInfo (openCnt : Nat) : DevFlashInfo where
  beginAddr := 0x10000000
  totalSize := BitVec.ofNat 32 (smicBootspiSecSize * smicBootspiSecsPerChip)
  openCnt := openCnt

/-! ### Both -/

/-- `flash_get_dev` -/
inductive FlashDev
  | eflash
  | bootspi
  deriving DecidableEq

def FlashDev.info : FlashDev → Nat → DevFlashInfo
  | .eflash => iotdkEflashInfo
  | .bootspi => iotdkBootspiInfo

/-- `flash_read`, `flash_write`, `flash_write_nocheck` and `flash_erase` of a device. -/
def FlashDev.access : FlashDev → FlashFn → DevFlashInfo → Word → Word → Except Int FlashCall
  | .eflash, .read => iotdkEflashRead
  | .eflash, .write => iotdkEflashWrite
  | .eflash, .writeNocheck => iotdkEflashWriteNocheck
  | .eflash, .erase => iotdkEflashErase
  | .bootspi, .read => iotdkBootspiRead
  | .bootspi, .write => iotdkBootspiWrite
  | .bootspi, .writeNocheck => iotdkBootspiWriteNocheck
  | .bootspi, .erase => iotdkBootspiErase

end Embarc
