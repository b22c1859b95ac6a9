/-
The flash drivers of the IoT development kit: `smic_bootspi.c` for the boot SPI flash and
`smic_eflash.c` for the embedded flash.

Both write and erase in place the same way, sector by sector (or page by page): the sector is
read into a buffer; if the part concerned is not erased, the sector is erased, and written
back whole from the patched buffer; otherwise only the part is written.  What differs is how
the chip is read, erased and programmed, which is a `FlashOps`.

The boot SPI flash is reached by commands with a three-byte address and is programmed page by
page.  The embedded flash is memory, counted from its base address, and is read and programmed
by words where flash and buffer are aligned, and by bytes otherwise.  Waiting for the chip is
left out.  Pointers are addresses into `ram`.
-/
import Embarc.Lib.Flash
import Embarc.Lib.Run
import Embarc.Arc.Types

namespace Embarc

/-! ### Updating in place -/

/-- How a chip is read, erased and programmed.  Reading and programming take the address of the
buffer, too. -/
structure FlashOps where
  secSize : Nat
  read : (Nat → Byte) → Nat → Nat → Nat → List Byte
  erase : (Nat → Byte) → Nat → Nat → Byte
  writeNocheck : (Nat → Byte) → Nat → Nat → List Byte → Nat → Byte

/-- The variables of the loops over the sectors. -/
structure SecLoop where
  mem : Nat → Byte
  secPos : Nat
  secOff : Nat
  secRemain : Nat
  addr : Nat
  len : Nat
  val : Nat

def SecLoop.start (ops : FlashOps) (mem : Nat → Byte) (addr len val : Nat) : SecLoop :=
  let secOff := u16 (addr % ops.secSize)
  let secRemain := u16 (ops.secSize - secOff)
  { mem, addr, len, val, secOff
    secPos := u16 (addr / ops.secSize)
    secRemain := if len ≤ secRemain then u16 len else secRemain }

def SecLoop.advance (ops : FlashOps) (s : SecLoop) : SecLoop :=
  let len := s.len - s.secRemain
  { s with
    secPos := u16 (s.secPos + 1)
    secOff := 0
    val := s.val + s.secRemain
    addr := u32 (s.addr + s.secRemain)
    len
    secRemain := if len > ops.secSize then u16 ops.secSize else u16 len }

/-- One sector.  `data` is what is put into it, and `direct` what is done if the part concerned is
erased; `mBuf` is the address of the sector buffer. -/
def secRound (ops : FlashOps) (mBuf : Nat) (data : SecLoop → List Byte)
    (direct : SecLoop → Nat → Byte) (s : SecLoop) (_ : Unit) : Bool × SecLoop :=
  let buf := ops.read s.mem (s.secPos * ops.secSize) ops.secSize mBuf
  let mem :=
    if (Flash.read (fun i => buf.getD i 0) s.secOff s.secRemain).all (· = 0xFF) then direct s
    else
      ops.writeNocheck (ops.erase s.mem (s.secPos * ops.secSize)) (s.secPos * ops.secSize) mBuf
        (Flash.patch buf s.secOff (data s))
  if s.len = s.secRemain then (false, { s with mem }) else (true, ({ s with mem }).advance ops)

def secLoop (ops : FlashOps) (mBuf : Nat) (data : SecLoop → List Byte)
    (direct : SecLoop → Nat → Byte) (s : SecLoop) : SecLoop :=
  Trace.loop (secRound ops mBuf data direct) s (fun _ => ()) (s.len + 1)

/-- The body of both `write` functions, once the object and the buffer are there. -/
def secWrite (ops : FlashOps) (mBuf : Nat) (mem ram : Nat → Byte) (addr len val : Nat) :
    Nat → Byte :=
  (secLoop ops mBuf (fun s => Flash.read ram s.val s.secRemain)
    (fun s => ops.writeNocheck s.mem s.addr s.val (Flash.read ram s.val s.secRemain))
    (SecLoop.start ops mem addr len val)).mem

/-- The body of both `erase` functions. -/
def secErase (ops : FlashOps) (mBuf : Nat) (mem : Nat → Byte) (addr len : Nat) : Nat → Byte :=
  (secLoop ops mBuf (fun s => List.replicate s.secRemain 0xFF) (fun s => s.mem)
    (SecLoop.start ops mem addr len 0)).mem

/-- The checks of all four functions: the object, that it is open, and the buffer `malloc` returns.
The result is the length that was asked for. -/
def flashUpdate (openCnt mBuf : Option Nat) (len : Word) (mem : Nat → Byte)
    (body : Nat → Nat → Byte) : Int × (Nat → Byte) :=
  match openCnt, mBuf with
  | none, _ => (eObj, mem)
  | some 0, _ => (eOpned, mem)
  | some _, none => (eNomem, mem)
  | some _, some mBuf => (len.toInt, body mBuf)

/-! ### The boot SPI flash -/

def smicBootspiPageSize : Nat := 0x100
def smicBootspiSecSize : Nat := 0x1000
def smicBootspiSecsPerChip : Nat := 512

/-- The address that three bytes carry. -/
def spiAddr (addr : Nat) : Nat := addr % 2 ^ 24

structure SmicBootspiDef where
  bootspiOpenCnt : Nat

/-- `bootspi_write`: one page program command. -/
def bootspiWrite (mem : Nat → Byte) (addr : Nat) (val : List Byte) : Nat → Byte :=
  Flash.pageProgram smicBootspiPageSize mem (spiAddr addr) val

/-- `smic_bootspi_control` with `SMIC_BOOTSPI_SEC_ERASE` -/
def bootspiSecErase (mem : Nat → Byte) (addr : Nat) : Nat → Byte :=
  Flash.eraseBlock smicBootspiSecSize mem (spiAddr (addr / smicBootspiSecSize * smicBootspiSecSize))

/-- What `smic_bootspi_read` stores. -/
def bootspiRead (mem : Nat → Byte) (addr len _val : Nat) : List Byte :=
  Flash.read (fun x => mem (spiAddr x)) (spiAddr addr) len

/-- The variables of the loop over the pages; `val` is the data still to be written. -/
structure PageLoop where
  mem : Nat → Byte
  addr : Nat
  first : Nat
  val : List Byte

def pageRound (s : PageLoop) (_ : Unit) : Bool × PageLoop :=
  let first := if s.first < s.val.length then s.first else s.val.length
  let rest := s.val.drop first
  (rest.length ≠ 0,
    { mem := bootspiWrite s.mem s.addr (s.val.take first)
      addr := u32 (s.addr + first)
      first := smicBootspiPageSize
      val := rest })

/-- What `smic_bootspi_write_nocheck` does to the chip. -/
def bootspiWriteNocheck (mem : Nat → Byte) (addr _val : Nat) (data : List Byte) : Nat → Byte :=
  (Trace.loop pageRound ⟨mem, addr, smicBootspiPageSize - addr % smicBootspiPageSize, data⟩
    (fun _ => ()) (data.length + 1)).mem

def bootspiOps : FlashOps where
  secSize := smicBootspiSecSize
  read := bootspiRead
  erase := bootspiSecErase
  writeNocheck := bootspiWriteNocheck

def smicBootspiWrite (obj : Option SmicBootspiDef) (mBuf : Option Nat) (mem ram : Nat → Byte)
    (addr len : Word) (val : Nat) : Int × (Nat → Byte) :=
  flashUpdate (obj.map (·.bootspiOpenCnt)) mBuf len mem fun mBuf =>
    secWrite bootspiOps mBuf mem ram addr.toNat len.toNat val

def smicBootspiErase (obj : Option SmicBootspiDef) (mBuf : Option Nat) (mem : Nat → Byte)
    (addr len : Word) : Int × (Nat → Byte) :=
  flashUpdate (obj.map (·.bootspiOpenCnt)) mBuf len mem fun mBuf =>
    secErase bootspiOps mBuf mem addr.toNat len.toNat

/-! ### The embedded flash -/

def smicEflashPageSize : Nat := 512
def smicEflashPageCnt : Nat := 512

structure SmicEflashDef where
  eflashOpenCnt : Nat

/-- `*p_addr32++ = *p_val32++` while four bytes are left: the flash after, and the position and
data that remain. -/
def eflashWords (mem : Nat → Byte) (addr : Nat) : List Byte → (Nat → Byte) × Nat × List Byte
  | b0 :: b1 :: b2 :: b3 :: rest =>
    eflashWords (Flash.program mem addr [b0, b1, b2, b3]) (addr + 4) rest
  | rest => (mem, addr, rest)

/-- `*p_addr++ = *p_val++` -/
def eflashBytes (mem : Nat → Byte) (addr : Nat) : List Byte → Nat → Byte
  | [] => mem
  | b :: rest => eflashBytes (Flash.program mem addr [b]) (addr + 1) rest

/-- What `smic_eflash_write_nocheck` does to the flash. -/
def eflashWriteNocheck (mem : Nat → Byte) (addr val : Nat) (data : List Byte) : Nat → Byte :=
  if addr % 4 = 0 ∧ val % 4 = 0 then
    let (mem, addr, rest) := eflashWords mem addr data
    eflashBytes mem addr rest
  else eflashBytes mem addr data

/-- `*p_val++ = *p_addr++` -/
def eflashReadBytes (mem : Nat → Byte) (addr : Nat) : Nat → List Byte
  | 0 => []
  | len + 1 => mem addr :: eflashReadBytes mem (addr + 1) len

/-- `*p_val32++ = *p_addr32++` while four bytes are left, and then the rest. -/
def eflashReadWords (mem : Nat → Byte) (addr : Nat) : Nat → List Byte
  | len + 4 =>
    [mem addr, mem (addr + 1), mem (addr + 2), mem (addr + 3)] ++
      eflashReadWords mem (addr + 4) len
  | len => eflashReadBytes mem addr len

/-- What `smic_eflash_read` stores. -/
def eflashRead (mem : Nat → Byte) (addr len val : Nat) : List Byte :=
  if addr % 4 = 0 ∧ val % 4 = 0 then eflashReadWords mem addr len else eflashReadBytes mem addr len

/-- What `while (len >= 4)` leaves in `len`. -/
def eflashWordsLeft (len : Word) : Word := if 4 ≤ len then eflashWordsLeft (len - 4) else len
termination_by len.toNat
decreasing_by bv_omega

/-- What `while (len--)` leaves in `len`: the test that fails has taken one off, too. -/
def eflashBytesLeft (len : Word) : Word := if len = 0 then len - 1 else eflashBytesLeft (len - 1)
termination_by len.toNat
decreasing_by bv_omega

/-- `len` behind both loops, which are the same in reading and in writing. -/
def eflashLeft (addr val : Nat) (len : Word) : Word :=
  eflashBytesLeft (if addr % 4 = 0 ∧ val % 4 = 0 then eflashWordsLeft len else len)

/-- What is returned, and what is stored at `val`. -/
def smicEflashRead (obj : Option SmicEflashDef) (mem : Nat → Byte) (addr len : Word) (val : Nat) :
    Int × List Byte :=
  match obj.map (·.eflashOpenCnt) with
  | none => (eObj, [])
  | some 0 => (eOpned, [])
  | some _ =>
    ((eflashLeft addr.toNat val len).toInt, eflashRead mem addr.toNat len.toNat val)

def smicEflashWriteNocheck (obj : Option SmicEflashDef) (mem ram : Nat → Byte) (addr len : Word)
    (val : Nat) : Int × (Nat → Byte) :=
  match obj.map (·.eflashOpenCnt) with
  | none => (eObj, mem)
  | some 0 => (eOpned, mem)
  | some _ =>
    ((eflashLeft addr.toNat val len).toInt,
      eflashWriteNocheck mem addr.toNat val (Flash.read ram val len.toNat))

/-- `smic_eflash_control` with `SMIC_EFLASH_PAGE_ERASE` -/
def eflashPageErase (mem : Nat → Byte) (addr : Nat) : Nat → Byte :=
  Flash.eraseBlock smicEflashPageSize mem addr

def eflashOps : FlashOps where
  secSize := smicEflashPageSize
  read := eflashRead
  erase := eflashPageErase
  writeNocheck := eflashWriteNocheck

def smicEflashWrite (obj : Option SmicEflashDef) (mBuf : Option Nat) (mem ram : Nat → Byte)
    (addr len : Word) (val : Nat) : Int × (Nat → Byte) :=
  flashUpdate (obj.map (·.eflashOpenCnt)) mBuf len mem fun mBuf =>
    secWrite eflashOps mBuf mem ram addr.toNat len.toNat val

def smicEflashErase (obj : Option SmicEflashDef) (mBuf : Option Nat) (mem : Nat → Byte)
    (addr len : Word) : Int × (Nat → Byte) :=
  flashUpdate (obj.map (·.eflashOpenCnt)) mBuf len mem fun mBuf =>
    secErase eflashOps mBuf mem addr.toNat len.toNat

end Embarc
