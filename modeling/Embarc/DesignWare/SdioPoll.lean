/-
A command with a data part on the SDIO host controller, and the controller at work:
`dw_sdio_cmd_poll` in `dw_sdio.c` and the functions it calls.

A step is one of the controller's or a piece of the driver's program with one look at the hardware:
at the busy bit, at DWSDIO_REG_RINTSTS, or at the FIFO level together with the words that are then
moved.  Between two of the driver's pieces the controller can get on as far as it likes.

The words that the driver stores are kept in a list with their addresses.  The reset of the FIFO
before the command is taken to be over when the command is sent.
-/
import Embarc.DesignWare.Sdio
import Embarc.Lib.Run

namespace Embarc

/-- The level of the FIFO has a field of 13 bits in DWSDIO_REG_STATUS. -/
structure SdioHw where
  depth : Nat
  depth_lt : depth < 2 ^ 13

structure SdioCmd where
  card : BitVec 16
  cmdidx : BitVec 16
  respType : Word
  arg : Word
deriving DecidableEq, Repr

/-- `buf` is `in` or `out`. -/
structure SdioData where
  buf : Word
  flags : Word
  blkcnt : Word
  blksz : Word
deriving DecidableEq, Repr

def sdioRspPresent : Word := 0x1#32
def sdioRsp136 : Word := 0x2#32
def sdioRspCrc : Word := 0x4#32
def sdioRspBusy : Word := 0x8#32

def sdioDataWrite : Word := 1
def sdioDataRead : Word := 2

def sdioIntRe : Word := 0x2#32
def sdioIntCd : Word := 0x4#32
def sdioIntDto : Word := 0x8#32
def sdioIntTxdr : Word := 0x10#32
def sdioIntRxdr : Word := 0x20#32
def sdioIntRto : Word := 0x100#32
def sdioIntAll : Word := 0xffff#32
/-- `DWSDIO_INT_DATA_ERR | DWSDIO_INT_DATA_TMO` -/
def sdioIntDataFailed : Word := 0xbe80#32

/-- A call: its arguments, the words in memory, and what the card sends if it is read from. -/
structure SdioJob where
  cmd : SdioCmd
  data : SdioData
  ram : Word → Word
  words : List Word

inductive SdioPc where
  /-- It waits for the data lines to be free. -/
  | busy
  /-- It waits for the command to be done, and has looked `i` times. -/
  | command (i : Nat)
  /-- In the loop of `dw_sdio_data_transfer_poll`. -/
  | data (size : Word)
  /-- In `dw_sdio_fifo_read_poll`. -/
  | reading (buf size : Word)
  /-- In `dw_sdio_fifo_write_poll`. -/
  | writing (buf size : Word)
  | done (ercd : Int)
deriving DecidableEq, Repr

structure SdioSys where
  dev : DwSdio
  pc : SdioPc
  rintsts : Word
  fifo : List Word
  /-- The words that the card still sends. -/
  toCome : List Word
  /-- How many words the card still takes. -/
  wanted : Nat
  /-- `resp`, and what was stored in the buffer and taken out of it. -/
  resp : List Word
  stores : List (Word × Word)
  pushed : List Word

/-- What the hardware shows beside the interrupt status and the FIFO: the busy bit, whether the time
is up, and the response registers. -/
structure SdioLook where
  busy : Bool
  late : Bool
  resp : Fin 4 → Word

inductive SdioEvent where
  | drive (look : SdioLook)
  /-- A word from the card gets into the FIFO. -/
  | send
  /-- The card takes a word out of the FIFO. -/
  | take
  /-- Bits of DWSDIO_REG_RINTSTS are set. -/
  | raise (bits : Word)

/-! ### The driver -/

/-- The number of bytes, as it is written to DWSDIO_REG_BYTCNT. -/
def SdioData.bytes (data : SdioData) : Word := data.blksz * data.blkcnt

/-- What is written to DWSDIO_REG_CMD. -/
def sdioCmdReg (cmd : SdioCmd) (data : SdioData) : Word :=
  let reg := sdioCmdDataExp
  let reg := if hasFlag data.flags sdioDataWrite then reg ||| sdioCmdRw else reg
  let reg := if cmd.cmdidx = 12 then reg ||| sdioCmdAbortStop else reg ||| sdioCmdPrvDatWait
  let reg :=
    if hasFlag cmd.respType sdioRspPresent then
      let reg := reg ||| sdioCmdRespExp
      if hasFlag cmd.respType sdioRsp136 then reg ||| sdioCmdRespLength else reg
    else reg
  let reg := if hasFlag cmd.respType sdioRspCrc then reg ||| sdioCmdCheckCrc else reg
  reg ||| (cmd.cmdidx.setWidth 32 ||| cmd.card.setWidth 32 <<< 16 ||| sdioCmdStart |||
    sdioCmdUseHoldReg)

/-- A command with a long response that may be busy is refused. -/
def SdioCmd.refused (cmd : SdioCmd) : Bool :=
  hasFlag cmd.respType sdioRsp136 && hasFlag cmd.respType sdioRspBusy

def dwSdioCmdSet (s : DwSdio) (cmd : SdioCmd) (data : SdioData) : Int × DwSdio :=
  let s := { s with regs := { s.regs with cmdarg := cmd.arg } }
  if cmd.refused then (-1, s) else (0, s.writeCmd (sdioCmdReg cmd data))

/-- The data lines are free: the command is sent, and the card gets to work. -/
def sdioSend (job : SdioJob) (s : SdioSys) : SdioSys :=
  let data := job.data
  let dev := s.dev
  let dev := { dev with
    regs := { dev.regs with
      cardThrCtrl := dev.regs.cardThrCtrl ||| 1, bytcnt := data.bytes, blksiz := data.blksz } }
  let dev := dev.writeCtrl sdioCtrlResetFifo
  let (ercd, dev) := dwSdioCmdSet dev job.cmd data
  let s := { s with dev, rintsts := s.rintsts &&& ~~~sdioIntAll, fifo := [] }
  if ercd < 0 then { s with pc := .done eSys }
  else if hasFlag data.flags sdioDataWrite then
    { s with pc := .command 0, toCome := [], wanted := (data.bytes.toNat + 3) / 4 }
  else { s with pc := .command 0, toCome := job.words, wanted := 0 }

/-- What is stored in `resp`. -/
def sdioResp (cmd : SdioCmd) (resp : List Word) (look : SdioLook) : List Word :=
  if hasFlag cmd.respType sdioRspPresent then
    if hasFlag cmd.respType sdioRsp136 then [look.resp 3, look.resp 2, look.resp 1, look.resp 0]
    else look.resp 0 :: resp.drop 1
  else resp

/-- Behind a command that is done. -/
def sdioAnswered (job : SdioJob) (s : SdioSys) (look : SdioLook) : SdioSys :=
  if hasFlag s.rintsts sdioIntRto then { s with pc := .done eTmout }
  else if hasFlag s.rintsts sdioIntRe then { s with pc := .done eSys }
  else { s with resp := sdioResp job.cmd s.resp look, pc := .data (job.data.bytes / 4) }

/-- The end of a turn of `dw_sdio_data_transfer_poll`. -/
def sdioTurnEnd (s : SdioSys) (size : Word) (late : Bool) : SdioSys :=
  { s with pc := if late then .done eTmout else .data size }

/-- One look at the status in `dw_sdio_data_transfer_poll`. -/
def sdioDataTurn (job : SdioJob) (s : SdioSys) (size : Word) (late : Bool) : SdioSys :=
  if hasFlag s.rintsts sdioIntDataFailed then { s with pc := .done eSys }
  else if hasFlag s.rintsts sdioIntDto then { s with pc := .done eOk }
  else if job.data.flags = sdioDataRead ∧ hasFlag s.rintsts sdioIntRxdr ∧ size ≠ 0 then
    { s with pc := .reading job.data.buf size }
  else if job.data.flags = sdioDataWrite ∧ hasFlag s.rintsts sdioIntTxdr ∧ size ≠ 0 then
    { s with pc := .writing job.data.buf size }
  else sdioTurnEnd s size late

/-- The stores of words one after the other. -/
def sdioStores (buf : Word) (words : List Word) : List (Word × Word) :=
  words.zipIdx.map fun x => (buf + 4 * BitVec.ofNat 32 x.2, x.1)

def sdioWords (ram : Word → Word) (buf : Word) (count : Nat) : List Word :=
  (List.range count).map fun i => ram (buf + 4 * BitVec.ofNat 32 i)

/-- The level of the FIFO as it stands in DWSDIO_REG_STATUS. -/
def sdioLevel (fifo : List Word) : Word := BitVec.ofNat 32 (fifo.length % 2 ^ 13)

/-- A turn of `dw_sdio_fifo_read_poll`, and with the last what follows. -/
def sdioReadTurn (s : SdioSys) (buf size : Word) (late : Bool) : SdioSys :=
  if s.fifo = [] then s
  else
    let len := capped size (sdioLevel s.fifo)
    let s := { s with
      stores := s.stores ++ sdioStores buf (s.fifo.take len.toNat), fifo := s.fifo.drop len.toNat }
    let left := if size > len then size - len else 0
    if left = 0 then sdioTurnEnd { s with rintsts := s.rintsts &&& ~~~sdioIntRxdr } 0 late
    else { s with pc := .reading (buf + 4 * len) left }

/-- A turn of `dw_sdio_fifo_write_poll`, and with the last what follows.  What the FIFO has no room
for is lost. -/
def sdioWriteTurn (hw : SdioHw) (job : SdioJob) (s : SdioSys) (buf size : Word) (late : Bool) :
    SdioSys :=
  if hw.depth ≤ s.fifo.length then s
  else
    let len := capped size (s.dev.fifoDepth - sdioLevel s.fifo)
    let words := sdioWords job.ram buf len.toNat
    let s := { s with pushed := s.pushed ++ words, fifo := (s.fifo ++ words).take hw.depth }
    let left := if size > len then size - len else 0
    if left = 0 then sdioTurnEnd { s with rintsts := s.rintsts &&& ~~~sdioIntTxdr } 0 late
    else { s with pc := .writing (buf + 4 * len) left }

def sdioDrive (hw : SdioHw) (job : SdioJob) (s : SdioSys) (look : SdioLook) : SdioSys :=
  match s.pc with
  | .busy =>
    if look.busy then if look.late then { s with pc := .done eTmout } else s
    else sdioSend job s
  | .command i =>
    if hasFlag s.rintsts sdioIntCd then sdioAnswered job s look
    else if i + 1 = 100000 then { s with pc := .done eTmout }
    else { s with pc := .command (i + 1) }
  | .data size => sdioDataTurn job s size look.late
  | .reading buf size => sdioReadTurn s buf size look.late
  | .writing buf size => sdioWriteTurn hw job s buf size look.late
  | .done _ => s

/-! ### The controller -/

def sdioRxWmark (s : DwSdio) : Nat := ((s.regs.fifoth >>> 16) &&& 0xfff).toNat

def sdioTxWmark (s : DwSdio) : Nat := (s.regs.fifoth &&& 0xfff).toNat

/-- Data is requested to be read above the receive watermark. -/
def sdioReceive (s : SdioSys) : SdioSys :=
  match s.toCome with
  | [] => s
  | word :: rest =>
    let s := { s with fifo := s.fifo ++ [word], toCome := rest }
    if sdioRxWmark s.dev < s.fifo.length then { s with rintsts := s.rintsts ||| sdioIntRxdr } else s

def sdioTransmit (s : SdioSys) : SdioSys := { s with fifo := s.fifo.drop 1, wanted := s.wanted - 1 }

def sdioStep (hw : SdioHw) (job : SdioJob) (s : SdioSys) : SdioEvent → Except Empty SdioSys
  | .drive look => .ok (sdioDrive hw job s look)
  | .send => .ok (sdioReceive s)
  | .take => .ok (sdioTransmit s)
  | .raise bits => .ok { s with rintsts := s.rintsts ||| bits }

/-- What the controller can do.  The card sends while there is room, and takes what there is.  The
end of the transfer is only raised when the card has sent or taken everything, and requests are
only raised for a level above or below their watermarks. -/
def SdioHwOk (hw : SdioHw) (s : SdioSys) : SdioEvent → Prop
  | .drive _ => True
  | .send => s.toCome ≠ [] ∧ s.fifo.length < hw.depth
  | .take => s.wanted ≠ 0 ∧ s.fifo ≠ []
  | .raise bits =>
    (hasFlag bits sdioIntDto = true → s.toCome = [] ∧ s.wanted = 0) ∧
    (hasFlag bits sdioIntRxdr = true → sdioRxWmark s.dev < s.fifo.length) ∧
    (hasFlag bits sdioIntTxdr = true → s.fifo.length ≤ sdioTxWmark s.dev)

def SdioSys.start (dev : DwSdio) (rintsts : Word) (fifo resp : List Word) : SdioSys where
  dev := dev
  pc := .busy
  rintsts := rintsts
  fifo := fifo
  toCome := []
  wanted := 0
  resp := resp
  stores := []
  pushed := []

end Embarc
