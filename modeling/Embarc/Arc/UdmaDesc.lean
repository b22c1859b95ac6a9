/-
The descriptors of the uDMA controller: `dmac_config_desc` in `arc_udma.c`.

A descriptor has the control word and the addresses of the last items.  The number of bytes is kept
in bits 8 to 20 of the control word, less one.
-/
import Embarc.Arc.UdmaChain

namespace Embarc

/-- Data width and address increment. -/
inductive DmaDwinc where
  | dw1inc1
  | dw1inc2
  | dw1inc4
  | dw2inc2
  | dw2inc4
  | dw4inc4
  | clr
  | dw8inc8
deriving DecidableEq, Repr

def dmactrlSizeMask : Word := 0x1FFF#32 <<< 8
def dmactrlDwincMask : Word := 0x7#32 <<< 5

/-- `(dmac_mode & DMACTRLx_DWINC_MASK) >> DMACTRLx_DWINC_OFS` -/
def dmacDwinc (dmacMode : Word) : DmaDwinc :=
  match ((dmacMode &&& dmactrlDwincMask) >>> 5).toNat with
  | 0 => .dw1inc1
  | 1 => .dw1inc2
  | 2 => .dw1inc4
  | 3 => .dw2inc2
  | 4 => .dw2inc4
  | 5 => .dw4inc4
  | 6 => .clr
  | _ => .dw8inc8

/-- `(dmac_mode & DMACTRLx_SIZE_MASK) >> DMACTRLx_SIZE_OFS` -/
def dmacSize (dmacMode : Word) : Word := (dmacMode &&& dmactrlSizeMask) >>> 8

def dmacMemoryAddrGap (dmacMode : Word) : Word :=
  let size := dmacSize dmacMode
  match dmacDwinc dmacMode with
  | .dw1inc2 => size <<< 1
  | .dw1inc4 => size <<< 2
  | .dw2inc2 => size &&& ~~~0x1#32
  | .dw2inc4 => (size &&& ~~~0x1#32) <<< 1
  | .dw4inc4 => size &&& ~~~0x3#32
  | .dw8inc8 => size &&& ~~~0x7#32
  | .dw1inc1 | .clr => size

def dmacAuxAddrGap (dmacMode : Word) : Word :=
  let size := dmacSize dmacMode
  match dmacDwinc dmacMode with
  | .dw2inc2 | .dw2inc4 => size >>> 1
  | .dw4inc4 | .dw8inc8 => size >>> 2
  | .dw1inc1 | .dw1inc2 | .dw1inc4 | .clr => size

/-- The end address, where `am` says that the address is incremented and `dtt` that it is that of
an auxiliary register. -/
def dmacCalcEndaddr (am dtt addr dmacMode : Word) : Word :=
  if dmacMode &&& am = 0 then addr
  else if hasFlag dmacMode dtt then addr + dmacAuxAddrGap dmacMode
  else addr + dmacMemoryAddrGap dmacMode

def dmacCalcDstEndaddr := dmacCalcEndaddr (2#32 <<< 30) (1#32 <<< 3)

def dmacCalcSrcEndaddr := dmacCalcEndaddr (1#32 <<< 30) (2#32 <<< 3)

def dmacSetDesc (source dest size dmacMode : Word) : DmaDesc :=
  let size := size - 1
  let dmacMode := dmacMode &&& ~~~dmactrlSizeMask
  let dmacMode := dmacMode ||| size <<< 8
  { dmactrl := dmacMode
    dmasar := dmacCalcSrcEndaddr source dmacMode
    dmadar := dmacCalcDstEndaddr dest dmacMode
    dmallp := 0 }

/-- What is returned, and what is stored at `desc`. -/
def dmacConfigDesc (desc src dst size ctrl : Word) : Int × Option DmaDesc :=
  if desc = 0 then (-1, none) else (0, some (dmacSetDesc src dst size ctrl))

end Embarc
