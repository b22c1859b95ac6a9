/-
Chains of descriptors of the uDMA controller: `_dmac_process_desc` in `arc_udma.c`.

Descriptors are objects of their own, named by their address; a link word is the address of the next
one, and zero ends the chain.  Flushing the caches does not change a descriptor and is left out.
-/
import Embarc.Arc.Types
import Embarc.Lib.Field
import Mathlib.Logic.Function.Basic

namespace Embarc

/-- `dma_desc_t` -/
structure DmaDesc where
  dmactrl : Word
  dmasar : Word
  dmadar : Word
  dmallp : Word
deriving DecidableEq, Repr

def dmactrlOpMask : Word := 0x3#32 <<< 0
def dmactrlIntMask : Word := 0x1#32 <<< 29

def dmaSingleTransfer : Word := 1
def dmaAutoLinkedTransfer : Word := 2
def dmaManualLinkedTransfer : Word := 3

def dmaIntDisable : Word := 0
def dmaIntEnable : Word := 1

/-- `(desc->DMACTRLx & DMACTRLx_OP_MASK) >> DMACTRLx_OP_OFS` -/
def DmaDesc.op (d : DmaDesc) : Word := (d.dmactrl &&& dmactrlOpMask) >>> 0

/-- What one round of the loop makes of a descriptor. -/
def DmaDesc.process (intEnable : Word) (d : DmaDesc) : DmaDesc :=
  if d.dmallp ≠ 0 then
    if d.op ≠ dmaManualLinkedTransfer then
      { d with dmactrl := d.dmactrl &&& ~~~dmactrlOpMask ||| dmaAutoLinkedTransfer <<< 0 }
    else d
  else
    let ctrl := d.dmactrl &&& ~~~dmactrlOpMask ||| dmaSingleTransfer <<< 0
    { d with dmactrl := ctrl &&& ~~~dmactrlIntMask ||| intEnable <<< 29 }

/-- The descriptors after the loop, if it takes at most `fuel` rounds. -/
def dmacProcessDesc (intEnable : Word) : Nat → (Word → DmaDesc) → Word → Option (Word → DmaDesc)
  | 0, _, _ => none
  | fuel + 1, descs, desc =>
    let descs := Function.update descs desc ((descs desc).process intEnable)
    let next := (descs desc).dmallp
    if next ≠ 0 then dmacProcessDesc intEnable fuel descs next else some descs

end Embarc
