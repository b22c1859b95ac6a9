/-
The converter behind I2C: `device/peripheral/adc/ad7991/ad7991.c`.

A value in `val` is in 1/4096 mV, in which it is a whole number: a product of 12 bits and a
reference voltage, which a `float` holds exactly.
-/
import Mathlib.Logic.Function.Basic
import Embarc.Arc.Types

namespace Embarc

/-- `AD7991_DEF` -/
structure Ad7991 where
  channelNum : Nat
  regConfig : Byte
  /-- `ref_source` is AD7991_REF_EXTERNAL -/
  external : Bool

def ad7991ConfigRefSel : Byte := 0x08
def ad7991ConfigCh3En : Byte := 0x80

def ad7991AdcChannel (a : Ad7991) (channel : Byte) : Ad7991 where
  channelNum := [channel.getLsbD 4, channel.getLsbD 5, channel.getLsbD 6,
    !a.external && channel.getLsbD 7].count true
  regConfig := (a.regConfig &&& 0x0f) ||| channel
  external := a.external

def ad7991RefSelect (a : Ad7991) (external : Bool) : Ad7991 :=
  if external then
    let a := { a with external := true, regConfig := a.regConfig ||| ad7991ConfigRefSel }
    ad7991AdcChannel a (a.regConfig &&& ~~~ad7991ConfigCh3En)
  else { a with external := false, regConfig := a.regConfig &&& ~~~ad7991ConfigRefSel }

def ad7991AdcInit (a : Ad7991) : Ad7991 :=
  ad7991AdcChannel (ad7991RefSelect { a with external := false } false) 0xf0

/-- The calls that configure a converter. -/
inductive Ad7991Op where
  | channel (channel : Byte)
  | refSelect (external : Bool)

def Ad7991.configure (a : Ad7991) : Ad7991Op → Ad7991
  | .channel channel => ad7991AdcChannel a channel
  | .refSelect external => ad7991RefSelect a external

/-- AD2_REF_EXTERNAL and AD2_REF_VDD -/
def Ad7991.actualRef (a : Ad7991) : Nat := if a.external then 2048 else 3300

/-- One of the four slots is decoded. -/
def ad7991Decode (actualRef : Nat) (data : Nat → Byte) (val : Nat → Nat) (slot : Nat) : Nat → Nat :=
  let voltage := (data (2 * slot) &&& 0x0f).toNat * 256 + (data (2 * slot + 1)).toNat
  let index := (data (2 * slot) >>> 4).toNat
  Function.update val index (voltage * actualRef)

/-- `ercd` is what the reading of `reply` returns; behind it the buffer is filled with zeros. -/
def ad7991AdcRead (a : Ad7991) (ercd : Int) (reply : List Byte) (val : Nat → Nat) :
    Int × (Nat → Nat) :=
  if ercd ≠ a.channelNum * 2 then (eObj, val)
  else
    let data := fun i => (reply.take (a.channelNum * 2)).getD i 0
    (eOk, (List.range 4).foldl (ad7991Decode a.actualRef data) val)

end Embarc
