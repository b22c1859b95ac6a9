/-
The timing of the DesignWare IIC: `dw_iic_calc_spklen` and `dw_iic_calc_sclcnt` in `dw_iic.c`.

The clock is given in kHz and the times in nanoseconds; a count is a number of clock periods.
-/
import Embarc.Arc.Types

namespace Embarc

structure DwIicSpklen where
  fsSpklen : Word
  hsSpklen : Word
deriving DecidableEq, Repr

structure DwIicSclCnt where
  ssSclHcnt : Word
  ssSclLcnt : Word
  fsSclHcnt : Word
  fsSclLcnt : Word
  hsSclHcnt : Word
  hsSclLcnt : Word
deriving DecidableEq, Repr

def dwIicFsSpklenNs : Word := 50#32
def dwIicHsSpklenNs : Word := 10#32

def minDwIicSsHighTimeNs : Word := 4000#32
def minDwIicSsLowTimeNs : Word := 4700#32
def minDwIicFsHighTimeNs : Word := 600#32
def minDwIicFsLowTimeNs : Word := 1300#32

def dwIicCapLoading100pf : Word := 0#32

/-- `MIN_DW_IIC_HS_100PF_HIGH_TIME_NS` and `MIN_DW_IIC_HS_400PF_HIGH_TIME_NS` -/
def minDwIicHsHighTimeNs (caploading : Word) : Word :=
  if caploading = dwIicCapLoading100pf then 60#32 else 120#32

/-- `MIN_DW_IIC_HS_100PF_LOW_TIME_NS` and `MIN_DW_IIC_HS_400PF_LOW_TIME_NS` -/
def minDwIicHsLowTimeNs (caploading : Word) : Word :=
  if caploading = dwIicCapLoading100pf then 160#32 else 320#32

/-- `MIN_DW_IIC_SS_SCL_HCNT`, and the same for the other speeds. -/
def minDwIicSclHcnt (spklen : Word) : Word := spklen + 5

/-- `MIN_DW_IIC_SS_SCL_LCNT`, and the same for the other speeds. -/
def minDwIicSclLcnt (spklen : Word) : Word := spklen + 7

/-- The quotient, and one more if something remains. -/
def roundedUp (ns clkNs : Word) : Word := if ns % clkNs ≠ 0 then ns / clkNs + 1 else ns / clkNs

def dwIicCalcSpklen (clkKhz : Word) : DwIicSpklen :=
  if clkKhz ≤ 1000000 then
    let clkNs := 1000000 / clkKhz
    { fsSpklen := roundedUp dwIicFsSpklenNs clkNs, hsSpklen := roundedUp dwIicHsSpklenNs clkNs }
  else
    let clkNs := clkKhz / 1000000
    { fsSpklen := dwIicFsSpklenNs * clkNs, hsSpklen := dwIicHsSpklenNs * clkNs }

/-- One count of `dw_iic_calc_sclcnt`.  Above 1 GHz `clk_ns` is not the number of periods in a
nanosecond, as it is in `dw_iic_calc_spklen`. -/
def sclCnt (clkKhz ns minCnt : Word) : Word :=
  let clkNs := 1000000 / clkKhz
  let cnt := if clkKhz ≤ 1000000 then roundedUp ns clkNs else ns * clkNs
  if cnt < minCnt then minCnt else cnt

def dwIicCalcSclcnt (clkKhz caploading : Word) (spklen : DwIicSpklen) : DwIicSclCnt where
  ssSclHcnt := sclCnt clkKhz minDwIicSsHighTimeNs (minDwIicSclHcnt spklen.fsSpklen)
  ssSclLcnt := sclCnt clkKhz minDwIicSsLowTimeNs (minDwIicSclLcnt spklen.fsSpklen)
  fsSclHcnt := sclCnt clkKhz minDwIicFsHighTimeNs (minDwIicSclHcnt spklen.fsSpklen)
  fsSclLcnt := sclCnt clkKhz minDwIicFsLowTimeNs (minDwIicSclLcnt spklen.fsSpklen)
  hsSclHcnt := sclCnt clkKhz (minDwIicHsHighTimeNs caploading) (minDwIicSclHcnt spklen.hsSpklen)
  hsSclLcnt := sclCnt clkKhz (minDwIicHsLowTimeNs caploading) (minDwIicSclLcnt spklen.hsSpklen)

end Embarc
