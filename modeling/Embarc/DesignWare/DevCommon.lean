/-
What the DesignWare drivers have in common: the interrupt buffers of `dev_common.h`, and the
controllers they drive.
-/
import Embarc.Arc.Types
import Embarc.Lib.Field

namespace Embarc

structure DevBuffer where
  buf : Word
  len : Word
  ofs : Word
deriving DecidableEq, Repr

/-- All zero, as `memset` leaves it. -/
def DevBuffer.cleared : DevBuffer := { buf := 0, len := 0, ofs := 0 }

/-- `RDY_SND` and `RDY_RCV`, and the commands and fields that come in pairs. -/
inductive Dir where
  | tx
  | rx
deriving DecidableEq, Repr

/-- What `CMD_SET_TXINT_BUF` and `CMD_SET_RXINT_BUF` store for the parameter at `param`. -/
def intBuf (param : Word) (devbuf : DevBuffer) : DevBuffer :=
  if param ≠ 0 then { devbuf with ofs := 0 } else .cleared

def devEnabled : Word := 0x01#32

/-- What every command checks first: that the device is open and enabled. -/
theorem ready_ok {σ : Type} {s : σ} {opnCnt : Nat} {status : Word} {r : Int × σ}
    (h : (if opnCnt = 0 then (eClsed, s)
      else if status &&& devEnabled = 0 then (eSys, s) else r).1 = eOk) :
    (if opnCnt = 0 then (eClsed, s)
      else if status &&& devEnabled = 0 then (eSys, s) else r) = r := by
  obtain ⟨-, hopen⟩ := check_ok (by decide) h
  rw [hopen] at h ⊢
  exact (check_ok (by decide) h).2

/-- A check fails and leaves the device as it is, or the command goes on. -/
theorem check_cases {σ α η : Type} {c : Prop} [Decidable c] {a b : α} {s s' : σ}
    {r : Except η (α × σ)} (h : (if c then .ok (a, s) else r) = .ok (b, s')) :
    s' = s ∨ ¬c ∧ r = .ok (b, s') := by
  split at h
  case isTrue =>
    cases h
    exact Or.inl rfl
  case isFalse hc => exact Or.inr ⟨hc, h⟩

/-- `cnt`, but no more than `limit`. -/
def capped (cnt limit : Word) : Word := if cnt > limit then limit else cnt

theorem capped_toNat (cnt limit : Word) : (capped cnt limit).toNat = min cnt.toNat limit.toNat := by
  simp only [capped]
  split
  case isTrue h => exact (Nat.min_eq_right (Nat.le_of_lt h)).symm
  case isFalse h => exact (Nat.min_eq_left (Nat.le_of_not_lt h)).symm

/-! ### Flags of a register -/

section Flags

variable {x y m v f : Word}

theorem hasFlag_of_get_eq (h : x &&& f = y &&& f) : hasFlag x f = hasFlag y f := by
  simp only [hasFlag, h]

theorem hasFlag_clear (x f : Word) : hasFlag (x &&& ~~~f) f = false := by
  simp [hasFlag, Field.clear_get_self]

theorem hasFlag_clear_of_subset (h : m &&& f = f) : hasFlag (x &&& ~~~m) f = false := by
  have hnone : x &&& ~~~m &&& f = 0 := by
    rw [← h, ← BitVec.and_assoc, Field.clear_get_self]
    exact BitVec.zero_and
  simp [hasFlag, hnone]

theorem hasFlag_clear_of_disjoint (h : m &&& f = 0) : hasFlag (x &&& ~~~m) f = hasFlag x f :=
  hasFlag_of_get_eq (Field.clear_get_of_disjoint h)

theorem hasFlag_or_of_disjoint (h : v &&& f = 0) : hasFlag (x ||| v) f = hasFlag x f :=
  hasFlag_of_get_eq (Field.or_get_of_disjoint h)

theorem hasFlag_or_self (x : Word) (h : hasFlag v f = true) : hasFlag (x ||| v) f = true := by
  rw [hasFlag_or, h, Bool.or_true]

theorem hasFlag_bit (x : Word) (n : Nat) : hasFlag x (1#32 <<< n) = x.getLsbD n := by
  have hnone (i : Nat) : (0 : Word).getLsbD i = false := BitVec.getLsbD_zero
  have hand (i : Nat) : (x &&& 1#32 <<< n).getLsbD i = (x.getLsbD n && decide (i = n)) := by
    rw [BitVec.getLsbD_and, BitVec.getLsbD_shiftLeft, BitVec.getLsbD_one]
    by_cases hi : i = n
    · subst hi
      by_cases hlt : i < 32
      · simp [hlt]
      · simp [hlt, BitVec.getLsbD_of_ge x i (by omega)]
    · have hout : ¬ (n ≤ i ∧ i - n = 0) := by omega
      grind
  rw [hasFlag, Bool.eq_iff_iff, bne_iff_ne]
  constructor
  · intro hne
    by_contra hoff
    apply hne
    apply BitVec.eq_of_getLsbD_eq
    intro i _
    rw [hand i, hnone i, Bool.eq_false_of_not_eq_true hoff, Bool.false_and]
  · intro hon hzero
    have hn := hand n
    rw [hzero, hnone n, hon] at hn
    simp at hn

end Flags

/-! ### Callbacks and answers -/

/-- `DEV_IN_TX_ABRT` and `DEV_IN_RX_ABRT` -/
def Dir.abrt : Dir → Word
  | .tx => 0x10#32
  | .rx => 0x20#32

/-- `DEV_UART_CBS` and `DEV_IIC_CBS`: the addresses of the callbacks, 0 for none. -/
structure DevCbs where
  txCb : Word
  rxCb : Word
  errCb : Word
deriving DecidableEq, Repr

namespace DevCbs

def cleared : DevCbs := { txCb := 0, rxCb := 0, errCb := 0 }

def of (cbs : DevCbs) : Dir → Word
  | .tx => cbs.txCb
  | .rx => cbs.rxCb

end DevCbs

inductive DevCb where
  | ofDir (d : Dir)
  | err
deriving DecidableEq, Repr

def DevCbs.get (cbs : DevCbs) : DevCb → Word
  | .ofDir d => cbs.of d
  | .err => cbs.errCb

def DevCbs.set (cbs : DevCbs) (which : DevCb) (param : Word) : DevCbs :=
  match which with
  | .ofDir .tx => { cbs with txCb := param }
  | .ofDir .rx => { cbs with rxCb := param }
  | .err => { cbs with errCb := param }

/-- A callback that was made, and the device status it found. -/
structure DevCall (κ : Type) where
  cbrtn : κ
  status : Word
deriving DecidableEq, Repr

/-- What a control call returns, and what it has written to `*param`. -/
structure DevAnswer where
  ercd : Int
  value : Option Word
deriving DecidableEq, Repr

namespace DevAnswer

def code (ercd : Int) : DevAnswer := { ercd, value := none }

/-- `val` is asked for at the address `param`. -/
def read (param val : Word) : DevAnswer :=
  if param ≠ 0 ∧ param.toNat % 4 = 0 then { ercd := eOk, value := some val } else code ePar

end DevAnswer

/-- What the commands that ask for bytes waiting, or for free room, answer: with a FIFO what the
hardware has counted, and otherwise whether there is any. -/
def fifoAvail (fifoLen : Word) (ready : Bool) (level : Word) : Word :=
  if fifoLen ≤ 1 then if ready then 1 else 0 else level

/-- `DEV_MASTER_MODE` and `DEV_SLAVE_MODE` -/
inductive DevMode where
  | master
  | slave
deriving DecidableEq, Repr

def DevMode.ofWord (mode : Word) : Option DevMode :=
  if mode = 0 then some .master else if mode = 1 then some .slave else none

/-- The bit for a mode in `support_modes`. -/
def DevMode.supported : DevMode → Word
  | .master => 0x1#32
  | .slave => 0x2#32

/-! Addresses on the IIC bus, as `dev_iic.h` has them -/

def iic7BitAddress : Word := 0#32
def iic10BitAddress : Word := 1#32
def iic7BitAddressMask : Word := 0x7F#32
def iic10BitAddressMask : Word := 0x3FF#32

/-- A controller: the depths of its FIFOs, which the drivers find out when the device is opened,
and the device at the other end of the line. -/
structure DwHw where
  txDepth : Nat
  rxDepth : Nat
  reply : List Word → Word
  tx_pos : 0 < txDepth
  rx_pos : 0 < rxDepth

end Embarc
