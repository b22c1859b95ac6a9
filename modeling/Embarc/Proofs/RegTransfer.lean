/-
How the drivers of registers behind I2C report a transaction.

Only the answer to the last call of a transaction is looked at.  The sensors compare it with the
number of bytes they have asked for, and so miss what failed before it; the port expander compares
it with E_OK, which is the answer when no byte has been transferred, and takes success for a
failure.
-/
import Embarc.Peripheral.RegTransfer

namespace Embarc

/-- The target was set, the register's address written and `len` bytes transferred. -/
def RegOutcome.Done (o : RegOutcome) (len : Int) : Prop :=
  o.tar = eOk ∧ o.pointer = 1 ∧ o.data = len

/-- A failure is reported exactly when there is one. -/
def ReportsExactly (ercd : Int) (done : Prop) : Prop := ercd = eOk ↔ done

variable {o write : RegOutcome}

theorem cy8c95xxRegWrite_eq : cy8c95xxRegWrite true cy8c95xxDevIo o = o.data := rfl

theorem cy8c95xxRegRead_eq : cy8c95xxRegRead true cy8c95xxDevIo o = o.data := rfl

theorem cy8c95xxReadid_ok_iff : (cy8c95xxReadid true true o).1 = eOk ↔ o.data = eOk := by
  have hsys : eSys ≠ eOk := by decide
  by_cases h : o.data = eOk <;> simp [cy8c95xxReadid, cy8c95xxRegRead_eq, h, hsys]

theorem cy8c95xxReadport_ok_iff (port : Fin 3) :
    (cy8c95xxReadport true port o).1 = eOk ↔ o.data = eOk := by
  have hsys : eSys ≠ eOk := by decide
  have hport : port.val < cy8c95xxPortNone := port.isLt
  by_cases h : o.data = eOk <;> simp [cy8c95xxReadport, cy8c95xxRegRead_eq, h, hport, hsys]

theorem cy8c95xxWriteport_ok_iff (port : Fin 3) (value : Byte) :
    cy8c95xxWriteport true port value write o = eOk ↔
      write.data = eOk ∧ o.data = eOk ∧ o.buf 0 = value := by
  have hsys : eSys ≠ eOk := by decide
  have hobj : eObj ≠ eOk := by decide
  have hport : port.val < cy8c95xxPortNone := port.isLt
  simp only [cy8c95xxWriteport, cy8c95xxRegWrite_eq, cy8c95xxRegRead_eq, hport]
  by_cases hwrite : write.data = eOk <;> by_cases h : o.data = eOk <;>
    by_cases hvalue : o.buf 0 = value <;> simp [hwrite, h, hvalue, hsys, hobj]

variable {regRead : Bool → RegOutcome → Int} (hlast : regRead true o = o.data)
  (convert : BitVec 16 → Int)

include hlast in
theorem sensorRead_ok_iff :
    (sensorRead true regRead convert true o).1 = eOk ↔ o.data = 2 := by
  have hobj : eObj ≠ eOk := by decide
  by_cases h : o.data = 2 <;> simp [sensorRead, hlast, h, hobj]

/-- Two conditions that exclude each other are equivalent when neither holds. -/
theorem iff_iff_neither {P Q : Prop} (h : P → ¬ Q) : (P ↔ Q) ↔ ¬ P ∧ ¬ Q :=
  ⟨fun hiff => ⟨fun hP => h hP (hiff.mp hP), fun hQ => h (hiff.mpr hQ) hQ⟩,
    fun hno => iff_of_false hno.1 hno.2⟩

theorem RegOutcome.not_done (h : o.data = 0) : ¬ o.Done 1 := fun hdone =>
  absurd (h.symm.trans hdone.2.2) (by decide)

include hlast in
theorem sensorRead_reports_iff :
    ReportsExactly (sensorRead true regRead convert true o).1 (o.Done 2) ↔
      (o.data = 2 → o.tar = eOk ∧ o.pointer = 1) := by
  rw [ReportsExactly, sensorRead_ok_iff hlast]
  constructor
  · intro h hdata
    exact ⟨(h.mp hdata).1, (h.mp hdata).2.1⟩
  · intro h
    exact ⟨fun hdata => ⟨(h hdata).1, (h hdata).2, hdata⟩, fun hdone => hdone.2.2⟩

/-- For every outcome of the calls underneath: the port expander reports right exactly when the
transaction has failed with another answer than 0, and the sensors exactly when the reading did not
go well after something before it has failed. -/
theorem register_reports_iff (o write : RegOutcome) (port : Fin 3) (value : Byte)
    (resolution13 : Bool) :
    (ReportsExactly (cy8c95xxReadid true true o).1 (o.Done 1) ↔ o.data ≠ 0 ∧ ¬ o.Done 1) ∧
    (ReportsExactly (cy8c95xxReadport true port o).1 (o.Done 1) ↔ o.data ≠ 0 ∧ ¬ o.Done 1) ∧
    (ReportsExactly (cy8c95xxWriteport true port value write o)
        (write.Done 1 ∧ o.Done 1 ∧ o.buf 0 = value) ↔
      ¬ (write.data = 0 ∧ o.data = 0 ∧ o.buf 0 = value) ∧
        ¬ (write.Done 1 ∧ o.Done 1 ∧ o.buf 0 = value)) ∧
    (ReportsExactly (adt7420SensorRead true resolution13 true o).1 (o.Done 2) ↔
      (o.data = 2 → o.tar = eOk ∧ o.pointer = 1)) ∧
    (ReportsExactly (tcn75SensorRead true true o).1 (o.Done 2) ↔
      (o.data = 2 → o.tar = eOk ∧ o.pointer = 1)) := by
  refine ⟨?_, ?_, ?_, sensorRead_reports_iff rfl _, sensorRead_reports_iff rfl _⟩
  · rw [ReportsExactly, cy8c95xxReadid_ok_iff]
    exact iff_iff_neither RegOutcome.not_done
  · rw [ReportsExactly, cy8c95xxReadport_ok_iff]
    exact iff_iff_neither RegOutcome.not_done
  · rw [ReportsExactly, cy8c95xxWriteport_ok_iff]
    exact iff_iff_neither fun h hdone => RegOutcome.not_done h.1 hdone.1

/-- Every call succeeds, and the port expander reports a failure; no target is set and no address
written, and the sensor reports success. -/
theorem register_reports_wrong :
    (cy8c95xxReadid true true ⟨0, 0, 1, 0, 1, fun _ => 0⟩).1 = eSys ∧
      (tcn75SensorRead true true ⟨eSys, 0, eSys, 0, 2, fun _ => 0⟩).1 = eOk := by
  decide

end Embarc
