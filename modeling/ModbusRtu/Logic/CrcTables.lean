import Mathlib.Data.FinEnum
import ModbusRtu.Base.BitCount
import ModbusRtu.Base.TableCrc
import ModbusRtu.Logic.Frames

/-!
# The CRC tables

An entry of the two tables is what eight shifts make of its index
(`hcrc16_get`, `lcrc16_get`), and shifting is linear (`crc16Shift_xor`). With
that the tables have the properties that error detection rests on: the entries
of `lcrc16` are distinct, the first entries are zero, and the two entries of a
byte have as many bits as the byte, modulo two.
-/

namespace ModbusRtu

open Base

/-! ## Shifts -/

/-- A one that is shifted out comes back as the polynomial. -/
theorem crc16Shift_eq (w : UInt16) :
    crc16Shift w = w >>> 1 ^^^ (if w &&& 1 = 0 then 0 else 0xA001) := by
  unfold crc16Shift
  by_cases hzero : w &&& 1 = 0
  · rw [if_neg (not_not.mpr hzero), if_pos hzero, UInt16.xor_zero]
  · rw [if_pos hzero, if_neg hzero]

theorem and_one_cases (w : UInt16) : w &&& 1 = 0 ∨ w &&& 1 = 1 := by
  rw [← UInt16.toNat_inj, ← UInt16.toNat_inj, UInt16.toNat_and,
    show (1 : UInt16).toNat = 1 from rfl, Nat.and_one_is_mod]
  exact Nat.mod_two_eq_zero_or_one _

theorem xor_and_one (a b : UInt16) : (a ^^^ b) &&& 1 = a &&& 1 ^^^ b &&& 1 := by
  apply UInt16.toBitVec_inj.mp
  ext i hi
  simp [Bool.and_xor_distrib_right]

theorem crc16Shift_xor (a b : UInt16) :
    crc16Shift (a ^^^ b) = crc16Shift a ^^^ crc16Shift b := by
  rw [crc16Shift_eq, crc16Shift_eq, crc16Shift_eq, UInt16.shiftRight_xor, xor_and_one]
  rcases and_one_cases a with ha | ha <;> rcases and_one_cases b with hb | hb
  · simp [ha, hb]
  · simp [ha, hb, UInt16.xor_assoc]
  · simp [ha, hb]
    ac_rfl
  · -- two ones cancel, and so do the polynomials
    simp [ha, hb]
    rw [xor_comm (b >>> 1), xor_assoc, xor_cancel_left]

/-- The eight shifts of the bitwise update. -/
def crc16Shifts (w : UInt16) : UInt16 := (List.range 8).foldl (fun acc _ => crc16Shift acc) w

theorem crc16Shifts_xor (a b : UInt16) :
    crc16Shifts (a ^^^ b) = crc16Shifts a ^^^ crc16Shifts b := by
  unfold crc16Shifts
  generalize List.range 8 = shifts
  induction shifts generalizing a b with
  | nil => rfl
  | cons _ shifts ih =>
      rw [List.foldl_cons, List.foldl_cons, List.foldl_cons, crc16Shift_xor, ih]

/-! ## Entries -/

/-- An entry of a table that is given by its list of entries. -/
theorem get_of_toList {table : Vector UInt8 256} (entry : UInt16 → UInt8)
    (h : table.toList = (List.range 256).map fun i => entry (.ofNat i)) (i : UInt8) :
    table.get i.toFin = entry i.toUInt16 := by
  have hlt : i.toNat < 256 := i.toNat_lt
  have hword : UInt16.ofNat i.toNat = i.toUInt16 := UInt16.toNat_inj.mp (by simp)
  have hget : table.toList[i.toNat]? = some (entry (.ofNat i.toNat)) := by
    rw [h, List.getElem?_map, List.getElem?_range hlt]
    rfl
  rw [Vector.getElem?_toList, Vector.getElem?_eq_getElem hlt, Option.some_inj, hword] at hget
  exact hget

set_option maxRecDepth 4000 in
theorem hcrc16_toList :
    hcrc16.toList = (List.range 256).map fun i => lowByte (crc16Shifts (.ofNat i)) := by
  decide +kernel

set_option maxRecDepth 4000 in
theorem lcrc16_toList :
    lcrc16.toList = (List.range 256).map fun i => highByte (crc16Shifts (.ofNat i)) := by
  decide +kernel

theorem hcrc16_get (i : UInt8) : hcrc16.get i.toFin = lowByte (crc16Shifts i.toUInt16) :=
  get_of_toList (fun w => lowByte (crc16Shifts w)) hcrc16_toList i

theorem lcrc16_get (i : UInt8) : lcrc16.get i.toFin = highByte (crc16Shifts i.toUInt16) :=
  get_of_toList (fun w => highByte (crc16Shifts w)) lcrc16_toList i

/-- The two tables as the checksum uses them. -/
def crcTables : CrcTables UInt8 where
  low i := hcrc16.get i.toFin
  high i := lcrc16.get i.toFin

theorem crcTables_low (i : UInt8) : crcTables.low i = lowByte (crc16Shifts i.toUInt16) :=
  hcrc16_get i

theorem crcTables_high (i : UInt8) : crcTables.high i = highByte (crc16Shifts i.toUInt16) :=
  lcrc16_get i

/-! ## Their properties -/

theorem highByte_xor (a b : UInt16) : highByte (a ^^^ b) = highByte a ^^^ highByte b := by
  rw [highByte, UInt16.shiftRight_xor, UInt16.toUInt8_xor]
  rfl

theorem highByte_crc16Shifts_eq_zero :
    ∀ i : UInt8, highByte (crc16Shifts i.toUInt16) = 0 → i = 0 := by
  decide +kernel

/-- Entries are distinct, because only that of zero is zero. -/
theorem crcTables_high_injective : Function.Injective crcTables.high := by
  intro i j h
  rw [crcTables_high, crcTables_high] at h
  have hzero : highByte (crc16Shifts (i ^^^ j).toUInt16) = 0 := by
    rw [UInt8.toUInt16_xor, crc16Shifts_xor, highByte_xor, h, UInt8.xor_self]
  exact UInt8.xor_eq_zero_iff.mp (highByte_crc16Shifts_eq_zero _ hzero)

theorem crcTables_low_zero : crcTables.low 0 = 0 := by
  rw [crcTables_low]
  decide

theorem crcTables_high_zero : crcTables.high 0 = 0 := by
  rw [crcTables_high]
  decide

theorem bitCount_crc16Shifts :
    ∀ i : UInt8, (bitCount (lowByte (crc16Shifts i.toUInt16)) +
      bitCount (highByte (crc16Shifts i.toUInt16))) % 2 = bitCount i % 2 := by
  decide +kernel

theorem bitCount_crcTables (i : UInt8) :
    (bitCount (crcTables.low i) + bitCount (crcTables.high i)) % 2 = bitCount i % 2 := by
  rw [crcTables_low, crcTables_high]
  exact bitCount_crc16Shifts i

/-! ## The checksum of a frame -/

/-- The register in front of a message. -/
def crcStart : UInt8 × UInt8 := (0xFF, 0xFF)

theorem calcCrc_eq_fold (bytes : List UInt8) :
    ((modbusRtuCalcCrc bytes).low, (modbusRtuCalcCrc bytes).high) =
      crcTables.fold crcStart bytes := by
  have hfold : ∀ crc : Crc, ((bytes.foldl calcCrcStep crc).low, (bytes.foldl calcCrcStep crc).high)
      = crcTables.fold (crc.low, crc.high) bytes := by
    induction bytes with
    | nil => exact fun crc => rfl
    | cons b bytes ih => exact fun crc => ih (calcCrcStep crc b)
  exact hfold { low := 0xFF, high := 0xFF }

/-- A frame with its own CRC leaves the register at zero. -/
theorem fold_withCrc (bytes : List UInt8) : crcTables.fold crcStart (withCrc bytes) = (0, 0) := by
  obtain ⟨hlow, hhigh⟩ := Prod.ext_iff.mp (calcCrc_eq_fold bytes)
  dsimp only at hlow hhigh
  rw [withCrc, hlow, hhigh]
  exact crcTables.fold_residue crcTables_low_zero crcTables_high_zero crcStart bytes

/-- A frame with its own CRC has an even number of bits set. -/
theorem bitSum_withCrc (bytes : List UInt8) : bitSum (withCrc bytes) % 2 = 0 := by
  have hweight := crcTables.fold_weight bitCount_xor_mod_two bitCount_crcTables crcStart
    (withCrc bytes)
  rw [fold_withCrc] at hweight
  have hstart : bitCount crcStart.1 + bitCount crcStart.2 = 16 := by decide
  have hzero : bitCount 0 = 0 := by decide
  rw [hstart, hzero] at hweight
  rw [bitSum]
  omega

end ModbusRtu
