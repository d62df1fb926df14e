import ModbusRtu.Logic.CrcTables

/-!
# One CRC on all targets

The Linux build looks the CRC up in two tables of bytes; the microcontroller
builds shift it bit by bit. `calc_crc_eq_bitwise` says that both compute the same
CRC. One step of the loop is the eight shifts of the whole register: shifting is
linear, the high byte of the register moves down unchanged (no one is shifted out
of it), and what the low byte and the data byte give together is in the tables.
-/

namespace ModbusRtu

theorem lowByte_xor (a b : UInt16) : lowByte (a ^^^ b) = lowByte a ^^^ lowByte b := by
  rw [← toUInt8_eq_lowByte, ← toUInt8_eq_lowByte, ← toUInt8_eq_lowByte, UInt16.toUInt8_xor]

/-! ## One step -/

/-- The two bytes of a word have no bit in common. -/
theorem Crc.toWord_eq_xor (crc : Crc) :
    crc.toWord = crc.high.toUInt16 <<< 8 ^^^ crc.low.toUInt16 := by
  rw [Crc.toWord, makeWord, and_low_byte]
  apply UInt16.toBitVec_inj.mp
  ext i hi
  by_cases hlow : i < 8
  · simp [hlow]
  · have hzero : crc.low.toBitVec.getLsbD i = false := BitVec.getLsbD_of_ge _ i (by omega)
    simp [hlow, hzero]

/-- Eight shifts bring the high byte down. -/
theorem crc16Shifts_high : ∀ b : UInt8, crc16Shifts (b.toUInt16 <<< 8) = b.toUInt16 := by
  decide +kernel

theorem lowByte_toUInt16 (b : UInt8) : lowByte b.toUInt16 = b := by
  rw [← toUInt8_eq_lowByte, UInt8.toUInt8_toUInt16]

theorem highByte_toUInt16 (b : UInt8) : highByte b.toUInt16 = 0 := by
  have hb : b.toNat < 256 := b.toNat_lt
  rw [← UInt8.toNat_inj, highByte_toNat, UInt8.toNat_toUInt16, Nat.div_eq_of_lt hb]
  rfl

/-- The eight shifts of a register and a data byte are one look into the tables. -/
theorem ofWord_crc16UpdateWord (crc : Crc) (data : UInt8) :
    Crc.ofWord (crc16UpdateWord crc.toWord data) = calcCrcStep crc data := by
  have hword : crc.toWord ^^^ data.toUInt16 =
      crc.high.toUInt16 <<< 8 ^^^ (crc.low ^^^ data).toUInt16 := by
    rw [crc.toWord_eq_xor, UInt16.xor_assoc, UInt8.toUInt16_xor]
  have hshifts : crc16UpdateWord crc.toWord data =
      crc.high.toUInt16 ^^^ crc16Shifts (crc.low ^^^ data).toUInt16 := by
    show crc16Shifts (crc.toWord ^^^ data.toUInt16) = _
    rw [hword, crc16Shifts_xor, crc16Shifts_high]
  rw [hshifts, Crc.ofWord, calcCrcStep, lowByte_xor, highByte_xor, lowByte_toUInt16,
    highByte_toUInt16, UInt8.zero_xor, hcrc16_get, lcrc16_get]

/-- The update of the Linux build works on the two bytes of the same word. -/
theorem crc16Update_eq_calcCrcStep (crc : Crc) (data : UInt8) :
    crc16Update crc data = calcCrcStep crc data :=
  ofWord_crc16UpdateWord crc data

/-! ## Whole messages -/

theorem Crc.ofWord_toWord (crc : Crc) : Crc.ofWord crc.toWord = crc := by
  rw [Crc.ofWord, Crc.toWord, lowByte_makeWord, highByte_makeWord]

theorem Crc.toWord_ofWord (word : UInt16) : (Crc.ofWord word).toWord = word :=
  makeWord_bytes word

/-- From the same register on, the loop over the tables and the loop over the
bits end with the same register. -/
theorem foldl_calcCrcStep (bytes : List UInt8) (crc : Crc) :
    bytes.foldl calcCrcStep crc = Crc.ofWord (bytes.foldl crc16UpdateWord crc.toWord) := by
  induction bytes generalizing crc with
  | nil => exact (Crc.ofWord_toWord crc).symm
  | cons data bytes ih =>
      rw [List.foldl_cons, List.foldl_cons, ih, ← ofWord_crc16UpdateWord, Crc.toWord_ofWord]

/-- For every byte sequence the table-driven CRC is the fold of the bitwise
update, byte by byte as in the Linux build and on the word as in the
microcontroller builds. -/
theorem calc_crc_eq_bitwise (bytes : List UInt8) :
    modbusRtuCalcCrc bytes = bytes.foldl crc16Update { low := 0xFF, high := 0xFF } ∧
      modbusRtuCalcCrc bytes = Crc.ofWord (modbusRtuCalcCrcWord bytes) := by
  constructor
  · have hstep : calcCrcStep = crc16Update := by
      funext crc data
      exact (crc16Update_eq_calcCrcStep crc data).symm
    rw [modbusRtuCalcCrc, hstep]
  · exact foldl_calcCrcStep bytes { low := 0xFF, high := 0xFF }

end ModbusRtu
