import Mathlib.Data.UInt

/-!
# Constants and wire types

Function and exception codes, frame sizes, and the two-byte wire types: a CRC
travels low byte first, every other 16-bit field high byte first.
-/

namespace ModbusRtu

/-! ## Words and bytes -/

/-- `MAKE_WORD`. -/
def makeWord (low high : UInt8) : UInt16 :=
  (high.toUInt16 <<< 8) ||| (low.toUInt16 &&& 0xFF)

/-- `LOW_BYTE`. -/
def lowByte (word : UInt16) : UInt8 := (word &&& 0xFF).toUInt8

/-- `HIGH_BYTE`. -/
def highByte (word : UInt16) : UInt8 := (word >>> 8).toUInt8

/-- The error check field of a frame, in transmission order. -/
structure Crc where
  low : UInt8
  high : UInt8
  deriving DecidableEq, Repr

/-- `CRC_TO_WORD`. -/
def Crc.toWord (crc : Crc) : UInt16 := makeWord crc.low crc.high

/-- `WORD_TO_CRC`. -/
def Crc.ofWord (word : UInt16) : Crc := { low := lowByte word, high := highByte word }

/-- A 16-bit data, address or count field, in transmission order. -/
structure Data16 where
  high : UInt8
  low : UInt8
  deriving DecidableEq, Repr

/-- `DATA16_TO_WORD`, also used for memory addresses and counts. -/
def Data16.toWord (d : Data16) : UInt16 := makeWord d.low d.high

/-- `WORD_TO_DATA16`, also used for memory addresses and counts. -/
def Data16.ofWord (word : UInt16) : Data16 := { high := highByte word, low := lowByte word }

/-! ## Function codes -/

def fcodeRdCoils : UInt8 := 1
def fcodeRdHoldingRegisters : UInt8 := 3
def fcodeWrCoil : UInt8 := 5
def fcodeWrRegister : UInt8 := 6
def fcodeWrRegisters : UInt8 := 16
def fcodeUser1Offset : UInt8 := 65
def fcodeRdBytes : UInt8 := fcodeUser1Offset + 0
def fcodeWrBytes : UInt8 := fcodeUser1Offset + 1

/-! ## Exception codes -/

def ecodeIllegalFunction : UInt8 := 0x1
def ecodeIllegalDataAddress : UInt8 := 0x2
def ecodeIllegalDataValue : UInt8 := 0x3
def ecodeUserOffset : UInt8 := 0x80
def ecodeFormatError : UInt8 := ecodeUserOffset + 0

/-! ## Frame sizes -/

def aduCapacity : Nat := 256
def aduMinSize : Nat := 1 + 1 + 2

end ModbusRtu
