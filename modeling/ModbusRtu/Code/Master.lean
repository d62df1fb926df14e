import ModbusRtu.Base.RawMemory
import ModbusRtu.Code.Crc

/-!
# Requests and replies at the master

`master.c`: the request builders, which write an ADU behind a pointer `dst`,
and the reply parsers, which look at the bytes `[adu, adu + adu_size)`. A
returned pointer is an offset from `dst` or `adu`; `NULL` is `none`. Packed
structures are the lists of their bytes.

The pointers the functions check against `NULL` are taken not to be `NULL`.
The outer `Option` of the builders is for the CRC loop, which stops only when
its pointer meets the end of the range: `none` is a call that does not return.
-/

namespace ModbusRtu

open Base

/-- What a builder returns and the memory it leaves behind `dst`. -/
abbrev Written := Option Nat × RawMemory UInt8

/-! ## CRC of a request -/

/-- The values of `size_t`. -/
def sizeTModulus : Nat := 2 ^ 64

/-- `implace_crc_impl` for the range `[begin, begin + end)`. -/
def implaceCrcImpl (mem : RawMemory UInt8) (end_ : Int) (maxSize : Nat) : Option Written :=
  if (end_ + 2) % sizeTModulus > maxSize then some (none, mem)
  else if end_ < 0 then none
  else
    let crc := modbusRtuCalcCrc (mem.read end_.toNat)
    let mem := (mem.memcpy end_.toNat [crc.low]).memcpy (end_.toNat + 1) [crc.high]
    some (some (end_.toNat + 2), mem)

/-- `implace_crc`. -/
def implaceCrc (adu : RawMemory UInt8) (aduSize : Nat) : Option Written :=
  implaceCrcImpl adu ((aduSize : Int) - 2) aduSize

/-- `valid_crc`: the position of the CRC if it is the right one. -/
def validCrc (adu : List UInt8) : Option Nat :=
  if adu.length ≤ 2 then none
  else
    let crc := modbusRtuCalcCrc (adu.take (adu.length - 2))
    let crcLow := adu.getD (adu.length - 2) 0
    let crcHigh := adu.getD (adu.length - 1) 0
    if crcLow ≠ crc.low ∨ crcHigh ≠ crc.high then none
    else some (adu.length - 2)

/-! ## The CRC loop, round by round -/

/-- The loop of `modbus_rtu_calc_crc` from `begin` on, cut off after `fuel` tests of its pointer:
the CRC and the offsets fetched. It stops only when the pointer is `end`. -/
def calcCrcLoop (cells : Nat → UInt8) (end_ : Int) : Nat → Nat → Crc → Option (Crc × List Nat)
  | 0, _, _ => none
  | fuel + 1, begin_, crc =>
      if (begin_ : Int) = end_ then some (crc, [])
      else
        (calcCrcLoop cells end_ fuel (begin_ + 1) (calcCrcStep crc (cells begin_))).map
          fun (crc, fetched) => (crc, begin_ :: fetched)

/-- A call that returned: its result, the memory it leaves and the offsets it fetched. -/
structure CrcCall where
  result : Option Nat
  adu : RawMemory UInt8
  fetched : List Nat

/-- `implace_crc_impl` with its loop cut off. -/
def implaceCrcImplRun (fuel : Nat) (mem : RawMemory UInt8) (end_ : Int) (maxSize : Nat) :
    Option CrcCall :=
  if (end_ + 2) % sizeTModulus > maxSize then some { result := none, adu := mem, fetched := [] }
  else
    (calcCrcLoop mem.cells end_ fuel 0 { low := 0xFF, high := 0xFF }).map fun (crc, fetched) =>
      { result := some (end_.toNat + 2)
        adu := (mem.memcpy end_.toNat [crc.low]).memcpy (end_.toNat + 1) [crc.high]
        fetched := fetched }

/-- `implace_crc` with its loop cut off. -/
def implaceCrcRun (fuel : Nat) (adu : RawMemory UInt8) (aduSize : Nat) : Option CrcCall :=
  implaceCrcImplRun fuel adu ((aduSize : Int) - 2) aduSize

/-! ## Request builders -/

/-- A packed request, zero in place of its CRC, completed by `implace_crc` and
copied to `dst`. -/
def copyRequest (req : List UInt8) (dst : RawMemory UInt8) : Option Written :=
  match implaceCrc (.ofList (req ++ [0, 0])) (req.length + 2) with
  | none => none
  | some (none, _) => some (none, dst)
  | some (some _, req') =>
      some (some (req.length + 2), dst.memcpy 0 (req'.read (req.length + 2)))

def makeRequestRdCoils (slaveAddr : UInt8) (memAddr : Data16) (count : UInt8)
    (dst : RawMemory UInt8) (maxSize : Nat) : Option Written :=
  if 0x7D < count then some (none, dst) else
  let req := [slaveAddr, fcodeRdCoils, memAddr.high, memAddr.low, 0, count]
  if 6 > maxSize then some (none, dst) else
  implaceCrcImpl (dst.memcpy 0 req) 6 maxSize

def makeRequestRdHoldingRegisters (slaveAddr : UInt8) (memAddr count : Data16)
    (dst : RawMemory UInt8) (maxSize : Nat) : Option Written :=
  if 0x7D < count.toWord then some (none, dst) else
  if 8 > maxSize then some (none, dst) else
  copyRequest [slaveAddr, fcodeRdHoldingRegisters, memAddr.high, memAddr.low, count.high, count.low]
    dst

def makeRequestWrCoil (slaveAddr : UInt8) (memAddr : Data16) (data : UInt8)
    (dst : RawMemory UInt8) (maxSize : Nat) : Option Written :=
  if data ≠ 0x00 ∧ data ≠ 0xFF then some (none, dst) else
  let req := [slaveAddr, fcodeWrCoil, memAddr.high, memAddr.low, data, 0]
  if 6 > maxSize then some (none, dst) else
  implaceCrcImpl (dst.memcpy 0 req) 6 maxSize

def makeRequestWrRegister (slaveAddr : UInt8) (memAddr data : Data16) (dst : RawMemory UInt8)
    (maxSize : Nat) : Option Written :=
  if 8 > maxSize then some (none, dst) else
  copyRequest [slaveAddr, fcodeWrRegister, memAddr.high, memAddr.low, data.high, data.low] dst

/-- The bytes of `n` registers from `data` on. -/
def data16Bytes (data : List Data16) (n : Nat) : List UInt8 :=
  (List.range n).flatMap fun i => [(data.getD i ⟨0, 0⟩).high, (data.getD i ⟨0, 0⟩).low]

def makeRequestWrRegisters (slaveAddr : UInt8) (memAddr : Data16) (data : List Data16)
    (count : Data16) (dst : RawMemory UInt8) (maxSize : Nat) : Option Written :=
  if 0x7B < count.toWord then some (none, dst) else
  let dataSize := count.toWord.toNat * 2
  let expectedSize := 7 + dataSize + 2
  if expectedSize > maxSize then some (none, dst) else
  let reqHeader := [slaveAddr, fcodeWrRegisters, memAddr.high, memAddr.low, count.high, count.low,
    (count.toWord <<< 1).toUInt8]
  let dst := (dst.memcpy 0 reqHeader).memcpy 7 (data16Bytes data count.toWord.toNat)
  implaceCrcImpl dst (7 + dataSize : Nat) maxSize

def makeRequestWrBytes (slaveAddr : UInt8) (memAddr : Data16) (data : List UInt8) (count : UInt8)
    (dst : RawMemory UInt8) (maxSize : Nat) : Option Written :=
  if 249 < count then some (none, dst) else
  let expectedSize := 5 + count.toNat + 2
  if expectedSize > maxSize then some (none, dst) else
  let reqHeader := [slaveAddr, fcodeWrBytes, memAddr.high, memAddr.low, count]
  let dst := (dst.memcpy 0 reqHeader).memcpy 5 ((List.range count.toNat).map (data.getD · 0))
  implaceCrcImpl dst (5 + count.toNat : Nat) maxSize

def makeRequestRdBytes (slaveAddr : UInt8) (memAddr : Data16) (count : UInt8)
    (dst : RawMemory UInt8) (maxSize : Nat) : Option Written :=
  if 249 < count then some (none, dst) else
  if 7 > maxSize then some (none, dst) else
  copyRequest [slaveAddr, fcodeRdBytes, memAddr.high, memAddr.low, count] dst

/-! ## Replies -/

/-- The field at byte `i` of a packed structure. -/
def field8 (adu : List UInt8) (i : Nat) : UInt8 := adu.getD i 0

/-- The two-byte field at byte `i` of a packed structure. -/
def field16 (adu : List UInt8) (i : Nat) : Data16 :=
  { high := field8 adu i, low := field8 adu (i + 1) }

/-- `modbus_rtu_rd_holding_registers_reply_t`; `data` is as long as `byte_count` says. -/
structure RdHoldingRegistersReply where
  addr : UInt8
  fcode : UInt8
  byteCount : UInt8
  data : List Data16
  deriving DecidableEq, Repr

/-- `modbus_rtu_wr_register_reply_t`. -/
structure WrRegisterReply where
  addr : UInt8
  fcode : UInt8
  memAddr : Data16
  data : Data16
  deriving DecidableEq, Repr

/-- `modbus_rtu_wr_registers_reply_t`. -/
structure WrRegistersReply where
  addr : UInt8
  fcode : UInt8
  memAddr : Data16
  count : Data16
  deriving DecidableEq, Repr

/-- `modbus_rtu_wr_bytes_reply_t`. -/
structure WrBytesReply where
  addr : UInt8
  fcode : UInt8
  memAddr : Data16
  count : UInt8
  deriving DecidableEq, Repr

/-- `modbus_rtu_rd_bytes_reply_t`; `bytes` is as long as `count` says. -/
structure RdBytesReply where
  addr : UInt8
  fcode : UInt8
  memAddr : Data16
  count : UInt8
  bytes : List UInt8
  deriving DecidableEq, Repr

def parseReplyRdHoldingRegisters (adu : List UInt8) : Option RdHoldingRegistersReply :=
  let expectedMinSize := 3 + 2
  if expectedMinSize > adu.length then none else
  let byteCount := field8 adu 2
  if expectedMinSize + byteCount.toNat ≠ adu.length then none else
  if validCrc adu = none then none else
  some
    { addr := field8 adu 0, fcode := field8 adu 1, byteCount := byteCount
      data := (List.range (byteCount.toNat / 2)).map fun k => field16 adu (3 + 2 * k) }

def parseReplyWrRegister (adu : List UInt8) : Option WrRegisterReply :=
  if 8 ≠ adu.length then none else
  if validCrc adu = none then none else
  some
    { addr := field8 adu 0, fcode := field8 adu 1, memAddr := field16 adu 2
      data := field16 adu 4 }

def parseReplyWrRegisters (adu : List UInt8) : Option WrRegistersReply :=
  let expectedSize := 1 + 1 + 2 + 2 + 2
  if expectedSize ≠ adu.length then none else
  if validCrc adu = none then none else
  some
    { addr := field8 adu 0, fcode := field8 adu 1, memAddr := field16 adu 2
      count := field16 adu 4 }

def parseReplyWrBytes (adu : List UInt8) : Option WrBytesReply :=
  let expectedSize := 1 + 1 + 2 + 1 + 2
  if expectedSize ≠ adu.length then none else
  if validCrc adu = none then none else
  some
    { addr := field8 adu 0, fcode := field8 adu 1, memAddr := field16 adu 2
      count := field8 adu 4 }

def parseReplyRdBytes (adu : List UInt8) : Option RdBytesReply :=
  let expectedMinSize := 5 + 2
  if expectedMinSize > adu.length then none else
  let count := field8 adu 4
  if expectedMinSize + count.toNat ≠ adu.length then none else
  if validCrc adu = none then none else
  some
    { addr := field8 adu 0, fcode := field8 adu 1, memAddr := field16 adu 2, count := count
      bytes := (List.range count.toNat).map fun k => field8 adu (5 + k) }

/-- `find_ecode`: the position of the exception code in an exception reply. -/
def findEcode (adu : List UInt8) : Option Nat :=
  let expectedSize := 1 + 1 + 1 + 2
  if adu.length ≠ expectedSize then none else
  if validCrc adu = none then none else
  some 2

end ModbusRtu
