import ModbusRtu.Code.Master
import ModbusRtu.Code.Tty

/-!
# Master transactions

`master_impl.c`: a request is written to the serial line, a reply of the
expected size is read and parsed, and its payload copied to the caller. What
the system does in the meantime is given: `SerialLine`.

A transaction notes the request it wrote and the size it asked `read_impl` for.
The local receive buffer is taken to be as large as that size.
-/

namespace ModbusRtu

open Base

/-- The master's end of the serial line, with what happens there during one transaction. -/
structure SerialLine where
  /-- `impl->rate`. -/
  rate : Speed
  /-- `impl->timeout_exec_ms`. -/
  timeoutExecMs : Int
  /-- `tty_write` comes to the end of the request. -/
  writes : Bool
  /-- What the rounds of `tty_read` get from the system. Where they end before
  its loop does, the time is over. -/
  rounds : List (TtyRound { arrived : List UInt8 // arrived ≠ [] })
  /-- What is in the memory at the receive buffer and around it, which is not initialized. -/
  found : Int → UInt8

/-- The time limit of `read_impl`, `tmax_ms`. -/
def SerialLine.tmaxMs (line : SerialLine) (size : Nat) : Int :=
  calcTmaxMs line.rate size + line.timeoutExecMs

/-- `tty_read`, as `read_impl` calls it. -/
def SerialLine.read (line : SerialLine) (size : Nat) : TtyState :=
  ttyReadLoop size (line.tmaxMs size) line.found line.rounds

/-- `write_impl`. -/
def writeImpl (line : SerialLine) (_request : List UInt8) : Bool := line.writes

/-- `read_impl`: the bytes it leaves in the buffer, `none` if `tty_read` does not
come to its end. -/
def readImpl (line : SerialLine) (size : Nat) : Option (List UInt8) :=
  let s := line.read size
  if s.curr = size then some s.front else none

/-- The course of a transaction. A pointer returned is an offset from `data`. -/
structure Transaction (α : Type) where
  /-- The request given to `write_impl`. -/
  written : Option (List UInt8)
  /-- The size `read_impl` was asked for. -/
  readSize : Option Nat
  /-- The pointer returned and the elements copied to the caller; `NULL` is `none`. -/
  result : Option (Nat × List α)

variable {α : Type}

/-- `NULL`, before anything is written. -/
def Transaction.refused : Transaction α := { written := none, readSize := none, result := none }

/-- The part all transactions share: `request` is written, `expectedSize` bytes
are read, and `finish` makes the result of them. -/
def transact (line : SerialLine) (request : List UInt8) (expectedSize : Nat)
    (finish : List UInt8 → Option (Nat × List α)) : Transaction α :=
  if !writeImpl line request then { written := some request, readSize := none, result := none }
  else
    { written := some request, readSize := some expectedSize
      result := (readImpl line expectedSize).bind finish }

def rtuMasterRdHoldingRegisters (line : SerialLine) (addr : UInt8) (memAddr count : Data16) :
    Option (Transaction Data16) :=
  let req := [addr, fcodeRdHoldingRegisters, memAddr.high, memAddr.low, count.high, count.low, 0, 0]
  match implaceCrc (.ofList req) 8 with
  | none => none
  | some (none, _) => some .refused
  | some (some _, req) =>
      let dataSize := count.toWord.toNat * 2
      let expectedSize := 3 + dataSize + 2
      some (transact line (req.read 8) expectedSize fun rxBuf =>
        (parseReplyRdHoldingRegisters rxBuf).map fun rep =>
          (count.toWord.toNat, rep.data.take count.toWord.toNat))

def rtuMasterWrRegisters (line : SerialLine) (addr : UInt8) (memAddr count : Data16)
    (data : List Data16) : Option (Transaction Data16) :=
  match makeRequestWrRegisters addr memAddr data count (.ofList []) aduCapacity with
  | none => none
  | some (none, _) => some .refused
  | some (some reqEnd, txBuf) =>
      some (transact line (txBuf.read reqEnd) 8 fun reply =>
        (parseReplyWrRegisters reply).map fun _ => (count.toWord.toNat, []))

def rtuMasterWrBytes (line : SerialLine) (addr : UInt8) (memAddr : Data16) (count : UInt8)
    (bytes : List UInt8) : Option (Transaction UInt8) :=
  match makeRequestWrBytes addr memAddr bytes count (.ofList []) aduCapacity with
  | none => none
  | some (none, _) => some .refused
  | some (some reqEnd, txBuf) =>
      some (transact line (txBuf.read reqEnd) 7 fun reply =>
        (parseReplyWrBytes reply).map fun _ => (count.toNat, []))

def rtuMasterRdBytes (line : SerialLine) (addr : UInt8) (memAddr : Data16) (count : UInt8) :
    Option (Transaction UInt8) :=
  let req := [addr, fcodeRdBytes, memAddr.high, memAddr.low, count, 0, 0]
  match implaceCrc (.ofList req) 7 with
  | none => none
  | some (none, _) => some .refused
  | some (some _, req) =>
      let expectedSize := 5 + count.toNat + 2
      some (transact line (req.read 7) expectedSize fun rxBuf =>
        (parseReplyRdBytes rxBuf).map fun rep => (count.toNat, rep.bytes.take count.toNat))

end ModbusRtu
