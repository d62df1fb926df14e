import Mathlib.Logic.Function.Basic
import ModbusRtu.Base.CountedLoop
import ModbusRtu.Code.Rtu

/-!
# The memory handler

`rtu_memory.c`: five request handlers over one window of byte cells, and the
adapter callback that puts the slave address in front. Cells are numbered from
`bytes[0]`; numbers outside `[0, addr_end - addr_begin)` are the memory around
the array (the header and the private data of the adapters lie directly before
it), so a store that leaves the array is visible as such. The request is read
through offsets from `begin`; offsets from `end` on are the bytes behind it.

Each call keeps two records beside its effect: the cells it reads or writes
and the request offsets it reads.

The handlers of the register function codes can be compiled out; the model is
the default build, with all of them.
-/

namespace ModbusRtu

open Base

/-! ## Memory and handler calls -/

/-- The width of `int` on the target: 16 bits on the ATmega328p and the STM8,
32 bits on Linux and the STM32. -/
inductive IntWidth
  | int16 | int32
  deriving DecidableEq, Repr

/-- `a + b` for 16-bit operands: `int16` targets compute it in `unsigned int`. -/
def IntWidth.add (w : IntWidth) (a b : UInt16) : Nat :=
  match w with
  | .int16 => (a + b).toNat
  | .int32 => a.toNat + b.toNat

/-- `a - b` for 16-bit operands. -/
def IntWidth.sub (w : IntWidth) (a b : UInt16) : Int :=
  match w with
  | .int16 => (a - b).toNat
  | .int32 => (a.toNat : Int) - b.toNat

/-- `rtu_memory_header_t`. -/
structure Header where
  addrBegin : UInt16
  addrEnd : UInt16
  deriving DecidableEq, Repr

/-- The number of cells of the window. -/
def Header.size (h : Header) : Nat := h.addrEnd.toNat - h.addrBegin.toNat

/-- `rtu_memory_t`, with the memory around `bytes[]`. -/
structure RtuMemory where
  header : Header
  bytes : Int → UInt8

/-- The state of one handler call: memory content, cells accessed, request
offsets read. -/
structure Ctx where
  bytes : Int → UInt8
  touched : List Int
  fetched : List Nat

namespace Ctx

def start (bytes : Int → UInt8) : Ctx := { bytes := bytes, touched := [], fetched := [] }

/-- Read `n` request bytes from offset `i` on. -/
def fetch (c : Ctx) (i n : Nat) : Ctx := { c with fetched := c.fetched ++ List.range' i n }

/-- Read the cell `i`. -/
def touch (c : Ctx) (i : Int) : Ctx := { c with touched := c.touched ++ [i] }

/-- Write the cell `i`. -/
def store (c : Ctx) (i : Int) (x : UInt8) : Ctx :=
  { c.touch i with bytes := Function.update c.bytes i x }

end Ctx

/-- How a handler call ends: its state, whether it left through `except`, and
the reply PDU it stored. -/
structure Outcome where
  ctx : Ctx
  exception : Bool
  reply : List UInt8

/-! ## Field access -/

def rd8 (src : List UInt8) (i : Nat) : UInt8 := src.getD i 0

def rd16 (src : List UInt8) (i : Nat) : UInt16 :=
  ((rd8 src i).toUInt16 <<< 8) ||| (rd8 src (i + 1)).toUInt16

def wr16 (data : UInt16) : List UInt8 := [(data >>> 8).toUInt8, (data &&& 0xFF).toUInt8]

/-- `except`: the exception reply that ends the call. -/
def except (c : Ctx) (fcode ecode : UInt8) : Outcome :=
  { ctx := c, exception := true, reply := [fcode + 0x80, ecode] }

/-- The first `n` request bytes, copied in front of the reply. -/
def echo (c : Ctx) (src : List UInt8) (n : Nat) : Ctx × List UInt8 :=
  (c.fetch 0 n, (List.range n).map (rd8 src))

/-! ## Handlers -/

def readN16 (w : IntWidth) (h : Header) (src : List UInt8) (end_ curr : Nat) (c : Ctx) : Outcome :=
  let requestSize := 1 + 2 + 2
  -- every handler answers a short request with the function code of `write_n8`
  if requestSize > end_ then except c fcodeWrBytes ecodeFormatError else
  let addr := rd16 src curr
  let c := c.fetch curr 2
  let curr := curr + 2
  if ¬(h.addrEnd > addr ∧ h.addrBegin ≤ addr) then
    except c fcodeRdHoldingRegisters ecodeIllegalDataAddress else
  let num := rd16 src curr
  let c := c.fetch curr 2
  if ¬(0 < num ∧ 0x7E > num) then except c fcodeRdHoldingRegisters ecodeIllegalDataValue else
  if ¬(h.addrEnd.toNat ≥ w.add addr num) then
    except c fcodeRdHoldingRegisters ecodeIllegalDataAddress else
  let reply := [fcodeRdHoldingRegisters, (num <<< 1).toUInt8]
  let addrBegin := addr - h.addrBegin
  let addrEnd := addrBegin + num
  let body (i : UInt16) (st : Ctx × List UInt8) : Id (Ctx × List UInt8) :=
    let data := (st.1.bytes i.toNat).toUInt16
    (st.1.touch i.toNat, st.2 ++ wr16 data)
  let st := forU16 addrBegin addrEnd body (c, reply)
  { ctx := st.1, exception := false, reply := st.2 }

def write16 (w : IntWidth) (h : Header) (src : List UInt8) (end_ curr : Nat) (c : Ctx) : Outcome :=
  let requestSize := 1 + 2 + 2
  if requestSize > end_ then except c fcodeWrBytes ecodeFormatError else
  let addr := rd16 src curr
  let c := c.fetch curr 2
  let curr := curr + 2
  -- the writes compare the address with the end of the window only
  if ¬(h.addrEnd > addr) then except c fcodeWrRegister ecodeIllegalDataAddress else
  let data := rd16 src curr
  let c := c.fetch curr 2
  if 0xFF00 &&& data ≠ 0 then except c fcodeWrRegister ecodeIllegalDataValue else
  let c := c.store (w.sub addr h.addrBegin) data.toUInt8
  let st := echo c src requestSize
  { ctx := st.1, exception := false, reply := st.2 }

def writeN16 (h : Header) (src : List UInt8) (end_ curr : Nat) (c : Ctx) : Outcome :=
  let requestSize := 1 + 2 + 2
  if requestSize > end_ then except c fcodeWrBytes ecodeFormatError else
  let addr := rd16 src curr
  let c := c.fetch curr 2
  let curr := curr + 2
  if ¬(h.addrEnd > addr) then except c fcodeWrRegisters ecodeIllegalDataAddress else
  let num := rd16 src curr
  let c := c.fetch curr 2
  let curr := curr + 2
  if ¬(0 < num ∧ 0x7C > num) then except c fcodeWrRegisters ecodeIllegalDataValue else
  let byteCount := rd8 src curr
  let c := c.fetch curr 1
  let curr := curr + 1
  if byteCount.toNat ≠ (num <<< 1).toNat then
    except c fcodeWrRegisters ecodeIllegalDataValue else
  if (byteCount.toNat : Int) ≠ (end_ : Int) - curr then
    except c fcodeWrRegisters ecodeFormatError else
  let addrBegin := addr - h.addrBegin
  let addrEnd := addrBegin + num
  let body (i : UInt16) (st : Ctx × Nat) : Except Outcome (Ctx × Nat) :=
    let data := rd16 src st.2
    let c := st.1.fetch st.2 2
    -- the registers before this one are stored already
    if 0xFF00 &&& data ≠ 0 then .error (except c fcodeWrRegisters ecodeIllegalDataValue)
    else .ok (c.store i.toNat data.toUInt8, st.2 + 2)
  match forU16 addrBegin addrEnd body (c, curr) with
  | .error outcome => outcome
  | .ok (c, _) =>
      let st := echo c src requestSize
      { ctx := st.1, exception := false, reply := st.2 }

def readN8 (w : IntWidth) (h : Header) (src : List UInt8) (end_ curr : Nat) (c : Ctx) : Outcome :=
  let requestSize := 1 + 2 + 1
  if requestSize > end_ then except c fcodeWrBytes ecodeFormatError else
  let addr := rd16 src curr
  let c := c.fetch curr 2
  let curr := curr + 2
  if ¬(h.addrEnd > addr ∧ h.addrBegin ≤ addr) then
    except c fcodeRdBytes ecodeIllegalDataAddress else
  let num := rd8 src curr
  let c := c.fetch curr 1
  if ¬(0 < num ∧ 250 > num) then except c fcodeRdBytes ecodeIllegalDataValue else
  if ¬(h.addrEnd.toNat ≥ w.add addr num.toUInt16) then
    except c fcodeRdBytes ecodeIllegalDataAddress else
  let st := echo c src requestSize
  let addrBegin := addr - h.addrBegin
  let addrEnd := addrBegin + num.toUInt16
  let body (i : UInt16) (st : Ctx × List UInt8) : Id (Ctx × List UInt8) :=
    (st.1.touch i.toNat, st.2 ++ [st.1.bytes i.toNat])
  let st := forU16 addrBegin addrEnd body st
  { ctx := st.1, exception := false, reply := st.2 }

def writeN8 (h : Header) (src : List UInt8) (end_ curr : Nat) (c : Ctx) : Outcome :=
  let requestSize := 1 + 2 + 1
  if requestSize > end_ then except c fcodeWrBytes ecodeFormatError else
  let addr := rd16 src curr
  let c := c.fetch curr 2
  let curr := curr + 2
  if ¬(h.addrEnd > addr) then except c fcodeWrBytes ecodeIllegalDataAddress else
  let num := rd8 src curr
  let c := c.fetch curr 1
  let curr := curr + 1
  if ¬(0 < num ∧ 250 > num) then except c fcodeWrBytes ecodeIllegalDataValue else
  if (num.toNat : Int) ≠ (end_ : Int) - curr then
    except c fcodeWrBytes ecodeIllegalDataValue else
  let offsetBegin := addr - h.addrBegin
  let offsetEnd := offsetBegin + num.toUInt16
  let body (i : UInt16) (st : Ctx × Nat) : Id (Ctx × Nat) :=
    ((st.1.fetch st.2 1).store i.toNat (rd8 src st.2), st.2 + 1)
  let st := forU16 offsetBegin offsetEnd body (c, curr)
  let st := echo st.1 src requestSize
  { ctx := st.1, exception := false, reply := st.2 }

/-- `rtu_memory_pdu_cb`: `begin` is at the function code, `curr` behind it. -/
def rtuMemoryPduCb (w : IntWidth) (mem : RtuMemory) (fcode : UInt8) (src : List UInt8)
    (end_ curr : Nat) : Outcome :=
  let c := Ctx.start mem.bytes
  if fcodeRdHoldingRegisters = fcode then readN16 w mem.header src end_ curr c
  else if fcodeWrRegister = fcode then write16 w mem.header src end_ curr c
  else if fcodeWrRegisters = fcode then writeN16 mem.header src end_ curr c
  else if fcodeRdBytes = fcode then readN8 w mem.header src end_ curr c
  else if fcodeWrBytes = fcode then writeN8 mem.header src end_ curr c
  else except c fcode ecodeIllegalFunction

/-! ## The adapter -/

/-- `rtu_memory_impl_t`: the slave address beside the memory. -/
structure RtuMemoryImpl where
  selfAddr : UInt8
  memory : RtuMemory

/-- `rtu_memory_impl_pdu_cb`: requests to other slaves get no reply; the reply
to an own request starts with the slave address. -/
def rtuMemoryImplPduCb (w : IntWidth) (impl : RtuMemoryImpl) (args : PduArgs) :
    RtuMemoryImpl × List UInt8 :=
  if impl.selfAddr ≠ args.addr then (impl, [])
  else
    let outcome := rtuMemoryPduCb w impl.memory args.fcode (args.src.drop 1) (args.end_ - 1)
      (args.curr - 1)
    ({ impl with memory := { impl.memory with bytes := outcome.ctx.bytes } },
      args.addr :: outcome.reply)

/-- The slave as the adapters assemble it: default buffers, the memory handler
as `pdu_cb`, no suspend and resume callbacks. -/
def slaveConfig (w : IntWidth) (serialSend : SerialSend) : Config RtuMemoryImpl where
  pduCb := rtuMemoryImplPduCb w
  serialSend := serialSend
  suspendCb := false
  resumeCb := false

end ModbusRtu
