import ModbusRtu.Base.WriteLog
import ModbusRtu.Code.Memory

/-!
# The documented requests and what they mean

The five requests of the README over a map from addresses to bytes, without
buffers, windows or loops: their encoding, their quantity limits, the writes
they stand for and the reply they ask for. A register is one byte, zero
extended.
-/

namespace ModbusRtu

open Base

/-- A documented request. -/
inductive Request
  | rdHoldingRegisters (addr : UInt16) (num : Nat)
  | wrRegister (addr : UInt16) (value : UInt8)
  | wrRegisters (addr : UInt16) (values : List UInt8)
  | rdBytes (addr : UInt16) (num : Nat)
  | wrBytes (addr : UInt16) (values : List UInt8)
  deriving DecidableEq, Repr

namespace Request

def fcode : Request → UInt8
  | rdHoldingRegisters .. => fcodeRdHoldingRegisters
  | wrRegister .. => fcodeWrRegister
  | wrRegisters .. => fcodeWrRegisters
  | rdBytes .. => fcodeRdBytes
  | wrBytes .. => fcodeWrBytes

def addr : Request → UInt16
  | rdHoldingRegisters addr _ | wrRegister addr _ | wrRegisters addr _ | rdBytes addr _
  | wrBytes addr _ => addr

/-- How many addresses the request is about. -/
def count : Request → Nat
  | rdHoldingRegisters _ num | rdBytes _ num => num
  | wrRegister _ _ => 1
  | wrRegisters _ values | wrBytes _ values => values.length

/-- The largest quantity of each request. -/
def limit : Request → Nat
  | rdHoldingRegisters .. => 125
  | wrRegister .. => 1
  | wrRegisters .. => 123
  | rdBytes .. | wrBytes .. => 249

/-- How many quantities the request has a field for, a word or a byte. -/
def quantities : Request → Nat
  | rdHoldingRegisters .. | wrRegister .. | wrRegisters .. => 65536
  | rdBytes .. | wrBytes .. => 256

/-- The quantity is a legal one. -/
def Legal (r : Request) : Prop := 1 ≤ r.count ∧ r.count ≤ r.limit

instance (r : Request) : Decidable r.Legal := inferInstanceAs (Decidable (_ ∧ _))

/-- The whole range lies in the window. -/
def Within (h : Header) (r : Request) : Prop :=
  h.addrBegin.toNat ≤ r.addr.toNat ∧ r.addr.toNat + r.count ≤ h.addrEnd.toNat

instance (h : Header) (r : Request) : Decidable (r.Within h) :=
  inferInstanceAs (Decidable (_ ∧ _))

/-- A register on the wire: its byte, zero extended, high byte first. -/
def register (value : UInt8) : List UInt8 := [0, value]

/-- The request PDU. -/
def encode : Request → List UInt8
  | rdHoldingRegisters addr num =>
      [fcodeRdHoldingRegisters, highByte addr, lowByte addr,
        highByte (.ofNat num), lowByte (.ofNat num)]
  | wrRegister addr value => [fcodeWrRegister, highByte addr, lowByte addr, 0, value]
  | wrRegisters addr values =>
      [fcodeWrRegisters, highByte addr, lowByte addr, highByte (.ofNat values.length),
        lowByte (.ofNat values.length), .ofNat (2 * values.length)] ++ values.flatMap register
  | rdBytes addr num => [fcodeRdBytes, highByte addr, lowByte addr, .ofNat num]
  | wrBytes addr values =>
      [fcodeWrBytes, highByte addr, lowByte addr, .ofNat values.length] ++ values

/-- The writes the request stands for, as address and value. -/
def writes : Request → List (Nat × UInt8)
  | wrRegister addr value => [(addr.toNat, value)]
  | wrRegisters addr values | wrBytes addr values =>
      (List.range values.length).map fun k => (addr.toNat + k, values.getD k 0)
  | rdHoldingRegisters .. | rdBytes .. => []

/-- The reply PDU, where `m` says what every address holds. -/
def reply (m : Nat → UInt8) : Request → List UInt8
  | rdHoldingRegisters addr num =>
      [fcodeRdHoldingRegisters, .ofNat (2 * num)] ++
        (List.range num).flatMap fun k => register (m (addr.toNat + k))
  | rdBytes addr num =>
      (rdBytes addr num).encode ++ (List.range num).map fun k => m (addr.toNat + k)
  | wrRegister addr value => (wrRegister addr value).encode
  | wrRegisters addr values => (wrRegisters addr values).encode.take 5
  | wrBytes addr values => (wrBytes addr values).encode.take 4

end Request

/-- What the cell of the address `a` holds. -/
def RtuMemory.cell (mem : RtuMemory) (a : Nat) : UInt8 :=
  mem.bytes ((a : Int) - mem.header.addrBegin.toNat)

/-- The memory as a map from addresses to bytes: the cells of the window, by address. -/
def RtuMemory.Represents (mem : RtuMemory) (m : Nat → UInt8) : Prop :=
  ∀ a, mem.header.addrBegin.toNat ≤ a → a < mem.header.addrEnd.toNat → mem.cell a = m a

end ModbusRtu
