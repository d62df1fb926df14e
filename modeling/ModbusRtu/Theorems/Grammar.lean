import ModbusRtu.Logic.Execution
import ModbusRtu.Logic.RequestBytes

/-!
# What an accepted request looks like

The writes of many cells compare the bytes that are left with the count in the
request; the other handlers ask for a smallest size only. An accepted request
therefore is a documented one, or a documented one with bytes behind it, which
`accepts_documented_iff` says the single write and the two reads do not notice.
-/

namespace ModbusRtu

/-- The PDU is a documented request with a legal quantity, with nothing missing
and nothing behind it. -/
def Documented (pdu : List UInt8) : Prop := ∃ r : Request, r.Legal ∧ pdu = r.encode

/-- The size of the request whose handler asks for a smallest size only. -/
def fixedSize (fcode : UInt8) : Option Nat :=
  if fcode = fcodeRdHoldingRegisters ∨ fcode = fcodeWrRegister then some 5
  else if fcode = fcodeRdBytes then some 4
  else none

/-- A request of fixed size with bytes behind its last field, which passes all checks. -/
def AcceptedWithRest (w : IntWidth) (h : Header) (fcode : UInt8) (payload : List UInt8) : Prop :=
  (∃ size, fixedSize fcode = some size ∧ size < payload.length) ∧
    PassesChecks w h fcode payload payload.length

/-! ## Reading a request back -/

section

variable {w : IntWidth} {h : Header} {fcode : UInt8} {rest : List UInt8}

theorem exists_cons_three {l : List UInt8} (hlen : 3 ≤ l.length) :
    ∃ a b c l', l = a :: b :: c :: l' := by
  obtain ⟨a, b, c, hfront⟩ := List.length_eq_three.mp (List.length_take_of_le hlen)
  exact ⟨a, b, c, l.drop 3, by rw [← List.take_append_drop 3 l, hfront]; rfl⟩

theorem readN16_documented (hok : ReadN16Ok w h (fcodeRdHoldingRegisters :: rest) (rest.length + 1))
    (hsize : rest.length + 1 ≤ 5) : Documented (fcodeRdHoldingRegisters :: rest) := by
  obtain ⟨hmin, -, hnum, -⟩ := hok
  obtain ⟨high, low, numHigh, numLow, rfl⟩ := List.length_eq_four.mp (by omega : rest.length = 4)
  have hfields : rd16 [fcodeRdHoldingRegisters, high, low, numHigh, numLow] 3 =
      makeWord numLow numHigh := rd16_eq_makeWord _ 3
  rw [hfields, UInt16.lt_iff_toNat_lt, UInt16.lt_iff_toNat_lt] at hnum
  obtain ⟨hpos, hmax⟩ := hnum
  refine ⟨.rdHoldingRegisters (makeWord low high) (makeWord numLow numHigh).toNat,
    ⟨hpos, Nat.le_of_lt_succ hmax⟩, ?_⟩
  rw [Request.encode, UInt16.ofNat_toNat, highByte_makeWord, lowByte_makeWord, highByte_makeWord,
    lowByte_makeWord]

theorem write16_documented (hok : Write16Ok h (fcodeWrRegister :: rest) (rest.length + 1))
    (hsize : rest.length + 1 ≤ 5) : Documented (fcodeWrRegister :: rest) := by
  obtain ⟨hmin, -, hdata⟩ := hok
  obtain ⟨high, low, dataHigh, value, rfl⟩ := List.length_eq_four.mp (by omega : rest.length = 4)
  have hfields : rd16 [fcodeWrRegister, high, low, dataHigh, value] 3 = makeWord value dataHigh :=
    rd16_eq_makeWord _ 3
  rw [hfields, highByte_makeWord] at hdata
  refine ⟨.wrRegister (makeWord low high) value, ⟨Nat.le_refl 1, Nat.le_refl 1⟩, ?_⟩
  rw [Request.encode, highByte_makeWord, lowByte_makeWord, hdata]

theorem readN8_documented (hok : ReadN8Ok w h (fcodeRdBytes :: rest) (rest.length + 1))
    (hsize : rest.length + 1 ≤ 4) : Documented (fcodeRdBytes :: rest) := by
  obtain ⟨hmin, -, hnum, -⟩ := hok
  obtain ⟨high, low, num, rfl⟩ := List.length_eq_three.mp (by omega : rest.length = 3)
  have hfields : rd8 [fcodeRdBytes, high, low, num] 3 = num := rfl
  rw [hfields, UInt8.lt_iff_toNat_lt, UInt8.lt_iff_toNat_lt] at hnum
  obtain ⟨hpos, hmax⟩ := hnum
  refine ⟨.rdBytes (makeWord low high) num.toNat, ⟨hpos, Nat.le_of_lt_succ hmax⟩, ?_⟩
  rw [Request.encode, UInt8.ofNat_toNat, highByte_makeWord, lowByte_makeWord]

theorem writeN8_documented (hok : WriteN8Ok h (fcodeWrBytes :: rest) (rest.length + 1)) :
    Documented (fcodeWrBytes :: rest) := by
  obtain ⟨hmin, -, hnum, hend⟩ := hok
  obtain ⟨high, low, num, values, rfl⟩ := exists_cons_three (by omega : 3 ≤ rest.length)
  have hfields : rd8 (fcodeWrBytes :: high :: low :: num :: values) 3 = num := rfl
  rw [hfields, UInt8.lt_iff_toNat_lt, UInt8.lt_iff_toNat_lt] at hnum
  rw [hfields] at hend
  obtain ⟨hpos, hmax⟩ := hnum
  have hlen : values.length = num.toNat := by
    simp only [List.length_cons] at hend
    omega
  refine ⟨.wrBytes (makeWord low high) values, ?_, ?_⟩
  · rw [Request.Legal, Request.count, hlen]
    exact ⟨hpos, Nat.le_of_lt_succ hmax⟩
  · rw [Request.encode, hlen, UInt8.ofNat_toNat, highByte_makeWord, lowByte_makeWord]
    rfl

/-- Registers with zero high bytes are the zero-extended bytes they stand for. -/
theorem exists_registers {n : Nat} {l : List UInt8} (hlen : l.length = 2 * n)
    (hzero : ∀ k < n, rd8 l (2 * k) = 0) :
    ∃ values : List UInt8, values.length = n ∧ l = values.flatMap Request.register := by
  induction n generalizing l with
  | zero => exact ⟨[], rfl, List.length_eq_zero_iff.mp hlen⟩
  | succ n ih =>
      obtain ⟨high, low, hfront⟩ := List.length_eq_two.mp
        (List.length_take_of_le (by omega : 2 ≤ l.length))
      have hl : l = high :: low :: l.drop 2 := by
        rw [← List.take_append_drop 2 l, hfront]
        rfl
      generalize l.drop 2 = l' at hl
      subst hl
      have hlen' : l'.length = 2 * n := by
        simp only [List.length_cons] at hlen
        omega
      obtain ⟨values, hvalues, rfl⟩ := ih hlen' fun k hk => hzero (k + 1) (by omega)
      have hhigh : high = 0 := hzero 0 (by omega)
      refine ⟨low :: values, by rw [List.length_cons, hvalues], ?_⟩
      rw [hhigh]
      rfl

theorem writeN16_documented
    (hok : WriteN16Ok h (fcodeWrRegisters :: rest) (rest.length + 1))
    (hall : ∀ k < (rd16 (fcodeWrRegisters :: rest) 3).toNat,
      RegisterOk (fcodeWrRegisters :: rest) k) :
    Documented (fcodeWrRegisters :: rest) := by
  obtain ⟨hmin, -, hnum, hdouble, hend⟩ := hok
  obtain ⟨high, low, numHigh, rest, rfl⟩ := exists_cons_three (by omega : 3 ≤ rest.length)
  simp only [List.length_cons] at hend
  -- the byte count is there, because it counts what is behind it
  obtain ⟨numLow, rest, rfl⟩ := List.exists_cons_of_length_pos (by omega : 0 < rest.length)
  simp only [List.length_cons] at hend
  obtain ⟨byteCount, registers, rfl⟩ :=
    List.exists_cons_of_length_pos (by omega : 0 < rest.length)
  have hfields : rd16 (fcodeWrRegisters :: high :: low :: numHigh :: numLow :: byteCount ::
      registers) 3 = makeWord numLow numHigh := rd16_eq_makeWord _ 3
  rw [hfields] at hnum hdouble hall
  rw [UInt16.lt_iff_toNat_lt, UInt16.lt_iff_toNat_lt] at hnum
  obtain ⟨hpos, hmax⟩ := hnum
  have hbyte : byteCount.toNat = 2 * (makeWord numLow numHigh).toNat := hdouble
  have hlen : registers.length = 2 * (makeWord numLow numHigh).toNat := by
    have hcount : byteCount.toNat + 6 = registers.length + 1 + 1 + 1 + 1 + 1 + 1 := hend
    omega
  have hzero : ∀ k < (makeWord numLow numHigh).toNat, rd8 registers (2 * k) = 0 := by
    intro k hk
    have hreg := hall k hk
    rw [RegisterOk, rd16_eq_makeWord, highByte_makeWord, Nat.add_comm] at hreg
    exact hreg
  obtain ⟨values, hvalues, rfl⟩ := exists_registers hlen hzero
  refine ⟨.wrRegisters (makeWord low high) values, ?_, ?_⟩
  · rw [Request.Legal, Request.count, hvalues]
    exact ⟨hpos, Nat.le_of_lt_succ hmax⟩
  · rw [Request.encode, hvalues, UInt16.ofNat_toNat, highByte_makeWord, lowByte_makeWord,
      highByte_makeWord, lowByte_makeWord, ← hbyte, UInt8.ofNat_toNat]
    rfl

/-- A documented request of fixed size has that size. -/
theorem Documented.length_eq (hdoc : Documented (fcode :: rest)) {size : Nat}
    (hfixed : fixedSize fcode = some size) : (fcode :: rest).length = size := by
  obtain ⟨r, -, hr⟩ := hdoc
  rw [hr, r.length_encode]
  cases r with
  | rdHoldingRegisters | wrRegister | rdBytes =>
      obtain rfl := (List.cons.inj hr).1
      exact Option.some_inj.mp hfixed
  | wrRegisters | wrBytes =>
      obtain rfl := (List.cons.inj hr).1
      cases hfixed

theorem documented_of_passesChecks (hpass : PassesChecks w h fcode (fcode :: rest)
      (fcode :: rest).length)
    (hsize : ∀ size, fixedSize fcode = some size → (fcode :: rest).length ≤ size) :
    Documented (fcode :: rest) := by
  rcases fcode_cases fcode with rfl | rfl | rfl | rfl | rfl | hunsup
  · exact readN16_documented hpass (hsize 5 rfl)
  · exact write16_documented hpass (hsize 5 rfl)
  · obtain ⟨hok, hall⟩ : WriteN16Ok h (fcodeWrRegisters :: rest) _ ∧
      ∀ k < (rd16 (fcodeWrRegisters :: rest) 3).toNat, RegisterOk _ k := hpass
    exact writeN16_documented hok hall
  · exact readN8_documented hpass (hsize 4 rfl)
  · exact writeN8_documented hpass
  · exact absurd hpass (not_passesChecks hunsup)

end

/-- For every window and PDU: a request that is answered without an exception is
a documented one, exactly unless it is a register read, a single write or a byte
read that passes all checks and has bytes behind its last field. -/
theorem accepts_documented_iff (w : IntWidth) (mem : RtuMemory) (fcode : UInt8)
    (rest tail : List UInt8) :
    ((callWith w mem fcode (fcode :: rest) tail).exception = false → Documented (fcode :: rest)) ↔
      ¬AcceptedWithRest w mem.header fcode (fcode :: rest) := by
  rw [callWith_accepted_iff]
  constructor
  · rintro hdoc ⟨⟨size, hfixed, hlong⟩, hpass⟩
    have hlen := (hdoc hpass).length_eq hfixed
    omega
  · intro hrest hpass
    refine documented_of_passesChecks hpass fun size hfixed => ?_
    by_contra hlong
    exact hrest ⟨⟨size, hfixed, Nat.lt_of_not_le hlong⟩, hpass⟩

/-- A register read with one byte too many is answered. -/
theorem read_with_rest_accepted :
    let mem : RtuMemory := { header := ⟨0x1000, 0x1400⟩, bytes := fun _ => 0 }
    let pdu : List UInt8 := [0x03, 0x10, 0, 0, 1, 0xFF]
    (callWith .int32 mem fcodeRdHoldingRegisters pdu []).exception = false ∧ ¬Documented pdu := by
  intro mem pdu
  refine ⟨by decide, ?_⟩
  intro hdoc
  have hlen : pdu.length = 5 := hdoc.length_eq rfl
  exact absurd hlen (by decide)

end ModbusRtu
