import Mathlib.Data.FinEnum
import ModbusRtu.Logic.Refusals

/-!
# Exception replies name the request

An exception reply is the function code of the request with bit 7 set and an
exception code. The handlers pass the function code by hand, and two kinds of
requests get another one: a request too short for its handler is answered with
the code of `write_n8`, and bit 7 is set by an addition, which clears it where
the request has it set already. `identifies_iff` says that these are all.
-/

namespace ModbusRtu

/-- A rejected request is answered with its own function code with bit 7 set
and an exception code, an accepted one with bit 7 of the first byte clear. -/
def Identifies (fcode : UInt8) (outcome : Outcome) : Prop :=
  (outcome.exception = true →
      ∃ ecode, ecode ≠ 0 ∧ outcome.reply = [fcode ||| 0x80, ecode]) ∧
    (outcome.exception = false → ∀ b, outcome.reply.head? = some b → b &&& 0x80 = 0)

/-- The PDU is too short for the handler of the function code. -/
def TooShort (fcode : UInt8) (size : Nat) : Prop :=
  (fcode = fcodeRdHoldingRegisters ∨ fcode = fcodeWrRegister ∨ fcode = fcodeWrRegisters) ∧
      size < 5 ∨
    fcode = fcodeRdBytes ∧ size < 4

/-! ## One reply -/

/-- Adding bit 7 sets it where it is clear. -/
theorem add_bit7_iff (fcode : UInt8) : fcode + 0x80 = fcode ||| 0x80 ↔ ¬0x80 ≤ fcode := by
  have hlt : fcode.toNat < 256 := fcode.toNat_lt
  have hbit : (0x80 : UInt8).toNat = 128 := rfl
  rw [← UInt8.toNat_inj, UInt8.toNat_add, UInt8.toNat_or, UInt8.le_iff_toNat_le, hbit, Nat.not_le]
  constructor
  · -- the sum wraps below the bit, and with the bit set it is not below
    intro heq
    have hge : 128 ≤ fcode.toNat ||| 128 := Nat.right_le_or
    omega
  · intro hclear
    have hor : 128 * 1 + fcode.toNat = 128 * 1 ||| fcode.toNat :=
      Nat.two_pow_add_eq_or_of_lt (i := 7) hclear 1
    rw [Nat.or_comm, Nat.mod_eq_of_lt (by omega), Nat.add_comm]
    exact hor

theorem identifies_of_answer {fcode : UInt8} {outcome : Outcome}
    (hexc : outcome.exception = false) (hhead : outcome.reply.head? = some fcode)
    (hbit : fcode &&& 0x80 = 0 := by decide) :
    Identifies fcode outcome := by
  constructor
  · intro hexc'
    rw [hexc] at hexc'
    cases hexc'
  · intro _ b hb
    obtain rfl : fcode = b := Option.some_inj.mp (hhead.symm.trans hb)
    exact hbit

/-- An exception reply under the code `named`. -/
theorem identifies_exception_iff {fcode named ecode : UInt8} {outcome : Outcome}
    (hexc : outcome.exception = true) (hecode : ecode ≠ 0)
    (hreply : outcome.reply = [named + 0x80, ecode]) :
    Identifies fcode outcome ↔ named + 0x80 = fcode ||| 0x80 := by
  constructor
  · rintro ⟨hrefused, -⟩
    obtain ⟨ecode', -, hreply'⟩ := hrefused hexc
    exact (List.cons.inj (hreply.symm.trans hreply')).1
  · intro hname
    refine ⟨fun _ => ⟨ecode, hecode, by rw [hreply, hname]⟩, ?_⟩
    intro hexc'
    rw [hexc] at hexc'
    cases hexc'

/-- A handler's refusal names the request unless the request was too short for
it, if its function code is another one than that of `write_n8`. -/
theorem RefusesAs.identified {fcode : UInt8} {size end_ : Nat} {outcome : Outcome}
    (h : RefusesAs fcode size end_ outcome) (hexc : outcome.exception = true)
    (hbit : fcode + 0x80 = fcode ||| 0x80 := by decide)
    (hother : fcodeWrBytes + 0x80 ≠ fcode ||| 0x80 := by decide) :
    Identifies fcode outcome ↔ ¬end_ < size := by
  obtain ⟨ecode, hecode, hreply⟩ := h
  rw [identifies_exception_iff hexc hecode hreply]
  by_cases hshort : end_ < size
  · rw [if_pos hshort]
    exact iff_of_false hother (not_not.mpr hshort)
  · rw [if_neg hshort]
    exact iff_of_true hbit hshort

theorem ExceptsAs.identified {fcode : UInt8} {size end_ : Nat} {c : Ctx} {outcome : Outcome}
    (h : ExceptsAs fcode size end_ c outcome) (hbit : fcode + 0x80 = fcode ||| 0x80 := by decide)
    (hother : fcodeWrBytes + 0x80 ≠ fcode ||| 0x80 := by decide) :
    Identifies fcode outcome ↔ ¬end_ < size :=
  h.refusesAs.identified h.refused.exception hbit hother

/-! ## The handlers -/

section

variable {w : IntWidth} {mem : RtuMemory} {payload : List UInt8} {end_ : Nat}

theorem readN16_identifies_iff (h : Header) (src : List UInt8) (c : Ctx) :
    Identifies fcodeRdHoldingRegisters (readN16 w h src end_ 1 c) ↔ ¬end_ < 5 := by
  by_cases hok : ReadN16Ok w h src end_
  · have hsize := hok.1
    rw [readN16_ok hok]
    exact iff_of_true (identifies_of_answer rfl rfl) (by omega)
  · exact (readN16_exceptsAs hok c).identified

theorem write16_identifies_iff (h : Header) (payload : List UInt8) (c : Ctx) :
    Identifies fcodeWrRegister (write16 w h (fcodeWrRegister :: payload) end_ 1 c) ↔
      ¬end_ < 5 := by
  by_cases hok : Write16Ok h (fcodeWrRegister :: payload) end_
  · have hsize := hok.1
    rw [write16_ok hok]
    exact iff_of_true (identifies_of_answer rfl rfl) (by omega)
  · exact (write16_exceptsAs hok c).identified

theorem writeN16_identifies_iff (h : Header) (payload : List UInt8) (c : Ctx) :
    Identifies fcodeWrRegisters (writeN16 h (fcodeWrRegisters :: payload) end_ 1 c) ↔
      ¬end_ < 5 := by
  by_cases hok : WriteN16Ok h (fcodeWrRegisters :: payload) end_
  · rcases registers_cases (fcodeWrRegisters :: payload)
      (rd16 (fcodeWrRegisters :: payload) 3).toNat with hall | ⟨j, hj, hgood, hbad⟩
    · have hsize := hok.1
      rw [writeN16_ok hok hall]
      exact iff_of_true (identifies_of_answer rfl rfl) (by omega)
    · refine (writeN16_bad_refusesAs hok hj hgood hbad c).identified ?_
      rw [writeN16_bad hok hj hgood hbad]
  · exact (writeN16_exceptsAs hok c).identified

theorem readN8_identifies_iff (h : Header) (payload : List UInt8) (c : Ctx) :
    Identifies fcodeRdBytes (readN8 w h (fcodeRdBytes :: payload) end_ 1 c) ↔ ¬end_ < 4 := by
  by_cases hok : ReadN8Ok w h (fcodeRdBytes :: payload) end_
  · have hsize := hok.1
    rw [readN8_ok hok]
    exact iff_of_true (identifies_of_answer rfl rfl) (by omega)
  · exact (readN8_exceptsAs hok c).identified

/-- The code that all short requests are answered with is right for `write_n8`. -/
theorem writeN8_identifies (h : Header) (payload : List UInt8) (c : Ctx) :
    Identifies fcodeWrBytes (writeN8 h (fcodeWrBytes :: payload) end_ 1 c) := by
  by_cases hok : WriteN8Ok h (fcodeWrBytes :: payload) end_
  · rw [writeN8_ok hok]
    exact identifies_of_answer rfl rfl
  · obtain ⟨ecode, hecode, hreply⟩ := (writeN8_exceptsAs hok c).refusesAs
    rw [ite_self] at hreply
    exact (identifies_exception_iff (writeN8_refused hok c).exception hecode hreply).mpr (by decide)

end

/-! ## The callback -/

/-- A short request for one of the handlers, by its function code. -/
theorem tooShort_iff {fcode : UInt8} {size limit : Nat}
    (h : (fcode = fcodeRdHoldingRegisters ∨ fcode = fcodeWrRegister ∨ fcode = fcodeWrRegisters) ∧
        limit = 5 ∨ fcode = fcodeRdBytes ∧ limit = 4) :
    TooShort fcode size ↔ size < limit := by
  rcases h with ⟨hf, rfl⟩ | ⟨rfl, rfl⟩
  · have hne : fcode ≠ fcodeRdBytes := by rcases hf with rfl | rfl | rfl <;> decide
    exact ⟨fun h => (h.resolve_right fun hr => hne hr.1).2, fun h => .inl ⟨hf, h⟩⟩
  · have hne : ¬(fcodeRdBytes = fcodeRdHoldingRegisters ∨ fcodeRdBytes = fcodeWrRegister ∨
        fcodeRdBytes = fcodeWrRegisters) := by decide
    exact ⟨fun h => (h.resolve_left fun hl => hne hl.1).2, fun h => .inr ⟨rfl, h⟩⟩

/-- The reply to a request names it exactly if the request is not too short for
the handler of its function code (`write_n8` apart) and its function code has
bit 7 clear. -/
theorem identifies_iff (w : IntWidth) (mem : RtuMemory) (fcode : UInt8)
    (payload tail : List UInt8) :
    Identifies fcode
        (rtuMemoryPduCb w mem fcode (fcode :: payload ++ tail) (1 + payload.length) 1) ↔
      ¬(TooShort fcode (1 + payload.length) ∨ 0x80 ≤ fcode) := by
  rcases fcode_cases fcode with rfl | rfl | rfl | rfl | rfl | hunsup
  · rw [pduCb_rdHoldingRegisters, readN16_identifies_iff,
      tooShort_iff (.inl ⟨.inl rfl, rfl⟩), or_iff_left (by decide)]
  · rw [pduCb_wrRegister, List.cons_append, write16_identifies_iff,
      tooShort_iff (.inl ⟨.inr (.inl rfl), rfl⟩), or_iff_left (by decide)]
  · rw [pduCb_wrRegisters, List.cons_append, writeN16_identifies_iff,
      tooShort_iff (.inl ⟨.inr (.inr rfl), rfl⟩), or_iff_left (by decide)]
  · rw [pduCb_rdBytes, List.cons_append, readN8_identifies_iff,
      tooShort_iff (.inr ⟨rfl, rfl⟩), or_iff_left (by decide)]
  · have hshort : ¬TooShort fcodeWrBytes (1 + payload.length) := by
      rintro (⟨hf, -⟩ | ⟨hf, -⟩) <;> revert hf <;> decide
    rw [pduCb_wrBytes, List.cons_append]
    exact iff_of_true (writeN8_identifies _ _ _) (not_or.mpr ⟨hshort, by decide⟩)
  · rw [pduCb_unsupported w mem _ _ _ hunsup]
    obtain ⟨h3, h6, h16, h65, -⟩ := hunsup
    have hshort : ¬TooShort fcode (1 + payload.length) := by
      rintro (⟨hf | hf | hf, -⟩ | ⟨hf, -⟩)
      · exact h3 hf
      · exact h6 hf
      · exact h16 hf
      · exact h65 hf
    rw [or_iff_right hshort, ← add_bit7_iff]
    exact identifies_exception_iff rfl (by decide) rfl

/-- A register read without address and count is answered as a byte write, and
a request with bit 7 set in its function code as a register read. -/
theorem misnamed_exceptions :
    let mem : RtuMemory := { header := ⟨0x1000, 0x1400⟩, bytes := fun _ => 0 }
    ¬Identifies 3 (rtuMemoryPduCb .int32 mem 3 [3] 1 1) ∧
      ¬Identifies 0x83 (rtuMemoryPduCb .int32 mem 0x83 [0x83] 1 1) := by
  intro mem
  constructor
  · rintro ⟨hrefused, -⟩
    obtain ⟨ecode, -, hreply⟩ := hrefused rfl
    exact absurd (List.cons.inj hreply).1 (by decide)
  · rintro ⟨hrefused, -⟩
    obtain ⟨ecode, -, hreply⟩ := hrefused rfl
    exact absurd (List.cons.inj hreply).1 (by decide)

end ModbusRtu
