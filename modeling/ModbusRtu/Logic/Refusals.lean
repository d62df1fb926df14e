import ModbusRtu.Logic.Handlers

/-!
# What a refused request is answered with

`Refused` says that a refusal is an exception reply of two bytes; here is which
one. Every handler names its own function code, except that all of them answer
a request that is too short with the function code of `write_n8`
(`RefusesAs`); the exception code is never zero. A request that fails nothing
but the address check is answered with `ECODE_ILLEGAL_DATA_ADDRESS`, one that
passes this check and has an illegal quantity with `ECODE_ILLEGAL_DATA_VALUE`.
-/

namespace ModbusRtu

variable {w : IntWidth} {h : Header} {src : List UInt8} {end_ : Nat}

/-- The exception reply of a handler for the function code `fcode`, whose
shortest request has `size` bytes. -/
def RefusesAs (fcode : UInt8) (size end_ : Nat) (outcome : Outcome) : Prop :=
  ∃ ecode, ecode ≠ 0 ∧
    outcome.reply = [(if end_ < size then fcodeWrBytes else fcode) + 0x80, ecode]

theorem ExceptsAs.refusesAs {fcode : UInt8} {size : Nat} {c : Ctx} {outcome : Outcome}
    (h : ExceptsAs fcode size end_ c outcome) : RefusesAs fcode size end_ outcome := by
  obtain ⟨c', ecode, hecode, -, -, rfl⟩ := h
  exact ⟨ecode, hecode, rfl⟩

/-- A register write that fails at a register has stored some, and refuses under its own code. -/
theorem writeN16_bad_refusesAs (hok : WriteN16Ok h src end_) {j : Nat}
    (hj : j < (rd16 src 3).toNat) (hgood : ∀ k < j, RegisterOk src k) (hbad : ¬RegisterOk src j)
    (c : Ctx) : RefusesAs fcodeWrRegisters 5 end_ (writeN16 h src end_ 1 c) := by
  have hsize : ¬end_ < 5 := by have := hok.1; omega
  rw [writeN16_bad hok hj hgood hbad]
  exact ⟨ecodeIllegalDataValue, by decide, by rw [if_neg hsize]⟩

/-! ## Refusals for the address -/

theorem readN16_illegalAddress (hsize : 5 ≤ end_) (hnum : 0 < rd16 src 3 ∧ rd16 src 3 < 0x7E)
    (hbad : ¬ReadN16Ok w h src end_) (c : Ctx) :
    (readN16 w h src end_ 1 c).reply =
      [fcodeRdHoldingRegisters + 0x80, ecodeIllegalDataAddress] := by
  simp only [readN16, Nat.reduceAdd]
  rw [if_neg (by omega)]
  split_ifs with haddr hend
  · exact absurd ⟨hsize, ⟨haddr.2, haddr.1⟩, hnum, hend⟩ hbad
  · rfl
  · rfl

theorem readN8_illegalAddress (hsize : 4 ≤ end_) (hnum : 0 < rd8 src 3 ∧ rd8 src 3 < 250)
    (hbad : ¬ReadN8Ok w h src end_) (c : Ctx) :
    (readN8 w h src end_ 1 c).reply = [fcodeRdBytes + 0x80, ecodeIllegalDataAddress] := by
  simp only [readN8, Nat.reduceAdd]
  rw [if_neg (by omega)]
  split_ifs with haddr hend
  · exact absurd ⟨hsize, ⟨haddr.2, haddr.1⟩, hnum, hend⟩ hbad
  · rfl
  · rfl

theorem write16_illegalAddress (hsize : 5 ≤ end_) (hbad : ¬rd16 src 1 < h.addrEnd) (c : Ctx) :
    (write16 w h src end_ 1 c).reply = [fcodeWrRegister + 0x80, ecodeIllegalDataAddress] := by
  simp only [write16, Nat.reduceAdd]
  rw [if_neg (by omega), if_pos hbad]
  rfl

theorem writeN8_illegalAddress (hsize : 4 ≤ end_) (hbad : ¬rd16 src 1 < h.addrEnd) (c : Ctx) :
    (writeN8 h src end_ 1 c).reply = [fcodeWrBytes + 0x80, ecodeIllegalDataAddress] := by
  simp only [writeN8, Nat.reduceAdd]
  rw [if_neg (by omega), if_pos hbad]
  rfl

theorem writeN16_illegalAddress (hsize : 5 ≤ end_) (hbad : ¬rd16 src 1 < h.addrEnd) (c : Ctx) :
    (writeN16 h src end_ 1 c).reply = [fcodeWrRegisters + 0x80, ecodeIllegalDataAddress] := by
  simp only [writeN16, Nat.reduceAdd]
  rw [if_neg (by omega), if_pos hbad]
  rfl

theorem readN16_behind (hsize : 5 ≤ end_) (hbad : ¬rd16 src 1 < h.addrEnd) (c : Ctx) :
    (readN16 w h src end_ 1 c).reply =
      [fcodeRdHoldingRegisters + 0x80, ecodeIllegalDataAddress] := by
  simp only [readN16, Nat.reduceAdd]
  rw [if_neg (by omega), if_pos fun haddr => hbad haddr.1]
  rfl

theorem readN8_behind (hsize : 4 ≤ end_) (hbad : ¬rd16 src 1 < h.addrEnd) (c : Ctx) :
    (readN8 w h src end_ 1 c).reply = [fcodeRdBytes + 0x80, ecodeIllegalDataAddress] := by
  simp only [readN8, Nat.reduceAdd]
  rw [if_neg (by omega), if_pos fun haddr => hbad haddr.1]
  rfl

/-! ## Refusals for the quantity -/

theorem readN16_illegalValue (hsize : 5 ≤ end_)
    (haddr : h.addrBegin ≤ rd16 src 1 ∧ rd16 src 1 < h.addrEnd)
    (hbad : ¬(0 < rd16 src 3 ∧ rd16 src 3 < 0x7E)) (c : Ctx) :
    (readN16 w h src end_ 1 c).reply =
      [fcodeRdHoldingRegisters + 0x80, ecodeIllegalDataValue] := by
  simp only [readN16, Nat.reduceAdd]
  rw [if_neg (by omega), if_neg (not_not.mpr ⟨haddr.2, haddr.1⟩), if_pos hbad]
  rfl

theorem readN8_illegalValue (hsize : 4 ≤ end_)
    (haddr : h.addrBegin ≤ rd16 src 1 ∧ rd16 src 1 < h.addrEnd)
    (hbad : ¬(0 < rd8 src 3 ∧ rd8 src 3 < 250)) (c : Ctx) :
    (readN8 w h src end_ 1 c).reply = [fcodeRdBytes + 0x80, ecodeIllegalDataValue] := by
  simp only [readN8, Nat.reduceAdd]
  rw [if_neg (by omega), if_neg (not_not.mpr ⟨haddr.2, haddr.1⟩), if_pos hbad]
  rfl

theorem writeN8_illegalValue (hsize : 4 ≤ end_) (haddr : rd16 src 1 < h.addrEnd)
    (hbad : ¬(0 < rd8 src 3 ∧ rd8 src 3 < 250)) (c : Ctx) :
    (writeN8 h src end_ 1 c).reply = [fcodeWrBytes + 0x80, ecodeIllegalDataValue] := by
  simp only [writeN8, Nat.reduceAdd]
  rw [if_neg (by omega), if_neg (not_not.mpr haddr), if_pos hbad]
  rfl

theorem writeN16_illegalValue (hsize : 5 ≤ end_) (haddr : rd16 src 1 < h.addrEnd)
    (hbad : ¬(0 < rd16 src 3 ∧ rd16 src 3 < 0x7C)) (c : Ctx) :
    (writeN16 h src end_ 1 c).reply = [fcodeWrRegisters + 0x80, ecodeIllegalDataValue] := by
  simp only [writeN16, Nat.reduceAdd]
  rw [if_neg (by omega), if_neg (not_not.mpr haddr), if_pos hbad]
  rfl

end ModbusRtu
