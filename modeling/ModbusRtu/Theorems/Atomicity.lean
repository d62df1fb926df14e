import ModbusRtu.Logic.Handlers

/-!
# Error atomicity of the memory handler

Every handler makes all of its checks before its first store, but for one: the
multiple register write looks at the high byte of each register in the loop
that stores them, so an exception behind the first register leaves the
registers before it stored (`Torn`). `atomic_iff_not_torn` says that no other
call with an exception reply changes the window.
-/

namespace ModbusRtu

open Base

/-- A multiple register write whose register `j` is the first with a non-zero
high byte, and whose registers before that one do not all hold their value already. -/
def Torn (mem : RtuMemory) (fcode : UInt8) (src : List UInt8) (end_ : Nat) : Prop :=
  fcode = fcodeWrRegisters ∧ WriteN16Ok mem.header src end_ ∧
    ∃ j < (rd16 src 3).toNat, (∀ k < j, RegisterOk src k) ∧ ¬RegisterOk src j ∧
      ∃ k < j, mem.header.InWindow (cellAt mem.header (rd16 src 1) k) ∧
        lowByte (rd16 src (6 + 2 * k)) ≠ mem.bytes (cellAt mem.header (rd16 src 1) k)

/-- The call did not answer with an exception, or it left the window as it was. -/
def Atomic (mem : RtuMemory) (outcome : Outcome) : Prop :=
  outcome.exception = true → ∀ i, mem.header.InWindow i → outcome.ctx.bytes i = mem.bytes i

theorem atomic_of_bytes {mem : RtuMemory} {outcome : Outcome}
    (hbytes : outcome.ctx.bytes = mem.bytes) : Atomic mem outcome :=
  fun _ i _ => congrFun hbytes i

theorem atomic_of_no_exception {mem : RtuMemory} {outcome : Outcome}
    (hexc : outcome.exception = false) : Atomic mem outcome := by
  intro htrue
  cases hexc.symm.trans htrue

section

variable {w : IntWidth} {mem : RtuMemory} {src : List UInt8} {end_ : Nat}

theorem write16_atomic : Atomic mem (write16 w mem.header src end_ 1 (.start mem.bytes)) := by
  by_cases hok : Write16Ok mem.header src end_
  · rw [write16_ok hok]
    exact atomic_of_no_exception rfl
  · exact atomic_of_bytes (write16_refused hok _).bytes

theorem writeN8_atomic : Atomic mem (writeN8 mem.header src end_ 1 (.start mem.bytes)) := by
  by_cases hok : WriteN8Ok mem.header src end_
  · rw [writeN8_ok hok]
    exact atomic_of_no_exception rfl
  · exact atomic_of_bytes (writeN8_refused hok _).bytes

/-- There is only one first bad register. -/
theorem firstBad_unique {i j : Nat} (hi : ∀ k < i, RegisterOk src k) (hibad : ¬RegisterOk src i)
    (hj : ∀ k < j, RegisterOk src k) (hjbad : ¬RegisterOk src j) : i = j := by
  rcases Nat.lt_trichotomy i j with hlt | heq | hlt
  · exact absurd (hj i hlt) hibad
  · exact heq
  · exact absurd (hi j hlt) hjbad

/-- When register `j` stops the loop, the window is as before exactly if the
registers before it held their value already. -/
theorem writeN16_bad_atomic_iff (hok : WriteN16Ok mem.header src end_) {j : Nat}
    (hj : j < (rd16 src 3).toNat) (hgood : ∀ k < j, RegisterOk src k) (hbad : ¬RegisterOk src j) :
    Atomic mem (writeN16 mem.header src end_ 1 (.start mem.bytes)) ↔
      ∀ k < j, mem.header.InWindow (cellAt mem.header (rd16 src 1) k) →
        lowByte (rd16 src (6 + 2 * k)) = mem.bytes (cellAt mem.header (rd16 src 1) k) := by
  have hnum : (rd16 src 3).toNat < 65536 := (rd16 src 3).toNat_lt
  have hinj : ∀ k < j, ∀ i < j,
      cellAt mem.header (rd16 src 1) k = cellAt mem.header (rd16 src 1) i → k = i :=
    cellAt_inj (by omega)
  rw [Atomic, writeN16_bad hok hj hgood hbad]
  exact (forall_prop_of_true rfl).trans (scatter_eq_self_iff hinj mem.header.InWindow)

theorem writeN16_atomic_iff :
    Atomic mem (writeN16 mem.header src end_ 1 (.start mem.bytes)) ↔
      ¬Torn mem fcodeWrRegisters src end_ := by
  by_cases hok : WriteN16Ok mem.header src end_
  · -- without a bad register there is no exception; with one, the stores before it stay
    rcases registers_cases src (rd16 src 3).toNat with hall | ⟨j, hj, hgood, hbad⟩
    · rw [writeN16_ok hok hall]
      refine iff_of_true (atomic_of_no_exception rfl) ?_
      rintro ⟨-, -, j, hj, -, hbad, -⟩
      exact hbad (hall j hj)
    · rw [writeN16_bad_atomic_iff hok hj hgood hbad]
      constructor
      · rintro hsame ⟨-, -, i, -, hgood', hbad', k, hk, hin, hne⟩
        obtain rfl := firstBad_unique hgood hbad hgood' hbad'
        exact hne (hsame k hk hin)
      · intro htorn k hk hin
        by_contra hne
        exact htorn ⟨rfl, hok, j, hj, hgood, hbad, k, hk, hin, hne⟩
  · refine iff_of_true (atomic_of_bytes (writeN16_refused hok _).bytes) ?_
    exact fun htorn => hok htorn.2.1

end

/-- A call that answers with an exception leaves the window as it was, unless
it is a torn register write. -/
theorem atomic_iff_not_torn (w : IntWidth) (mem : RtuMemory) (fcode : UInt8) (src : List UInt8)
    (end_ : Nat) :
    ((rtuMemoryPduCb w mem fcode src end_ 1).exception = true →
        ∀ i, mem.header.InWindow i →
          (rtuMemoryPduCb w mem fcode src end_ 1).ctx.bytes i = mem.bytes i) ↔
      ¬Torn mem fcode src end_ := by
  have hother : fcode ≠ fcodeWrRegisters → ¬Torn mem fcode src end_ := fun hne htorn =>
    hne htorn.1
  rcases fcode_cases fcode with rfl | rfl | rfl | rfl | rfl | hunsup
  · exact iff_of_true (atomic_of_bytes (readN16_bytes _)) (hother (by decide))
  · exact iff_of_true write16_atomic (hother (by decide))
  · exact writeN16_atomic_iff
  · exact iff_of_true (atomic_of_bytes (readN8_bytes _)) (hother (by decide))
  · exact iff_of_true writeN8_atomic (hother (by decide))
  · rw [pduCb_unsupported w mem src end_ 1 hunsup]
    exact iff_of_true (atomic_of_bytes rfl) (hother hunsup.2.2.1)

/-- Two registers, the second with a high byte: the first one is stored and the
reply is an exception. -/
theorem exception_after_store :
    let mem : RtuMemory := { header := ⟨0x1000, 0x1400⟩, bytes := fun _ => 0 }
    let outcome :=
      rtuMemoryPduCb .int32 mem fcodeWrRegisters [16, 0x10, 5, 0, 2, 4, 0, 7, 1, 8] 10 1
    outcome.exception = true ∧ outcome.reply = [0x90, ecodeIllegalDataValue] ∧
      ¬∀ i, mem.header.InWindow i → outcome.ctx.bytes i = mem.bytes i := by
  intro mem outcome
  refine ⟨by decide, by decide, ?_⟩
  intro hsame
  exact absurd (hsame 5 (by decide)) (by decide)

end ModbusRtu
