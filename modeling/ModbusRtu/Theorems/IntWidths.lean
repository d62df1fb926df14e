import ModbusRtu.Theorems.Confinement

/-!
# The range check of the reads and the width of `int`

The reads compare `addr + num` with the end of the window. Where `int` has 32
bits the sum is exact; where it has 16 bits it is taken modulo 2^16. The start of
the range is below the end of the window and the quantities are small, so a sum
that wraps is below the end of the window too, and the range is accepted:
`int_widths_agree_iff` says that this is the only difference.
-/

namespace ModbusRtu

/-- The same decision and the same cells on both kinds of targets, all in the window. -/
structure WidthsAgree (h : Header) (out16 out32 : Outcome) : Prop where
  decision : out16.exception = out32.exception
  touched : out16.ctx.touched = out32.ctx.touched
  confined16 : h.Confined out16.ctx.touched
  confined32 : h.Confined out32.ctx.touched

/-- A start address in the window from which the range runs past 2^16. -/
def Header.Wraps (h : Header) (addr : UInt16) (num : Nat) : Prop :=
  (h.addrBegin ≤ addr ∧ addr < h.addrEnd) ∧ 65536 ≤ addr.toNat + num

instance (h : Header) (addr : UInt16) (num : Nat) : Decidable (h.Wraps addr num) :=
  inferInstanceAs (Decidable (_ ∧ _))

/-- A register read with a legal quantity whose range runs past 2^16. -/
def WrapsRegisters (h : Header) (src : List UInt8) (end_ : Nat) : Prop :=
  5 ≤ end_ ∧ (0 < rd16 src 3 ∧ rd16 src 3 < 0x7E) ∧ h.Wraps (rd16 src 1) (rd16 src 3).toNat

/-- A byte read with a legal quantity whose range runs past 2^16. -/
def WrapsBytes (h : Header) (src : List UInt8) (end_ : Nat) : Prop :=
  4 ≤ end_ ∧ (0 < rd8 src 3 ∧ rd8 src 3 < 250) ∧ h.Wraps (rd16 src 1) (rd8 src 3).toNat

instance (h : Header) (src : List UInt8) (end_ : Nat) : Decidable (WrapsRegisters h src end_) :=
  inferInstanceAs (Decidable (_ ∧ _))

instance (h : Header) (src : List UInt8) (end_ : Nat) : Decidable (WrapsBytes h src end_) :=
  inferInstanceAs (Decidable (_ ∧ _))

/-! ## The two sums -/

section

variable {h : Header} {addr num : UInt16}

theorem IntWidth.add_int16 :
    IntWidth.int16.add addr num = (addr.toNat + num.toNat) % 65536 := UInt16.toNat_add addr num

/-- A sum that does not wrap is the same on both kinds of targets. -/
theorem IntWidth.add_eq (hlt : addr.toNat + num.toNat < 65536) :
    IntWidth.int16.add addr num = IntWidth.int32.add addr num := by
  rw [IntWidth.add_int16, Nat.mod_eq_of_lt hlt]
  rfl

/-- A sum that wraps comes out below the start address. -/
theorem IntWidth.add_le_of_wraps (hwraps : h.Wraps addr num.toNat) :
    IntWidth.int16.add addr num ≤ h.addrEnd.toNat ∧
      ¬IntWidth.int32.add addr num ≤ h.addrEnd.toNat := by
  obtain ⟨⟨-, haddr⟩, hpast⟩ := hwraps
  have ha : addr.toNat < 65536 := addr.toNat_lt
  have hn : num.toNat < 65536 := num.toNat_lt
  have he : h.addrEnd.toNat < 65536 := h.addrEnd.toNat_lt
  rw [UInt16.lt_iff_toNat_lt] at haddr
  rw [IntWidth.add_int16]
  show _ ∧ ¬addr.toNat + num.toNat ≤ _
  omega

end

/-! ## The reads -/

section

variable {h : Header} {src : List UInt8} {end_ : Nat} {bytes : Int → UInt8}
  {out16 out32 : Outcome}

/-- Two calls that make the same checks, answer alike if these pass and else refuse. -/
theorem WidthsAgree.of_iff {ok16 ok32 : Prop} (hiff : ok16 ↔ ok32)
    (hanswer : ok16 → ok32 → out16 = out32) (h16 : ¬ok16 → Refused (.start bytes) out16)
    (h32 : ¬ok32 → Refused (.start bytes) out32) (hconfined : h.Confined out32.ctx.touched) :
    WidthsAgree h out16 out32 := by
  by_cases hok : ok32
  · rw [hanswer (hiff.mpr hok) hok]
    exact ⟨rfl, rfl, hconfined, hconfined⟩
  · have hrefused16 := h16 (mt hiff.mp hok)
    have hrefused32 := h32 hok
    exact ⟨hrefused16.exception.trans hrefused32.exception.symm,
      hrefused16.touched.trans hrefused32.touched.symm, hrefused16.confined, hrefused32.confined⟩

/-- On a range that does not run past 2^16 both targets make the same checks. -/
theorem readN16Ok_widths (hwraps : ¬WrapsRegisters h src end_) :
    ReadN16Ok .int16 h src end_ ↔ ReadN16Ok .int32 h src end_ := by
  refine and_congr_right fun hsize => and_congr_right fun haddr => and_congr_right fun hnum => ?_
  have hlt : (rd16 src 1).toNat + (rd16 src 3).toNat < 65536 := by
    by_contra hpast
    exact hwraps ⟨hsize, hnum, haddr, Nat.le_of_not_lt hpast⟩
  rw [IntWidth.add_eq hlt]

theorem readN8Ok_widths (hwraps : ¬WrapsBytes h src end_) :
    ReadN8Ok .int16 h src end_ ↔ ReadN8Ok .int32 h src end_ := by
  refine and_congr_right fun hsize => and_congr_right fun haddr => and_congr_right fun hnum => ?_
  have hlt : (rd16 src 1).toNat + (rd8 src 3).toUInt16.toNat < 65536 := by
    rw [UInt8.toNat_toUInt16]
    by_contra hpast
    exact hwraps ⟨hsize, hnum, haddr, Nat.le_of_not_lt hpast⟩
  rw [IntWidth.add_eq hlt]

theorem readN16_widths_iff :
    WidthsAgree h (readN16 .int16 h src end_ 1 (.start bytes))
        (readN16 .int32 h src end_ 1 (.start bytes)) ↔
      ¬WrapsRegisters h src end_ := by
  constructor
  · rintro hagree ⟨hsize, hnum, hwraps⟩
    obtain ⟨h16, h32⟩ := IntWidth.add_le_of_wraps hwraps
    have hdecision := hagree.decision
    rw [readN16_ok ⟨hsize, hwraps.1, hnum, h16⟩,
      (readN16_refused (fun hok => h32 hok.2.2.2) _).exception] at hdecision
    cases hdecision
  · intro hwraps
    refine .of_iff (readN16Ok_widths hwraps) (fun h16 h32 => ?_)
      (fun hbad => readN16_refused hbad _) (fun hbad => readN16_refused hbad _) ?_
    · rw [readN16_ok h16, readN16_ok h32]
    · exact readN16_confined_iff.mpr fun hbad => readN16_not_outside hbad.1 hbad.2

theorem readN8_widths_iff :
    WidthsAgree h (readN8 .int16 h src end_ 1 (.start bytes))
        (readN8 .int32 h src end_ 1 (.start bytes)) ↔
      ¬WrapsBytes h src end_ := by
  constructor
  · rintro hagree ⟨hsize, hnum, hwraps⟩
    rw [← UInt8.toNat_toUInt16] at hwraps
    obtain ⟨h16, h32⟩ := IntWidth.add_le_of_wraps hwraps
    have hdecision := hagree.decision
    rw [readN8_ok ⟨hsize, hwraps.1, hnum, h16⟩,
      (readN8_refused (fun hok => h32 hok.2.2.2) _).exception] at hdecision
    cases hdecision
  · intro hwraps
    refine .of_iff (readN8Ok_widths hwraps) (fun h16 h32 => ?_)
      (fun hbad => readN8_refused hbad _) (fun hbad => readN8_refused hbad _) ?_
    · rw [readN8_ok h16, readN8_ok h32]
    · exact readN8_confined_iff.mpr fun hbad => readN8_not_outside hbad.1 hbad.2

end

/-- For every window and every read request: targets with a 16-bit and with a
32-bit `int` decide alike and touch the same cells, all in the window, exactly
unless the request has a legal quantity and a start address in the window, and
its range runs past 2^16. -/
theorem int_widths_agree_iff (h : Header) (src : List UInt8) (end_ : Nat) (bytes : Int → UInt8) :
    (WidthsAgree h (readN16 .int16 h src end_ 1 (.start bytes))
        (readN16 .int32 h src end_ 1 (.start bytes)) ↔ ¬WrapsRegisters h src end_) ∧
      (WidthsAgree h (readN8 .int16 h src end_ 1 (.start bytes))
        (readN8 .int32 h src end_ 1 (.start bytes)) ↔ ¬WrapsBytes h src end_) :=
  ⟨readN16_widths_iff, readN8_widths_iff⟩

/-- A window at the top of the address space: three registers, or bytes, from its
last but one address on are read where `int` has 16 bits, and refused elsewhere. -/
theorem top_of_memory_differs :
    let h : Header := ⟨0xFF00, 0xFFFF⟩
    let bytes : Int → UInt8 := fun _ => 0
    ¬WidthsAgree h (readN16 .int16 h [0x03, 0xFF, 0xFE, 0, 3] 5 1 (.start bytes))
        (readN16 .int32 h [0x03, 0xFF, 0xFE, 0, 3] 5 1 (.start bytes)) ∧
      ¬WidthsAgree h (readN8 .int16 h [0x41, 0xFF, 0xFE, 3] 4 1 (.start bytes))
        (readN8 .int32 h [0x41, 0xFF, 0xFE, 3] 4 1 (.start bytes)) := by
  intro h bytes
  constructor
  · intro hagree
    exact absurd hagree.decision (by decide)
  · intro hagree
    exact absurd hagree.decision (by decide)

end ModbusRtu
