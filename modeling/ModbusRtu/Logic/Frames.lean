import ModbusRtu.Logic.Words

/-!
# Frames and their CRC

`Accepted` is the test a received frame has to pass, and the frames that pass
are exactly the PDUs (with slave address) that carry their own CRC
(`accepted_iff_withCrc`).
-/

namespace ModbusRtu

/-- What `adu_check` accepts: at least four bytes, the last two of them the
CRC of the rest. -/
def Accepted (adu : List UInt8) : Prop := aduMinSize ≤ adu.length ∧ crcMatches adu = true

instance (adu : List UInt8) : Decidable (Accepted adu) :=
  inferInstanceAs (Decidable (_ ∧ _))

@[simp] theorem length_withCrc (bytes : List UInt8) :
    (withCrc bytes).length = bytes.length + 2 := by
  simp [withCrc]

theorem take_withCrc (bytes : List UInt8) : (withCrc bytes).take bytes.length = bytes := by
  simp [withCrc]

theorem crcMatches_withCrc (bytes : List UInt8) : crcMatches (withCrc bytes) = true := by
  have hlow : (withCrc bytes).getD bytes.length 0 = (modbusRtuCalcCrc bytes).low := by
    simp [withCrc]
  have hhigh : (withCrc bytes).getD (bytes.length + 1) 0 = (modbusRtuCalcCrc bytes).high := by
    simp [withCrc]
  simp only [crcMatches, length_withCrc, Nat.add_sub_cancel, take_withCrc, beq_iff_eq]
  rw [show bytes.length + 2 - 1 = bytes.length + 1 by omega, hlow, hhigh]

/-- A frame is its body and the two bytes behind it. -/
theorem eq_append_crc {adu : List UInt8} (h : 2 ≤ adu.length) :
    adu = adu.take (adu.length - 2) ++
      [adu.getD (adu.length - 2) 0, adu.getD (adu.length - 1) 0] := by
  have hdrop : adu.drop (adu.length - 2) =
      [adu.getD (adu.length - 2) 0, adu.getD (adu.length - 1) 0] := by
    apply List.ext_getElem
    · simp; omega
    · intro i h1 h2
      simp only [List.length_cons, List.length_nil] at h2
      have hi : i = 0 ∨ i = 1 := by omega
      rcases hi with rfl | rfl
      · simp [show adu.length - 2 < adu.length by omega]
      · simp [show adu.length - 1 < adu.length by omega,
          show adu.length - 2 + 1 = adu.length - 1 by omega]
  rw [← hdrop, List.take_append_drop]

/-- The CRC test passes exactly on frames that end with their CRC. -/
theorem crcMatches_iff {adu : List UInt8} (h : 2 ≤ adu.length) :
    crcMatches adu = true ↔ adu = withCrc (adu.take (adu.length - 2)) := by
  constructor
  · intro hm
    rw [crcMatches, beq_iff_eq, Crc.toWord_inj] at hm
    have happ := eq_append_crc h
    rw [withCrc, ← hm]
    exact happ
  · intro he
    rw [he]
    exact crcMatches_withCrc _

theorem accepted_withCrc {bytes : List UInt8} (h : 2 ≤ bytes.length) :
    Accepted (withCrc bytes) := by
  refine ⟨?_, crcMatches_withCrc bytes⟩
  rw [length_withCrc, aduMinSize]
  omega

/-- The frames `adu_check` accepts are the bodies of at least two bytes with
their CRC appended. -/
theorem accepted_iff_withCrc (adu : List UInt8) :
    Accepted adu ↔ ∃ bytes, 2 ≤ bytes.length ∧ adu = withCrc bytes := by
  constructor
  · rintro ⟨hlen, hm⟩
    rw [aduMinSize] at hlen
    refine ⟨adu.take (adu.length - 2), ?_, (crcMatches_iff (by omega)).mp hm⟩
    rw [List.length_take]
    omega
  · rintro ⟨bytes, hlen, rfl⟩
    exact accepted_withCrc hlen

end ModbusRtu
