import ModbusRtu.Logic.CrcTables
import ModbusRtu.Logic.FramePhases
import ModbusRtu.Logic.MasterFrames

/-!
# What the CRC detects

Both ends test a frame with the same checksum. Whatever the length of the frame
and wherever the damage is, an odd number of wrong bits is detected, because a
valid frame has an even number of bits set, and so is any damage within two
adjacent bytes, because the register tells all pairs of bytes apart.
-/

namespace ModbusRtu

open Base

variable {x y : List UInt8}

/-- The frames differ, but only inside two adjacent bytes. -/
def DifferInTwo (x y : List UInt8) : Prop :=
  x ≠ y ∧ ∃ i, i + 1 < x.length ∧ ∀ j, j ≠ i → j ≠ i + 1 → y[j]? = x[j]?

/-- The two bytes in the middle of what the frames have in common. -/
theorem DifferInTwo.split (h : DifferInTwo x y) (hlen : y.length = x.length) :
    ∃ before a b a' b' after,
      x = before ++ [a, b] ++ after ∧ y = before ++ [a', b'] ++ after := by
  obtain ⟨-, i, hi, hsame⟩ := h
  have hcut : ∀ z : List UInt8, (hz : i + 1 < z.length) →
      z = z.take i ++ [z[i], z[i + 1]] ++ z.drop (i + 2) := by
    intro z hz
    have hdrop : z.drop i = z[i] :: z[i + 1] :: z.drop (i + 2) := by
      rw [List.drop_eq_getElem_cons (by omega), List.drop_eq_getElem_cons hz]
    rw [List.append_assoc]
    exact (List.take_append_drop i z).symm.trans (congrArg (z.take i ++ ·) hdrop)
  have hbefore : y.take i = x.take i := by
    apply List.ext_getElem?
    intro j
    by_cases hj : j < i
    · rw [List.getElem?_take_of_lt hj, List.getElem?_take_of_lt hj]
      exact hsame j (by omega) (by omega)
    · rw [List.getElem?_take_eq_none (by omega), List.getElem?_take_eq_none (by omega)]
  have hafter : y.drop (i + 2) = x.drop (i + 2) := by
    apply List.ext_getElem?
    intro j
    rw [List.getElem?_drop, List.getElem?_drop]
    exact hsame _ (by omega) (by omega)
  have hy := hcut y (by omega)
  rw [hbefore, hafter] at hy
  exact ⟨_, _, _, _, _, _, hcut x hi, hy⟩

/-- Two frames with their CRC do not differ in two adjacent bytes only. -/
theorem not_differInTwo_withCrc {l l' : List UInt8}
    (hlen : (withCrc l').length = (withCrc l).length) : ¬DifferInTwo (withCrc l) (withCrc l') := by
  intro hdiff
  obtain ⟨before, a, b, a', b', after, hx, hy⟩ := hdiff.split hlen
  have hresidue := (fold_withCrc l).trans (fold_withCrc l').symm
  rw [hx, hy] at hresidue
  obtain ⟨rfl, rfl⟩ := CrcTables.fold_burst crcTables_high_injective hresidue
  exact hdiff.1 (hx.trans hy.symm)

/-- Two frames with their CRC differ in an even number of bits. -/
theorem not_odd_bitDiff_withCrc {l l' : List UInt8}
    (hlen : (withCrc l').length = (withCrc l).length) :
    ¬Odd (bitDiff (withCrc l) (withCrc l')) := by
  have heven := bitSum_withCrc l
  have heven' := bitSum_withCrc l'
  rw [Nat.odd_iff, bitDiff_mod_two hlen]
  omega

/-! ## The two tests -/

theorem aduCheck_iff {U : Type} {cfg : Config U} (s : State cfg) (adu : List UInt8) :
    (aduCheck s adu).1 = true ↔ Accepted adu := by
  by_cases hacc : Accepted adu
  · rw [aduCheck_of_accepted hacc]
    exact iff_of_true rfl hacc
  · obtain ⟨stats, hcheck⟩ := aduCheck_of_not_accepted hacc s
    rw [hcheck]
    exact iff_of_false Bool.false_ne_true hacc

/-- A frame that one of the two tests accepts carries its CRC. -/
theorem exists_withCrc {U : Type} {cfg : Config U} (s : State cfg) {adu : List UInt8}
    (h : (aduCheck s adu).1 = true ∨ validCrc adu ≠ none) : ∃ bytes, adu = withCrc bytes := by
  rcases h with hcheck | hvalid
  · obtain ⟨bytes, -, hadu⟩ := (accepted_iff_withCrc adu).mp ((aduCheck_iff s adu).mp hcheck)
    exact ⟨bytes, hadu⟩
  · rw [ne_eq, validCrc_eq_none_iff, not_not] at hvalid
    obtain ⟨bytes, -, hadu⟩ := hvalid
    exact ⟨bytes, hadu⟩

/-- Whichever end accepts the frame, both ends reject what an odd number of
wrong bits or damage within two adjacent bytes makes of it. -/
theorem corruption_detected {U : Type} {cfg : Config U} (s s' : State cfg)
    (hx : (aduCheck s x).1 = true ∨ validCrc x ≠ none) (hlen : y.length = x.length)
    (hcorrupt : Odd (bitDiff x y) ∨ DifferInTwo x y) :
    (aduCheck s' y).1 = false ∧ validCrc y = none := by
  have hnone : ¬((aduCheck s' y).1 = true ∨ validCrc y ≠ none) := by
    intro hy
    obtain ⟨l, rfl⟩ := exists_withCrc s hx
    obtain ⟨l', rfl⟩ := exists_withCrc s' hy
    rcases hcorrupt with hodd | htwo
    · exact not_odd_bitDiff_withCrc hlen hodd
    · exact not_differInTwo_withCrc hlen htwo
  rw [not_or, Bool.not_eq_true, not_not] at hnone
  exact hnone

/-- A wrong bit in the address, and damage to the last byte of the payload and
the first of the CRC. -/
theorem corruption_detected_short_frame :
    let s := modbusRtuInit listener ()
    let adu := withCrc [0x11, 3]
    ((aduCheck s (adu.set 0 0x10)).1 = false ∧ validCrc (adu.set 0 0x10) = none) ∧
      (aduCheck s ((adu.set 1 7).set 2 9)).1 = false ∧ validCrc ((adu.set 1 7).set 2 9) = none := by
  intro s adu
  have hadu : (aduCheck s adu).1 = true ∨ validCrc adu ≠ none :=
    .inl ((aduCheck_iff s adu).mpr (accepted_withCrc (by decide)))
  constructor
  · exact corruption_detected s s hadu rfl (.inl (by decide))
  · refine corruption_detected s s hadu rfl (.inr ⟨by decide, 1, by decide, ?_⟩)
    intro j hj hj'
    rw [List.getElem?_set_ne (Ne.symm hj'), List.getElem?_set_ne (Ne.symm hj)]

end ModbusRtu
