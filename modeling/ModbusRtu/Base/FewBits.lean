import ModbusRtu.Base.BitCount

/-!
# Byte strings with few bits

Where the bits of a byte string are when there are none, one or two of them:
in no byte (`eq_zeros`), in one byte (`exists_single`), or in one or two of
them (`single_or_pair`).
-/

namespace ModbusRtu.Base

/-! ## Words -/

theorem cpopNatRec_eq_zero {w : Nat} {x : BitVec w} {n : Nat} (h : x.cpopNatRec n 0 = 0) :
    ∀ i < n, x.getLsbD i = false := by
  induction n with
  | zero => exact fun i hi => absurd hi (Nat.not_lt_zero i)
  | succ n ih =>
      rw [BitVec.cpopNatRec_succ, BitVec.cpopNatRec_eq] at h
      intro i hi
      rcases Nat.lt_succ_iff_lt_or_eq.mp hi with hlt | rfl
      · exact ih (by omega) i hlt
      · have hbit : (x.getLsbD i).toNat = 0 := by omega
        exact Bool.toNat_eq_zero.mp hbit

theorem cpopNatRec_eq_one {w : Nat} {x : BitVec w} {n : Nat} (h : x.cpopNatRec n 0 = 1) :
    ∃ k < n, ∀ i < n, x.getLsbD i = decide (i = k) := by
  induction n with
  | zero => cases h
  | succ n ih =>
      rw [BitVec.cpopNatRec_succ, BitVec.cpopNatRec_eq] at h
      cases hbit : x.getLsbD n with
      | false =>
          rw [hbit] at h
          obtain ⟨k, hk, hbits⟩ := ih (by simpa using h)
          refine ⟨k, Nat.lt_succ_of_lt hk, fun i hi => ?_⟩
          rcases Nat.lt_succ_iff_lt_or_eq.mp hi with hlt | rfl
          · exact hbits i hlt
          · rw [hbit]
            exact (decide_eq_false (by omega)).symm
      | true =>
          rw [hbit] at h
          have hnone := cpopNatRec_eq_zero (x := x) (n := n) (by simpa using h)
          refine ⟨n, Nat.lt_succ_self n, fun i hi => ?_⟩
          rcases Nat.lt_succ_iff_lt_or_eq.mp hi with hlt | rfl
          · rw [hnone i hlt]
            exact (decide_eq_false (by omega)).symm
          · rw [hbit]
            exact (decide_eq_true rfl).symm

/-! ## Bytes -/

variable {b : UInt8}

theorem bitCount_eq_zero (h : bitCount b = 0) : b = 0 := by
  rw [bitCount, BitVec.toNat_cpop] at h
  apply UInt8.toBitVec_inj.mp
  ext i hi
  rw [← BitVec.getLsbD_eq_getElem, cpopNatRec_eq_zero h i hi]
  simp

theorem bitCount_eq_one (h : bitCount b = 1) : ∃ k < 8, b.toBitVec = BitVec.twoPow 8 k := by
  rw [bitCount, BitVec.toNat_cpop] at h
  obtain ⟨k, hk, hbits⟩ := cpopNatRec_eq_one h
  refine ⟨k, hk, ?_⟩
  ext i hi
  rw [← BitVec.getLsbD_eq_getElem, hbits i hi]
  simp [BitVec.getElem_twoPow]

/-! ## Byte strings -/

variable {z : List UInt8}

theorem bitSum_cons (b : UInt8) (z : List UInt8) : bitSum (b :: z) = bitCount b + bitSum z := rfl

theorem eq_zeros (h : bitSum z = 0) : z = List.replicate z.length 0 := by
  induction z with
  | nil => rfl
  | cons b z ih =>
      rw [bitSum_cons] at h
      rw [bitCount_eq_zero (by omega : bitCount b = 0), List.length_cons, List.replicate_succ,
        ← ih (by omega)]

/-- All bits are in the byte `b`. -/
theorem exists_single (h : bitSum z = 1) :
    ∃ i b r, z = List.replicate i 0 ++ b :: List.replicate r 0 ∧ bitCount b = 1 := by
  induction z with
  | nil => cases h
  | cons b z ih =>
      rw [bitSum_cons] at h
      rcases (by omega : bitCount b = 0 ∧ bitSum z = 1 ∨ bitCount b = 1 ∧ bitSum z = 0) with
        ⟨hb, hz⟩ | ⟨hb, hz⟩
      · obtain ⟨i, b', r, rfl, hb'⟩ := ih hz
        refine ⟨i + 1, b', r, ?_, hb'⟩
        rw [bitCount_eq_zero hb, List.replicate_succ]
        rfl
      · refine ⟨0, b, z.length, ?_, hb⟩
        rw [← eq_zeros hz]
        rfl

theorem single_or_pair (h : bitSum z = 2) :
    (∃ i b r, z = List.replicate i 0 ++ b :: List.replicate r 0 ∧ bitCount b = 2) ∨
      ∃ i a n b r, z = List.replicate i 0 ++ a :: (List.replicate n 0 ++ b :: List.replicate r 0) ∧
        bitCount a = 1 ∧ bitCount b = 1 := by
  induction z with
  | nil => cases h
  | cons c z ih =>
      rw [bitSum_cons] at h
      rcases (by omega : bitCount c = 0 ∧ bitSum z = 2 ∨ bitCount c = 1 ∧ bitSum z = 1 ∨
        bitCount c = 2 ∧ bitSum z = 0) with ⟨hc, hz⟩ | ⟨hc, hz⟩ | ⟨hc, hz⟩
      · rw [bitCount_eq_zero hc]
        rcases ih hz with ⟨i, b, r, rfl, hb⟩ | ⟨i, a, n, b, r, rfl, hab⟩
        · exact .inl ⟨i + 1, b, r, rfl, hb⟩
        · exact .inr ⟨i + 1, a, n, b, r, rfl, hab⟩
      · obtain ⟨n, b, r, rfl, hb⟩ := exists_single hz
        exact .inr ⟨0, c, n, b, r, rfl, hc, hb⟩
      · refine .inl ⟨0, c, z.length, ?_, hc⟩
        rw [← eq_zeros hz]
        rfl

end ModbusRtu.Base
