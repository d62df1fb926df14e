import Mathlib.Data.UInt

/-!
# Counting bits

The number of bits set in a byte string, and the number of bits in which two
byte strings differ. Modulo two the counts are additive under `^^^`
(`cpop_xor_mod_two`), so the bits in which two strings of one length differ are
as many, modulo two, as the bits set in both together (`bitDiff_mod_two`).
-/

namespace ModbusRtu.Base

/-- The first `n` bits of a word, counted modulo two. -/
theorem cpopNatRec_xor_mod_two {w : Nat} (x y : BitVec w) (n : Nat) :
    (x ^^^ y).cpopNatRec n 0 % 2 = (x.cpopNatRec n 0 + y.cpopNatRec n 0) % 2 := by
  induction n with
  | zero => rfl
  | succ n ih =>
      -- the last of the bits, in front of the others
      have hx := BitVec.cpopNatRec_eq (x := x) (n := n) (x.getLsbD n).toNat
      have hy := BitVec.cpopNatRec_eq (x := y) (n := n) (y.getLsbD n).toNat
      have hxy := BitVec.cpopNatRec_eq (x := x ^^^ y) (n := n) ((x ^^^ y).getLsbD n).toNat
      simp only [BitVec.cpopNatRec_succ, Nat.zero_add]
      rw [hx, hy, hxy, BitVec.getLsbD_xor]
      cases x.getLsbD n <;> cases y.getLsbD n <;> simp <;> omega

theorem cpop_xor_mod_two {w : Nat} (x y : BitVec w) :
    (x ^^^ y).cpop.toNat % 2 = (x.cpop.toNat + y.cpop.toNat) % 2 := by
  simp only [BitVec.toNat_cpop]
  exact cpopNatRec_xor_mod_two x y w

/-- The bits set in a byte. -/
def bitCount (b : UInt8) : Nat := b.toBitVec.cpop.toNat

theorem bitCount_xor_mod_two (a b : UInt8) :
    bitCount (a ^^^ b) % 2 = (bitCount a + bitCount b) % 2 := by
  rw [bitCount, UInt8.toBitVec_xor]
  exact cpop_xor_mod_two _ _

/-- The bits set in a byte string. -/
def bitSum (bytes : List UInt8) : Nat := (bytes.map bitCount).sum

/-- The bits in which two byte strings of one length differ. -/
def bitDiff (x y : List UInt8) : Nat := (List.zipWith (fun a b => bitCount (a ^^^ b)) x y).sum

theorem bitDiff_mod_two {x y : List UInt8} (hlen : y.length = x.length) :
    bitDiff x y % 2 = (bitSum x + bitSum y) % 2 := by
  induction x generalizing y with
  | nil =>
      rw [List.length_eq_zero_iff.mp hlen]
      rfl
  | cons a x ih =>
      cases y with
      | nil => cases hlen
      | cons b y =>
          have htail := ih (Nat.succ_inj.mp hlen)
          have hhead := bitCount_xor_mod_two a b
          simp only [bitDiff, bitSum, List.zipWith_cons_cons, List.map_cons, List.sum_cons]
            at htail ⊢
          omega

end ModbusRtu.Base
