import Mathlib.Data.LawfulXor.Basic
import Mathlib.Logic.Function.Iterate

/-!
# Shift registers with feedback

A register that takes a message a word at a time: the word is xored in, and the
register is shifted `width` times. Shifting is linear and loses nothing, so what
two messages leave in the register differs by what their difference leaves in an
empty one (`fold_xor`). A difference in one word never leaves it empty
(`fold_single`), a difference in two words only when the first one, shifted as
long as the words are apart, is the second (`fold_pair`), and a difference in
three words in a row when the third is what the others have left (`fold_triple`).
-/

namespace ModbusRtu.Base

/-- A shift of the words, linear and one to one, and how often a word is shifted. -/
structure ShiftRegister (W : Type) [XorOp W] where
  shift : W → W
  width : Nat
  shift_xor : ∀ a b, shift (a ^^^ b) = shift a ^^^ shift b
  shift_injective : Function.Injective shift

namespace ShiftRegister

variable {W : Type} [XorOp W] (R : ShiftRegister W)

/-- The register after one word. -/
def step (r word : W) : W := R.shift^[R.width] (r ^^^ word)

/-- The register after a message. -/
def fold (r : W) (message : List W) : W := message.foldl R.step r

theorem fold_append (r : W) (l₁ l₂ : List W) :
    R.fold r (l₁ ++ l₂) = R.fold (R.fold r l₁) l₂ :=
  List.foldl_append

theorem fold_cons (r word : W) (message : List W) :
    R.fold r (word :: message) = R.fold (R.step r word) message :=
  rfl

theorem iterate_xor (n : Nat) (a b : W) :
    R.shift^[n] (a ^^^ b) = R.shift^[n] a ^^^ R.shift^[n] b := by
  induction n with
  | zero => rfl
  | succ n ih =>
      rw [Function.iterate_succ_apply', Function.iterate_succ_apply',
        Function.iterate_succ_apply', ih, R.shift_xor]

variable [Zero W] [LawfulXor W]

theorem shift_zero : R.shift 0 = 0 := by
  have h := R.shift_xor 0 0
  rwa [LawfulXor.xor_self, LawfulXor.xor_self] at h

theorem iterate_eq_zero {n : Nat} {a : W} : R.shift^[n] a = 0 ↔ a = 0 := by
  have hzero : R.shift^[n] 0 = 0 := Function.iterate_fixed R.shift_zero n
  constructor
  · intro h
    exact R.shift_injective.iterate n (h.trans hzero.symm)
  · intro h
    rw [h, hzero]

theorem xor_xor_xor_comm (a b c d : W) : a ^^^ b ^^^ (c ^^^ d) = a ^^^ c ^^^ (b ^^^ d) := by
  rw [xor_assoc, xor_assoc, ← xor_assoc b, xor_comm b, xor_assoc c]

/-- What two messages leave differs by what their difference leaves. -/
theorem fold_xor {x y : List W} (hlen : y.length = x.length) (a b : W) :
    R.fold (a ^^^ b) (List.zipWith (· ^^^ ·) x y) = R.fold a x ^^^ R.fold b y := by
  induction x generalizing y a b with
  | nil =>
      rw [List.length_eq_zero_iff.mp hlen]
      rfl
  | cons c x ih =>
      cases y with
      | nil => cases hlen
      | cons d y =>
          have hstep : R.step (a ^^^ b) (c ^^^ d) = R.step a c ^^^ R.step b d := by
            show R.shift^[R.width] _ = _
            rw [step, step, ← iterate_xor, xor_xor_xor_comm]
          show R.fold (R.step (a ^^^ b) (c ^^^ d)) (List.zipWith (· ^^^ ·) x y) = _
          rw [hstep, ih (Nat.succ.inj hlen)]
          rfl

/-- Zeros only shift the register. -/
theorem fold_zeros (r : W) (n : Nat) :
    R.fold r (List.replicate n 0) = R.shift^[R.width * n] r := by
  induction n generalizing r with
  | zero => rfl
  | succ n ih =>
      rw [List.replicate_succ, fold_cons, ih, step, xor_zero, ← Function.iterate_add_apply,
        Nat.mul_succ]

/-- A word among zeros is shifted from its place to the end. -/
theorem fold_single (i n : Nat) (a : W) :
    R.fold 0 (List.replicate i 0 ++ a :: List.replicate n 0) = R.shift^[R.width * (n + 1)] a := by
  have hempty : R.fold 0 (List.replicate i 0) = 0 := by
    rw [fold_zeros, R.iterate_eq_zero]
  rw [fold_append, hempty, fold_cons, fold_zeros, step, zero_xor,
    ← Function.iterate_add_apply, Nat.mul_succ]

/-- Two words among zeros cancel if and only if the first one arrives at the
second as the second one. -/
theorem fold_pair (i n r : Nat) (a b : W) :
    R.fold 0 (List.replicate i 0 ++ a :: (List.replicate n 0 ++ b :: List.replicate r 0)) = 0 ↔
      R.shift^[R.width * (n + 1)] a = b := by
  have hsplit : List.replicate i 0 ++ a :: (List.replicate n 0 ++ b :: List.replicate r 0) =
      (List.replicate i 0 ++ a :: List.replicate n 0) ++ b :: List.replicate r 0 := by
    simp
  rw [hsplit, fold_append, fold_single, fold_cons, fold_zeros, R.iterate_eq_zero, step,
    R.iterate_eq_zero]
  exact xor_eq_zero_iff

/-- So do three words in a row, if and only if the first two leave the third. -/
theorem fold_triple (i n : Nat) (a b c : W) :
    R.fold 0 (List.replicate i 0 ++ a :: b :: c :: List.replicate n 0) = 0 ↔
      R.shift^[R.width] (R.shift^[R.width] a ^^^ b) = c := by
  have hempty : R.fold 0 (List.replicate i 0) = 0 := by
    rw [fold_zeros, R.iterate_eq_zero]
  rw [fold_append, hempty, fold_cons, fold_cons, fold_cons, fold_zeros, R.iterate_eq_zero, step,
    R.iterate_eq_zero, step, step, zero_xor]
  exact xor_eq_zero_iff

end ShiftRegister

end ModbusRtu.Base
