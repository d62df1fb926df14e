import Mathlib.Algebra.GroupWithZero.Nat
import Mathlib.Data.LawfulXor.Basic

/-!
# Checksums of two bytes by table

A checksum register of two bytes, updated a byte at a time: the low byte of the
register, xored with the data, is looked up in two tables, one entry is xored
into the high byte on its way down, the other takes its place.

What such a checksum detects depends on little about the tables:

* if the entries for the high byte are distinct, two messages that differ in
  two adjacent bytes, and nowhere else, have different checksums (`fold_burst`);
* if both entries for zero are zero, a message followed by its checksum leaves
  the register at zero (`fold_residue`);
* if the entries for a byte have as many bits as the byte, modulo two, then the
  register counts the bits of the message modulo two (`fold_weight`).
-/

namespace ModbusRtu.Base

/-- The two tables, for the byte that moves down and for the one that comes in. -/
structure CrcTables (B : Type) where
  low : B → B
  high : B → B

namespace CrcTables

variable {B : Type} [XorOp B] (T : CrcTables B)

/-- The register, low byte first, after one byte of data. -/
def step (crc : B × B) (data : B) : B × B :=
  (crc.2 ^^^ T.low (crc.1 ^^^ data), T.high (crc.1 ^^^ data))

/-- The register after a message. -/
def fold (crc : B × B) (bytes : List B) : B × B := bytes.foldl T.step crc

theorem fold_append (crc : B × B) (l₁ l₂ : List B) :
    T.fold crc (l₁ ++ l₂) = T.fold (T.fold crc l₁) l₂ :=
  List.foldl_append

variable [Zero B] [LawfulXor B]

theorem xor_left_injective (c : B) : Function.Injective (c ^^^ ·) :=
  (xor_right_involutive c).injective

theorem xor_right_injective (c : B) : Function.Injective (· ^^^ c) :=
  (xor_left_involutive c).injective

/-! ## Bursts -/

section

variable {T} (hhigh : Function.Injective T.high)
include hhigh

/-- The byte that comes in gives away the index into the tables. -/
theorem step_inj {c c' : B × B} {d d' : B} (h : T.step c d = T.step c' d') :
    c.1 ^^^ d = c'.1 ^^^ d' ∧ c.2 = c'.2 := by
  obtain ⟨hlow, hin⟩ := Prod.mk.inj h
  have hindex : c.1 ^^^ d = c'.1 ^^^ d' := hhigh hin
  rw [hindex] at hlow
  exact ⟨hindex, xor_right_injective _ hlow⟩

/-- No message brings two registers together. -/
theorem fold_injective (bytes : List B) : Function.Injective (T.fold · bytes) := by
  induction bytes with
  | nil => exact fun c c' h => h
  | cons d bytes ih =>
      intro c c' h
      obtain ⟨hlow, hhigh'⟩ := step_inj hhigh (ih h)
      exact Prod.ext (xor_right_injective d hlow) hhigh'

/-- Two bytes fill the register. -/
theorem fold_two {c : B × B} {a b a' b' : B} (h : T.fold c [a, b] = T.fold c [a', b']) :
    a = a' ∧ b = b' := by
  have hlast : T.step (T.step c a) b = T.step (T.step c a') b' := h
  obtain ⟨hindex, hmoved⟩ := step_inj hhigh hlast
  have ha : a = a' := xor_left_injective c.1 (hhigh hmoved)
  rw [ha] at hindex
  exact ⟨ha, xor_left_injective _ hindex⟩

/-- A message is told from any other that differs in two adjacent bytes only. -/
theorem fold_burst {c : B × B} {before after : List B} {a b a' b' : B}
    (h : T.fold c (before ++ [a, b] ++ after) = T.fold c (before ++ [a', b'] ++ after)) :
    a = a' ∧ b = b' := by
  rw [fold_append, fold_append, fold_append, fold_append] at h
  exact fold_two hhigh (fold_injective hhigh after h)

end

/-! ## Residue -/

/-- A message and its checksum leave nothing. -/
theorem fold_residue (hlow : T.low 0 = 0) (hhigh : T.high 0 = 0) (c : B × B) (bytes : List B) :
    T.fold c (bytes ++ [(T.fold c bytes).1, (T.fold c bytes).2]) = (0, 0) := by
  rw [fold_append]
  generalize T.fold c bytes = crc
  show T.step (T.step crc crc.1) crc.2 = (0, 0)
  have hfirst : T.step crc crc.1 = (crc.2, 0) := by
    rw [step, LawfulXor.xor_self, hlow, hhigh, xor_zero]
  rw [hfirst, step, LawfulXor.xor_self, hlow, hhigh, xor_zero]

/-! ## Weight -/

omit [Zero B] [LawfulXor B] in
/-- The register and the message, weighed modulo two. -/
theorem fold_weight {weight : B → Nat}
    (hxor : ∀ a b, weight (a ^^^ b) % 2 = (weight a + weight b) % 2)
    (htables : ∀ i, (weight (T.low i) + weight (T.high i)) % 2 = weight i % 2) (c : B × B)
    (bytes : List B) :
    (weight (T.fold c bytes).1 + weight (T.fold c bytes).2) % 2 =
      (weight c.1 + weight c.2 + (bytes.map weight).sum) % 2 := by
  induction bytes generalizing c with
  | nil => rfl
  | cons d bytes ih =>
      have hstep : (weight (T.step c d).1 + weight (T.step c d).2) % 2 =
          (weight c.1 + weight c.2 + weight d) % 2 := by
        have hindex := hxor c.1 d
        have hlow := hxor c.2 (T.low (c.1 ^^^ d))
        have hentry := htables (c.1 ^^^ d)
        show (weight (c.2 ^^^ T.low (c.1 ^^^ d)) + weight (T.high (c.1 ^^^ d))) % 2 = _
        omega
      have htail := ih (T.step c d)
      rw [List.map_cons, List.sum_cons]
      show (weight (T.fold (T.step c d) bytes).1 + weight (T.fold (T.step c d) bytes).2) % 2 = _
      omega

end CrcTables

end ModbusRtu.Base
