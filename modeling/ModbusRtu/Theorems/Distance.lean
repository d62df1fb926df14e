import ModbusRtu.Base.FewBits
import ModbusRtu.Base.ShiftRegister
import ModbusRtu.Theorems.CrcEquivalence
import ModbusRtu.Theorems.ErrorDetection

/-!
# The distance between two frames

Two frames of one length that carry their CRC differ in at least four bits
(`frames_differ_in_four_bits`), so up to three wrong bits in a frame never go
unnoticed. An odd number of them is caught by the parity of the CRC. Two wrong
bits cancel only when the register, started on the first, comes around to the
second, and in a frame that fits the buffer no two bits are that far apart.
-/

namespace ModbusRtu

open Base

/-! ## The register -/

theorem crc16Shift_eq_zero {w : UInt16} (h : crc16Shift w = 0) : w = 0 := by
  have hlt : w.toNat < 65536 := w.toNat_lt
  rw [crc16Shift_eq] at h
  rcases and_one_cases w with heven | hodd
  · rw [if_pos heven, UInt16.xor_zero] at h
    rw [← UInt16.toNat_inj, UInt16.toNat_and, show (1 : UInt16).toNat = 1 from rfl,
      Nat.and_one_is_mod] at heven
    rw [← UInt16.toNat_inj, UInt16.toNat_shiftRight] at h
    have hhalf : w.toNat / 2 = 0 := by simpa [Nat.shiftRight_eq_div_pow] using h
    have heven' : w.toNat % 2 = 0 := heven
    exact UInt16.toNat_inj.mp (show w.toNat = 0 by omega)
  · -- a one that is shifted out leaves the top bit of the polynomial
    rw [hodd, if_neg (by decide), UInt16.xor_eq_zero_iff, ← UInt16.toNat_inj,
      UInt16.toNat_shiftRight] at h
    have hhalf : w.toNat / 2 = 0xA001 := by simpa [Nat.shiftRight_eq_div_pow] using h
    omega

theorem crc16Shift_injective : Function.Injective crc16Shift := by
  intro a b h
  have hdiff : crc16Shift (a ^^^ b) = 0 := by
    rw [crc16Shift_xor, h, UInt16.xor_self]
  exact UInt16.xor_eq_zero_iff.mp (crc16Shift_eq_zero hdiff)

/-- The register of the bitwise update. -/
def crcRegister : ShiftRegister UInt16 where
  shift := crc16Shift
  width := 8
  shift_xor := crc16Shift_xor
  shift_injective := crc16Shift_injective

theorem crcRegister_step (w : UInt16) (data : UInt8) :
    crcRegister.step w data.toUInt16 = crc16UpdateWord w data :=
  (List.foldl_const crc16Shift _ (List.range 8)).symm

theorem crcRegister_fold (w : UInt16) (bytes : List UInt8) :
    crcRegister.fold w (bytes.map UInt8.toUInt16) = bytes.foldl crc16UpdateWord w := by
  induction bytes generalizing w with
  | nil => rfl
  | cons data bytes ih =>
      rw [List.map_cons, ShiftRegister.fold_cons, crcRegister_step, ih, List.foldl_cons]

/-- A frame with its own CRC leaves the register empty. -/
theorem crcRegister_withCrc (bytes : List UInt8) :
    crcRegister.fold 0xFFFF ((withCrc bytes).map UInt8.toUInt16) = 0 := by
  have hresidue := (calcCrc_eq_fold (withCrc bytes)).trans (fold_withCrc bytes)
  obtain ⟨hlow, hhigh⟩ := Prod.mk.inj hresidue
  have hword : modbusRtuCalcCrc (withCrc bytes) =
      Crc.ofWord ((withCrc bytes).foldl crc16UpdateWord 0xFFFF) :=
    foldl_calcCrcStep (withCrc bytes) { low := 0xFF, high := 0xFF }
  rw [crcRegister_fold, ← Crc.toWord_ofWord (List.foldl _ _ _), ← hword, Crc.toWord, hlow, hhigh]
  rfl

/-! ## Two wrong bits -/

variable {x y z : List UInt8}

/-- What the register sees of two frames. -/
def wordDiff (x y : List UInt8) : List UInt8 := List.zipWith (· ^^^ ·) x y

theorem bitSum_wordDiff (x y : List UInt8) : bitSum (wordDiff x y) = bitDiff x y := by
  rw [bitSum, wordDiff, List.map_zipWith, bitDiff]

theorem length_wordDiff (hlen : y.length = x.length) : (wordDiff x y).length = x.length := by
  rw [wordDiff, List.length_zipWith, hlen, Nat.min_self]

theorem crcRegister_wordDiff {l l' : List UInt8}
    (hlen : (withCrc l').length = (withCrc l).length) :
    crcRegister.fold 0 ((wordDiff (withCrc l) (withCrc l')).map UInt8.toUInt16) = 0 := by
  have hwords : (wordDiff (withCrc l) (withCrc l')).map UInt8.toUInt16 =
      List.zipWith (· ^^^ ·) ((withCrc l).map UInt8.toUInt16)
        ((withCrc l').map UInt8.toUInt16) := by
    rw [wordDiff, List.map_zipWith, List.zipWith_map]
    congr 1
  have hfold := crcRegister.fold_xor (x := (withCrc l).map UInt8.toUInt16)
    (y := (withCrc l').map UInt8.toUInt16) (by simpa using hlen) 0xFFFF 0xFFFF
  rw [crcRegister_withCrc, crcRegister_withCrc, UInt16.xor_self, UInt16.xor_self] at hfold
  rw [hwords, hfold]

/-- A one that is not shifted out only moves. -/
theorem crc16Shift_twoPow :
    ∀ k < 15, crc16Shift ⟨BitVec.twoPow 16 (k + 1)⟩ = ⟨BitVec.twoPow 16 k⟩ := by
  decide

theorem toUInt16_twoPow :
    ∀ k < 8, (⟨BitVec.twoPow 8 k⟩ : UInt8).toUInt16 = ⟨BitVec.twoPow 16 k⟩ := by
  decide

/-- The top bit of the register on its way down. -/
theorem iterate_topBit {m : Nat} (hm : m ≤ 15) :
    crc16Shift^[m] 0x8000 = ⟨BitVec.twoPow 16 (15 - m)⟩ := by
  induction m with
  | zero => rfl
  | succ m ih =>
      have hplace : 15 - m = 15 - (m + 1) + 1 := by omega
      rw [Function.iterate_succ_apply', ih (by omega), hplace, crc16Shift_twoPow _ (by omega)]

/-- Any one bit of a byte is the top bit of the register, shifted down. -/
theorem single_eq_shifted {b : UInt8} (h : bitCount b = 1) :
    ∃ k < 8, b.toUInt16 = crc16Shift^[15 - k] 0x8000 := by
  obtain ⟨k, hk, hbit⟩ := bitCount_eq_one h
  have hbyte : b = ⟨BitVec.twoPow 8 k⟩ := UInt8.toBitVec_inj.mp hbit
  have hplace : 15 - (15 - k) = k := by omega
  refine ⟨k, hk, ?_⟩
  rw [hbyte, toUInt16_twoPow k hk, iterate_topBit (by omega), hplace]

/-- Whether the register comes back to its top bit within `n` shifts. -/
def comesAround : Nat → UInt16 → Bool
  | 0, _ => false
  | n + 1, w => crc16Shift w == 0x8000 || comesAround n (crc16Shift w)

theorem comesAround_of_iterate {m n : Nat} {w : UInt16} (hm : 0 < m) (hn : m ≤ n)
    (h : crc16Shift^[m] w = 0x8000) : comesAround n w = true := by
  induction n generalizing m w with
  | zero => omega
  | succ n ih =>
      obtain ⟨m, rfl⟩ : ∃ k, m = k + 1 := ⟨m - 1, by omega⟩
      rw [Function.iterate_succ_apply] at h
      rw [comesAround, Bool.or_eq_true, beq_iff_eq]
      cases m with
      | zero => exact .inl h
      | succ m => exact .inr (ih (Nat.succ_pos m) (by omega) h)

/-- In the bits of the largest frame the register does not come around. -/
theorem not_comesAround : comesAround (8 * aduCapacity - 1) 0x8000 = false := by
  decide +kernel

/-- Two bits of a frame do not cancel. -/
theorem bitSum_ne_two (hlen : z.length ≤ aduCapacity)
    (hfold : crcRegister.fold 0 (z.map UInt8.toUInt16) = 0) : bitSum z ≠ 2 := by
  intro hsum
  have hzeros : ∀ n, (List.replicate n (0 : UInt8)).map UInt8.toUInt16 = List.replicate n 0 := by
    intro n
    rw [List.map_replicate]
    rfl
  rcases single_or_pair hsum with ⟨i, b, r, rfl, hb⟩ | ⟨i, a, n, b, r, rfl, ha, hb⟩
  · -- both in one byte, which the register would have to take for zero
    rw [List.map_append, List.map_cons, hzeros, hzeros, crcRegister.fold_single,
      crcRegister.iterate_eq_zero] at hfold
    have hzero : b = 0 := by
      rw [← UInt8.toNat_inj, ← UInt8.toNat_toUInt16, hfold]
      rfl
    rw [hzero] at hb
    exact absurd hb (by decide)
  · rw [List.map_append, List.map_cons, List.map_append, List.map_cons, hzeros, hzeros, hzeros,
      crcRegister.fold_pair] at hfold
    obtain ⟨k, hk, hka⟩ := single_eq_shifted ha
    obtain ⟨j, hj, hjb⟩ := single_eq_shifted hb
    have hcap : aduCapacity = 256 := rfl
    have hpair : crc16Shift^[8 * (n + 1) + (15 - k)] 0x8000 = crc16Shift^[15 - j] 0x8000 := by
      rw [Function.iterate_add_apply, ← hka, ← hjb]
      exact hfold
    have hsteps : 8 * (n + 1) + (15 - k) = (15 - j) + (8 * (n + 1) + j - k) := by omega
    rw [hsteps, Function.iterate_add_apply] at hpair
    have haround : crc16Shift^[8 * (n + 1) + j - k] 0x8000 = 0x8000 :=
      crc16Shift_injective.iterate (15 - j) hpair
    rw [List.length_append, List.length_cons, List.length_append, List.length_cons,
      List.length_replicate, List.length_replicate, List.length_replicate] at hlen
    have hcomes := comesAround_of_iterate (n := 8 * aduCapacity - 1) (by omega) (by omega) haround
    rw [not_comesAround] at hcomes
    exact Bool.false_ne_true hcomes

/-! ## The distance -/

theorem eq_of_bitDiff_eq_zero (hlen : y.length = x.length) (h : bitDiff x y = 0) : x = y := by
  induction x generalizing y with
  | nil => exact (List.length_eq_zero_iff.mp hlen).symm
  | cons a x ih =>
      cases y with
      | nil => cases hlen
      | cons b y =>
          have hsum : bitCount (a ^^^ b) + bitDiff x y = 0 := h
          have hhead : a ^^^ b = 0 := bitCount_eq_zero (by omega)
          rw [UInt8.xor_eq_zero_iff.mp hhead, ih (Nat.succ.inj hlen) (by omega)]

/-- Two frames of one length that fit the buffer, each accepted by either end,
are the same or differ in at least four bits. -/
theorem frames_differ_in_four_bits {U : Type} {cfg : Config U} (s s' : State cfg)
    (hx : (aduCheck s x).1 = true ∨ validCrc x ≠ none)
    (hy : (aduCheck s' y).1 = true ∨ validCrc y ≠ none) (hlen : y.length = x.length)
    (hfits : x.length ≤ aduCapacity) (hne : x ≠ y) : 4 ≤ bitDiff x y := by
  obtain ⟨l, rfl⟩ := exists_withCrc s hx
  obtain ⟨l', rfl⟩ := exists_withCrc s' hy
  have hodd : bitDiff (withCrc l) (withCrc l') % 2 ≠ 1 :=
    fun h => not_odd_bitDiff_withCrc hlen (Nat.odd_iff.mpr h)
  have hzero : bitDiff (withCrc l) (withCrc l') ≠ 0 :=
    fun h => hne (eq_of_bitDiff_eq_zero hlen h)
  have htwo : bitDiff (withCrc l) (withCrc l') ≠ 2 := by
    rw [← bitSum_wordDiff]
    apply bitSum_ne_two _ (crcRegister_wordDiff hlen)
    rwa [length_wordDiff hlen]
  omega

/-- Two requests that differ in one bit of the address, and therefore in the CRC. -/
theorem frames_differ_in_four_bits_address :
    4 ≤ bitDiff (withCrc [0x11, 3]) (withCrc [0x10, 3]) := by
  let s := modbusRtuInit listener ()
  have haccepted : ∀ bytes : List UInt8, 2 ≤ bytes.length →
      (aduCheck s (withCrc bytes)).1 = true ∨ validCrc (withCrc bytes) ≠ none :=
    fun bytes hbytes => .inl ((aduCheck_iff s _).mpr (accepted_withCrc hbytes))
  exact frames_differ_in_four_bits s s (haccepted _ (by decide)) (haccepted _ (by decide)) rfl
    (by decide) (by decide)

/-- Four bits, in the places of the polynomial, do turn a frame into another. -/
example : bitDiff (withCrc [0x11, 3, 0]) (withCrc [0x12, 0x43, 1]) = 4 := by decide

end ModbusRtu
