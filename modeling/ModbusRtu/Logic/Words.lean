import ModbusRtu.Code.Memory

/-!
# Words and bytes as numbers

Every 16-bit field of the wire format, read back as arithmetic: the packing
and unpacking helpers of both ends compute `256 * high + low` and its two
halves, so their compositions are identities.
-/

namespace ModbusRtu

theorem shiftLeft_or_toNat (high low : UInt8) :
    ((high.toUInt16 <<< 8) ||| low.toUInt16).toNat = 256 * high.toNat + low.toNat := by
  have hh : high.toNat < 256 := high.toNat_lt
  have hl : low.toNat < 2 ^ 8 := low.toNat_lt
  have hshift : high.toNat <<< 8 % 2 ^ 16 = high.toNat <<< 8 := by
    rw [Nat.shiftLeft_eq]
    exact Nat.mod_eq_of_lt (by omega)
  simp only [UInt16.toNat_or, UInt16.toNat_shiftLeft, UInt8.toNat_toUInt16, UInt16.reduceToNat,
    Nat.reduceMod, hshift]
  rw [← Nat.shiftLeft_add_eq_or_of_lt hl, Nat.shiftLeft_eq]
  omega

theorem and_low_byte (low : UInt8) : low.toUInt16 &&& 0xFF = low.toUInt16 := by
  apply UInt16.toNat_inj.mp
  have hl : low.toNat < 2 ^ 8 := low.toNat_lt
  rw [UInt16.toNat_and, UInt8.toNat_toUInt16, show (0xFF : UInt16).toNat = 2 ^ 8 - 1 from rfl,
    Nat.and_two_pow_sub_one_eq_mod, Nat.mod_eq_of_lt hl]

theorem makeWord_toNat (low high : UInt8) :
    (makeWord low high).toNat = 256 * high.toNat + low.toNat := by
  rw [makeWord, and_low_byte, shiftLeft_or_toNat]

theorem rd16_eq_makeWord (src : List UInt8) (i : Nat) :
    rd16 src i = makeWord (rd8 src (i + 1)) (rd8 src i) := by
  rw [makeWord, and_low_byte]
  rfl

theorem lowByte_toNat (word : UInt16) : (lowByte word).toNat = word.toNat % 256 := by
  rw [lowByte, UInt16.toNat_toUInt8, UInt16.toNat_and,
    show (0xFF : UInt16).toNat = 2 ^ 8 - 1 from rfl, Nat.and_two_pow_sub_one_eq_mod]
  omega

/-- Storing a word into a byte keeps its low byte. -/
theorem toUInt8_eq_lowByte (word : UInt16) : word.toUInt8 = lowByte word := by
  apply UInt8.toNat_inj.mp
  rw [lowByte_toNat, UInt16.toNat_toUInt8]

theorem highByte_toNat (word : UInt16) : (highByte word).toNat = word.toNat / 256 := by
  have hw : word.toNat < 65536 := word.toNat_lt
  have hs : (word >>> 8).toNat = word.toNat / 256 := by
    rw [UInt16.toNat_shiftRight, Nat.shiftRight_eq_div_pow]
    rfl
  rw [highByte, UInt16.toNat_toUInt8, hs]
  omega

@[simp] theorem lowByte_makeWord (low high : UInt8) : lowByte (makeWord low high) = low := by
  apply UInt8.toNat_inj.mp
  have hl : low.toNat < 256 := low.toNat_lt
  rw [lowByte_toNat, makeWord_toNat]
  omega

@[simp] theorem highByte_makeWord (low high : UInt8) : highByte (makeWord low high) = high := by
  apply UInt8.toNat_inj.mp
  have hl : low.toNat < 256 := low.toNat_lt
  rw [highByte_toNat, makeWord_toNat]
  omega

@[simp] theorem makeWord_bytes (word : UInt16) :
    makeWord (lowByte word) (highByte word) = word := by
  apply UInt16.toNat_inj.mp
  rw [makeWord_toNat, lowByte_toNat, highByte_toNat]
  omega

/-- The byte count of a number of registers, `count << 1` in a byte. -/
theorem byteCount_eq (count : UInt16) : (count <<< 1).toUInt8 = .ofNat (2 * count.toNat) := by
  rw [← UInt8.toNat_inj, UInt16.toNat_toUInt8, UInt16.toNat_shiftLeft, UInt8.toNat_ofNat']
  simp [Nat.shiftLeft_eq]
  omega

theorem Crc.toWord_inj {a b : Crc} : a.toWord = b.toWord ↔ a = b := by
  constructor
  · intro h
    have hlow : lowByte a.toWord = lowByte b.toWord := by rw [h]
    have hhigh : highByte a.toWord = highByte b.toWord := by rw [h]
    cases a
    cases b
    simp only [Crc.toWord, lowByte_makeWord, highByte_makeWord] at hlow hhigh
    rw [hlow, hhigh]
  · exact congrArg _

/-- The high byte of a register value is zero exactly when its 0xFF00 bits are. -/
theorem and_FF00_ne_zero_iff (word : UInt16) : 0xFF00 &&& word ≠ 0 ↔ highByte word ≠ 0 := by
  have hiff : 0xFF00 &&& word = 0 ↔ highByte word = 0 := by
    have hw : word.toNat < 65536 := word.toNat_lt
    have hdiv : (0xFF00 &&& word.toNat) / 2 ^ 8 = 255 &&& word.toNat / 2 ^ 8 := Nat.and_div_two_pow
    have hmod : (0xFF00 &&& word.toNat) % 2 ^ 8 = 0 &&& word.toNat % 2 ^ 8 := Nat.and_mod_two_pow
    rw [Nat.and_comm 255, show (255 : Nat) = 2 ^ 8 - 1 from rfl,
      Nat.and_two_pow_sub_one_eq_mod] at hdiv
    rw [Nat.zero_and] at hmod
    rw [← UInt16.toNat_inj, ← UInt8.toNat_inj, highByte_toNat, UInt16.toNat_and,
      show (0xFF00 : UInt16).toNat = 0xFF00 from rfl]
    change _ = 0 ↔ _ = 0
    omega
  exact not_congr hiff

end ModbusRtu
