import ModbusRtu.Theorems.Distance

/-!
# Bursts on the line

A byte goes over the line from its lowest bit on, and noise does not keep to the
bytes: it wipes out bits that follow each other on the line, which may begin in
the middle of one byte and end in the middle of another. Up to sixteen of them,
as many as the register has, never go unnoticed, wherever they are and however
long the frame is (`burst_detected`).
-/

namespace ModbusRtu

open Base

variable {x y z : List UInt8}

/-- The frames differ, but only in sixteen bits that follow each other on the
line: from the bit `j` of the byte `i` on, up to the bit `j` of the next but one. -/
def DifferInBurst (x y : List UInt8) : Prop :=
  x ≠ y ∧ ∃ i j, i + 2 < x.length ∧ j ≤ 8 ∧ (∀ k, k < i ∨ i + 2 < k → y[k]? = x[k]?) ∧
    (x.getD i 0 ^^^ y.getD i 0).toNat % 2 ^ j = 0 ∧
    (x.getD (i + 2) 0 ^^^ y.getD (i + 2) 0).toNat < 2 ^ j

/-! ## Shifts that lose nothing -/

theorem crc16Shift_double {v : Nat} (hv : v * 2 < 65536) :
    crc16Shift (.ofNat (v * 2)) = .ofNat v := by
  have heven : UInt16.ofNat (v * 2) &&& 1 = 0 := by
    rw [← UInt16.toNat_inj, UInt16.toNat_and, UInt16.toNat_ofNat', Nat.mod_eq_of_lt hv,
      show (1 : UInt16).toNat = 1 from rfl, Nat.and_one_is_mod, Nat.mul_mod_left]
    rfl
  rw [crc16Shift_eq, if_pos heven, UInt16.xor_zero, ← UInt16.toNat_inj, UInt16.toNat_shiftRight,
    UInt16.toNat_ofNat', UInt16.toNat_ofNat', Nat.mod_eq_of_lt hv,
    Nat.mod_eq_of_lt (by omega : v < 2 ^ 16)]
  show (v * 2) >>> 1 = v
  rw [Nat.shiftRight_eq_div_pow]
  omega

/-- Zeros in the low bits are shifted out first. -/
theorem iterate_mul_two_pow {v j : Nat} (hv : v * 2 ^ j < 65536) :
    crc16Shift^[j] (.ofNat (v * 2 ^ j)) = .ofNat v := by
  induction j with
  | zero =>
      rw [Nat.pow_zero, Nat.mul_one]
      rfl
  | succ j ih =>
      have hdouble : v * 2 ^ (j + 1) = v * 2 ^ j * 2 := by rw [Nat.pow_succ, Nat.mul_assoc]
      rw [hdouble] at hv ⊢
      rw [Function.iterate_succ_apply, crc16Shift_double hv, ih (by omega)]

/-! ## Three bytes -/

/-- The two bytes of a word, one after the other. -/
theorem iterate_pair (a b : UInt8) :
    crc16Shift^[8] a.toUInt16 ^^^ b.toUInt16 = crc16Shift^[8] (Crc.mk a b).toWord := by
  have hshifts : ∀ w, crc16Shifts w = crc16Shift^[8] w := fun w =>
    List.foldl_const crc16Shift w (List.range 8)
  rw [Crc.toWord_eq_xor, ← hshifts, ← hshifts, crc16Shifts_xor, crc16Shifts_high, UInt16.xor_comm]

/-- Sixteen bits in three bytes do not cancel: shifted out of the way, the bits
of the first two bytes are the low bits of the register, and those of the third
the high ones. -/
theorem eq_zero_of_triple {a b c : UInt8} {j : Nat} (hj : j ≤ 8) (ha : a.toNat % 2 ^ j = 0)
    (hc : c.toNat < 2 ^ j)
    (h : crc16Shift^[8] (crc16Shift^[8] a.toUInt16 ^^^ b.toUInt16) = c.toUInt16) :
    a = 0 ∧ b = 0 ∧ c = 0 := by
  have hcover : 2 ^ (16 - j) * 2 ^ j = 65536 := by
    rw [← Nat.pow_add, Nat.sub_add_cancel (by omega)]
  have hword : (Crc.mk a b).toWord.toNat = 256 * b.toNat + a.toNat := makeWord_toNat a b
  have hlt : (Crc.mk a b).toWord.toNat < 65536 := UInt16.toNat_lt _
  rw [iterate_pair, ← Function.iterate_add_apply] at h
  generalize (Crc.mk a b).toWord = w at h hword hlt
  have hdvd : 2 ^ j ∣ w.toNat := by
    rw [hword]
    exact Nat.dvd_add (Nat.dvd_trans (Nat.pow_dvd_pow 2 hj) (Nat.dvd_mul_right 256 _))
      (Nat.dvd_of_mod_eq_zero ha)
  obtain ⟨v, hv⟩ := hdvd
  rw [Nat.mul_comm] at hv
  have hleft : crc16Shift^[8 + 8] w = crc16Shift^[16 - j] (.ofNat v) := by
    have hsteps : 8 + 8 = (16 - j) + j := by omega
    have hw : w = .ofNat (v * 2 ^ j) := by rw [← hv, UInt16.ofNat_toNat]
    rw [hsteps, Function.iterate_add_apply, hw, iterate_mul_two_pow (by omega)]
  have hbound : c.toNat * 2 ^ (16 - j) < 65536 := by
    rw [← hcover, Nat.mul_comm]
    exact Nat.mul_lt_mul_of_pos_left hc (Nat.two_pow_pos _)
  have hright : c.toUInt16 = crc16Shift^[16 - j] (.ofNat (c.toNat * 2 ^ (16 - j))) := by
    rw [iterate_mul_two_pow hbound]
    exact UInt16.toNat_inj.mp (by simp)
  rw [hleft, hright] at h
  have hsame := congrArg UInt16.toNat (crc16Shift_injective.iterate (16 - j) h)
  have hvlt : v < 2 ^ (16 - j) := by
    rw [← hcover, hv] at hlt
    exact Nat.lt_of_mul_lt_mul_right hlt
  have hvsmall : v < 65536 := by
    rw [← hcover]
    exact Nat.lt_of_lt_of_le hvlt (Nat.le_mul_of_pos_right _ (Nat.two_pow_pos j))
  rw [UInt16.toNat_ofNat', UInt16.toNat_ofNat', Nat.mod_eq_of_lt hvsmall, Nat.mod_eq_of_lt hbound]
    at hsame
  have hczero : c.toNat = 0 := by
    by_contra hpos
    have hle : 2 ^ (16 - j) ≤ c.toNat * 2 ^ (16 - j) :=
      Nat.le_mul_of_pos_left _ (Nat.pos_of_ne_zero hpos)
    omega
  have hwzero : 256 * b.toNat + a.toNat = 0 := by
    rw [← hword, hv, hsame, hczero, Nat.zero_mul, Nat.zero_mul]
  exact ⟨UInt8.toNat_inj.mp (show a.toNat = 0 by omega),
    UInt8.toNat_inj.mp (show b.toNat = 0 by omega), UInt8.toNat_inj.mp hczero⟩

/-! ## The difference of the frames -/

theorem wordDiff_eq_map (hlen : y.length = x.length) :
    wordDiff x y = (List.range x.length).map fun k => x.getD k 0 ^^^ y.getD k 0 := by
  apply List.ext_getElem
  · rw [length_wordDiff hlen, List.length_map, List.length_range]
  · intro k hk hk'
    have hkx : k < x.length := length_wordDiff hlen ▸ hk
    rw [List.getElem_map, List.getElem_range, List.getD_eq_getElem _ _ hkx,
      List.getD_eq_getElem _ _ (hlen ▸ hkx)]
    exact List.getElem_zipWith

/-- Where the frames agree their difference is zero. -/
theorem map_eq_zeros {d : Nat → UInt8} {n : Nat} (h : ∀ k < n, d k = 0) :
    (List.range n).map d = List.replicate n 0 := by
  rw [List.map_congr_left fun k hk => h k (List.mem_range.mp hk), List.map_const',
    List.length_range]

/-- The three bytes in which they differ, among zeros. -/
theorem DifferInBurst.split (h : DifferInBurst x y) (hlen : y.length = x.length) :
    ∃ i n a b c j, wordDiff x y = List.replicate i 0 ++ a :: b :: c :: List.replicate n 0 ∧
      j ≤ 8 ∧ a.toNat % 2 ^ j = 0 ∧ c.toNat < 2 ^ j := by
  obtain ⟨-, i, j, hi, hj, hsame, hlow, hhigh⟩ := h
  obtain ⟨n, hn⟩ : ∃ n, x.length = i + (3 + n) := ⟨x.length - (i + 3), by omega⟩
  have hagree : ∀ k, k < i ∨ i + 2 < k → x.getD k 0 ^^^ y.getD k 0 = 0 := by
    intro k hk
    rw [List.getD_eq_getElem?_getD, List.getD_eq_getElem?_getD, hsame k hk, UInt8.xor_self]
  refine ⟨i, n, x.getD i 0 ^^^ y.getD i 0, x.getD (i + 1) 0 ^^^ y.getD (i + 1) 0,
    x.getD (i + 2) 0 ^^^ y.getD (i + 2) 0, j, ?_, hj, hlow, hhigh⟩
  rw [wordDiff_eq_map hlen, hn, List.range_add, List.range_add, List.map_append, List.map_append,
    List.map_append, List.map_map, List.map_map, List.map_map]
  congr 1
  · exact map_eq_zeros fun k hk => hagree k (.inl hk)
  · have hbehind : (List.range n).map _ = List.replicate n (0 : UInt8) :=
      map_eq_zeros fun k _ => hagree (i + (3 + k)) (.inr (by omega))
    rw [← hbehind]
    rfl

/-- Whichever end accepts the frame, both ends reject what a burst of up to
sixteen bits makes of it. -/
theorem burst_detected {U : Type} {cfg : Config U} (s s' : State cfg)
    (hx : (aduCheck s x).1 = true ∨ validCrc x ≠ none) (hlen : y.length = x.length)
    (hburst : DifferInBurst x y) : (aduCheck s' y).1 = false ∧ validCrc y = none := by
  have hnone : ¬((aduCheck s' y).1 = true ∨ validCrc y ≠ none) := by
    intro hy
    obtain ⟨l, rfl⟩ := exists_withCrc s hx
    obtain ⟨l', rfl⟩ := exists_withCrc s' hy
    obtain ⟨i, n, a, b, c, j, hdiff, hj, ha, hc⟩ := hburst.split hlen
    have hfold := crcRegister_wordDiff hlen
    rw [hdiff, List.map_append, List.map_cons, List.map_cons, List.map_cons, List.map_replicate,
      List.map_replicate] at hfold
    have htriple := (crcRegister.fold_triple i n _ _ _).mp hfold
    obtain ⟨rfl, rfl, rfl⟩ := eq_zero_of_triple hj ha hc htriple
    have hzero : bitCount 0 = 0 := by decide
    refine hburst.1 (eq_of_bitDiff_eq_zero hlen ?_)
    rw [← bitSum_wordDiff, hdiff]
    simp [bitSum, hzero]
  rw [not_or, Bool.not_eq_true, not_not] at hnone
  exact hnone

/-- Noise that begins in the function code and ends in the CRC. -/
theorem burst_detected_short_frame :
    let s := modbusRtuInit listener ()
    let adu := withCrc [0x11, 3, 0]
    let noisy := ((adu.set 1 0xF3).set 2 0xFF).set 3 (adu.getD 3 0 ^^^ 5)
    (aduCheck s noisy).1 = false ∧ validCrc noisy = none := by
  intro s adu noisy
  have hadu : (aduCheck s adu).1 = true ∨ validCrc adu ≠ none :=
    .inl ((aduCheck_iff s adu).mpr (accepted_withCrc (by decide)))
  refine burst_detected s s hadu rfl ⟨by decide, 1, 4, by decide, by decide, ?_, by decide,
    by decide⟩
  intro k hk
  rw [List.getElem?_set_ne (by omega), List.getElem?_set_ne (by omega),
    List.getElem?_set_ne (by omega)]

end ModbusRtu
