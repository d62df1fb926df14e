import ModbusRtu.Logic.CrcTables

/-!
# Frames by their residue

A frame carries its CRC exactly if the register is at zero behind all of it
(`fold_eq_zero_iff`). That makes the test a question about the register alone:
what is put behind a valid frame goes unnoticed if it takes the register from
zero to zero (`accepted_append_iff`), and what is put in front of one only if it
takes the register from its start to its start, which no single byte does
(`fold_start_single`).
-/

namespace ModbusRtu

open Base

variable {adu tail stray : List UInt8}

/-! ## Residues -/

theorem fold_eq_zero_iff (h : 2 ≤ adu.length) :
    crcTables.fold crcStart adu = (0, 0) ↔ adu = withCrc (adu.take (adu.length - 2)) := by
  constructor
  · intro hzero
    have hcut := eq_append_crc h
    generalize adu.take (adu.length - 2) = bytes at hcut ⊢
    generalize adu.getD (adu.length - 2) 0 = a at hcut
    generalize adu.getD (adu.length - 1) 0 = b at hcut
    have hown := fold_withCrc bytes
    rw [withCrc, CrcTables.fold_append] at hown
    rw [hcut, CrcTables.fold_append, ← hown] at hzero
    -- the last two bytes are the only ones that bring the register to zero
    obtain ⟨rfl, rfl⟩ := CrcTables.fold_two crcTables_high_injective hzero
    exact hcut
  · intro hadu
    rw [hadu]
    exact fold_withCrc _

theorem accepted_iff_residue :
    Accepted adu ↔ 4 ≤ adu.length ∧ crcTables.fold crcStart adu = (0, 0) := by
  constructor
  · intro hacc
    have hlen : 4 ≤ adu.length := hacc.1
    exact ⟨hlen, (fold_eq_zero_iff (by omega)).mpr ((crcMatches_iff (by omega)).mp hacc.2)⟩
  · rintro ⟨hlen, hzero⟩
    exact ⟨hlen, (crcMatches_iff (by omega)).mpr ((fold_eq_zero_iff (by omega)).mp hzero)⟩

/-! ## What is put behind a frame -/

theorem accepted_append_iff (hacc : Accepted adu) :
    Accepted (adu ++ tail) ↔ crcTables.fold (0, 0) tail = (0, 0) := by
  obtain ⟨hlen, hzero⟩ := accepted_iff_residue.mp hacc
  rw [accepted_iff_residue, CrcTables.fold_append, hzero]
  refine ⟨fun h => h.2, fun h => ⟨?_, h⟩⟩
  rw [List.length_append]
  omega

/-- A register that is not at zero is not brought there by a message that
brings the start there. -/
theorem fold_zero_ne (hzero : crcTables.fold crcStart tail = (0, 0)) :
    crcTables.fold (0, 0) tail ≠ (0, 0) := by
  intro h
  have hstart : ((0, 0) : UInt8 × UInt8) = crcStart :=
    CrcTables.fold_injective crcTables_high_injective tail (h.trans hzero.symm)
  exact absurd hstart (by decide)

/-- Bytes of zero leave the register at zero. -/
theorem fold_zero_replicate (n : Nat) :
    crcTables.fold (0, 0) (List.replicate n 0) = (0, 0) := by
  induction n with
  | zero => rfl
  | succ n ih =>
      have hstep : crcTables.step (0, 0) 0 = (0, 0) := by
        rw [CrcTables.step, UInt8.xor_self, crcTables_low_zero, crcTables_high_zero,
          UInt8.xor_self]
      rw [List.replicate_succ]
      show crcTables.fold (crcTables.step (0, 0) 0) (List.replicate n 0) = (0, 0)
      rw [hstep]
      exact ih

/-- Of one or two bytes, only zeros do. -/
theorem fold_zero_short (hlen : tail.length ≤ 2) :
    crcTables.fold (0, 0) tail = (0, 0) ↔ ∀ b ∈ tail, b = 0 := by
  constructor
  · intro h
    have htwo : crcTables.fold (0, 0) [0, 0] = (0, 0) := fold_zero_replicate 2
    match tail, hlen with
    | [], _ => exact fun b hb => absurd hb List.not_mem_nil
    | [a], _ =>
        -- a byte of zero behind it changes nothing
        have hlast : crcTables.fold (0, 0) ([a] ++ [0]) = (0, 0) := by
          rw [CrcTables.fold_append, h]
          exact fold_zero_replicate 1
        have hpair := CrcTables.fold_two crcTables_high_injective (hlast.trans htwo.symm)
        simpa using hpair.1
    | [a, b], _ =>
        obtain ⟨rfl, rfl⟩ := CrcTables.fold_two crcTables_high_injective (h.trans htwo.symm)
        simp
  · intro h
    rw [List.eq_replicate_of_mem h]
    exact fold_zero_replicate _

/-! ## What is put in front of one -/

/-- A single byte never leaves the register at its start. -/
theorem fold_start_single (b : UInt8) : crcTables.fold crcStart [b] ≠ crcStart := by
  intro h
  obtain ⟨hlow, hhigh⟩ := Prod.mk.inj h
  -- 0x54 is the one index whose entry leaves `0xFF` in the high byte
  have hentry : crcTables.high 0x54 = 0xFF := by
    rw [crcTables_high]
    decide
  have hindex : crcStart.1 ^^^ b = 0x54 := crcTables_high_injective (hhigh.trans hentry.symm)
  rw [hindex, crcTables_low] at hlow
  exact absurd hlow (by decide)

end ModbusRtu
