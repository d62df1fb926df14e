import ModbusRtu.Logic.MasterFrames

/-!
# The CRC in the last two bytes

`implace_crc` writes the CRC of a range into its last two bytes and `valid_crc`
finds it there. `implaces_crc_iff` says for which sizes: from three bytes on.
With two bytes there is nothing in front of the CRC, which `valid_crc` refuses;
with fewer, `end` lies in front of `begin`, the guard compares a wrapped sum and
lets the call pass, and the loop never meets `end`.
-/

namespace ModbusRtu

open Base

/-! ## The loop -/

section

variable (cells : Nat → UInt8)

/-- The loop meets an `end` that is `n` bytes ahead after `n` rounds, having fetched those bytes. -/
theorem calcCrcLoop_eq {n fuel : Nat} (hfuel : n < fuel) (begin_ : Nat) (crc : Crc) :
    calcCrcLoop cells (begin_ + n : Nat) fuel begin_ crc =
      some (((List.range' begin_ n).map cells).foldl calcCrcStep crc, List.range' begin_ n) := by
  induction n generalizing fuel begin_ crc with
  | zero =>
      obtain ⟨fuel, rfl⟩ : ∃ f, fuel = f + 1 := ⟨fuel - 1, by omega⟩
      rw [calcCrcLoop, if_pos (by omega)]
      rfl
  | succ n ih =>
      obtain ⟨fuel, rfl⟩ : ∃ f, fuel = f + 1 := ⟨fuel - 1, by omega⟩
      have hstep := ih (Nat.lt_of_succ_lt_succ hfuel) (begin_ + 1)
        (calcCrcStep crc (cells begin_))
      have hend : begin_ + 1 + n = begin_ + (n + 1) := by omega
      rw [hend] at hstep
      rw [calcCrcLoop, if_neg (by omega), hstep, List.range'_succ]
      rfl

/-- The loop never meets an `end` that is behind its pointer. -/
theorem calcCrcLoop_eq_none {end_ : Int} {begin_ : Nat} (hbehind : end_ < begin_) (fuel : Nat)
    (crc : Crc) : calcCrcLoop cells end_ fuel begin_ crc = none := by
  induction fuel generalizing begin_ crc with
  | zero => rfl
  | succ fuel ih =>
      have hnext : end_ < (begin_ + 1 : Nat) := by omega
      rw [calcCrcLoop, if_neg (by omega), ih hnext]
      rfl

/-- With too little fuel the loop is cut off. -/
theorem calcCrcLoop_cut {n fuel : Nat} (hfuel : fuel ≤ n) (begin_ : Nat) (crc : Crc) :
    calcCrcLoop cells (begin_ + n : Nat) fuel begin_ crc = none := by
  induction fuel generalizing n begin_ crc with
  | zero => rfl
  | succ fuel ih =>
      obtain ⟨n, rfl⟩ : ∃ k, n = k + 1 := ⟨n - 1, by omega⟩
      have hstep := ih (Nat.le_of_succ_le_succ hfuel) (begin_ + 1)
        (calcCrcStep crc (cells begin_))
      have hend : begin_ + 1 + n = begin_ + (n + 1) := by omega
      rw [hend] at hstep
      rw [calcCrcLoop, if_neg (by omega), hstep]
      rfl

end

/-! ## The call -/

section

variable (mem : RawMemory UInt8)

/-- With enough fuel, `implace_crc_impl` round by round is `implace_crc_impl`. -/
theorem implaceCrcImplRun_eq {end_ : Int} {fuel : Nat} (hfuel : end_ < fuel) (maxSize : Nat) :
    (implaceCrcImplRun fuel mem end_ maxSize).map (fun call => (call.result, call.adu)) =
      implaceCrcImpl mem end_ maxSize := by
  rw [implaceCrcImplRun, implaceCrcImpl]
  split
  · rfl
  · by_cases hneg : end_ < 0
    · rw [if_pos hneg, calcCrcLoop_eq_none mem.cells (by omega)]
      rfl
    · have hend : ((0 + end_.toNat : Nat) : Int) = end_ := by omega
      have hrounds : end_.toNat < fuel := by omega
      have hloop := calcCrcLoop_eq mem.cells hrounds 0 { low := 0xFF, high := 0xFF }
      rw [hend] at hloop
      rw [if_neg hneg, hloop, ← List.range_eq_range']
      rfl

/-- `end` is two bytes in front of the end of the range, so the guard passes for every size: below
two bytes both the difference and the sum wrap. -/
theorem implaceCrcRun_guard (fuel aduSize : Nat) :
    implaceCrcRun fuel mem aduSize =
      (calcCrcLoop mem.cells ((aduSize : Int) - 2) fuel 0 { low := 0xFF, high := 0xFF }).map
        fun (crc, fetched) =>
          { result := some (((aduSize : Int) - 2).toNat + 2)
            adu := (mem.memcpy ((aduSize : Int) - 2).toNat [crc.low]).memcpy
              (((aduSize : Int) - 2).toNat + 1) [crc.high]
            fetched := fetched } := by
  have hle : (aduSize : Int) % sizeTModulus ≤ aduSize := by
    rw [← Int.natCast_emod]
    exact Int.ofNat_le.mpr (Nat.mod_le _ _)
  rw [implaceCrcRun, implaceCrcImplRun, Int.sub_add_cancel, if_neg (by omega)]

/-- Below two bytes the call does not return. -/
theorem implaceCrcRun_of_lt {aduSize : Nat} (hsize : aduSize < 2) (fuel : Nat) :
    implaceCrcRun fuel mem aduSize = none := by
  rw [implaceCrcRun_guard, calcCrcLoop_eq_none mem.cells (by omega)]
  rfl

/-- The call for a range of `n` bytes and a CRC. -/
def implaced (n : Nat) : CrcCall where
  result := some (n + 2)
  adu := (mem.memcpy n [(modbusRtuCalcCrc (mem.read n)).low]).memcpy (n + 1)
    [(modbusRtuCalcCrc (mem.read n)).high]
  fetched := List.range n

/-- From two bytes on the call returns with enough fuel, always in the same way. -/
theorem implaceCrcRun_eq (n fuel : Nat) :
    implaceCrcRun fuel mem (n + 2) = if n < fuel then some (implaced mem n) else none := by
  have hend : ((n + 2 : Nat) : Int) - 2 = (0 + n : Nat) := by omega
  rw [implaceCrcRun_guard, hend, Int.toNat_natCast, Nat.zero_add]
  split
  · rename_i hfuel
    have hloop := calcCrcLoop_eq mem.cells hfuel 0 { low := 0xFF, high := 0xFF }
    rw [Nat.zero_add, ← List.range_eq_range'] at hloop
    rw [hloop]
    rfl
  · rename_i hfuel
    have hloop := calcCrcLoop_cut mem.cells (Nat.le_of_not_lt hfuel) 0
      { low := 0xFF, high := 0xFF }
    rw [Nat.zero_add] at hloop
    rw [hloop]
    rfl

end

/-! ## In place for every buffer -/

/-- The call returns, fetches and stores in the range only, and either refuses and changes nothing
or changes the last two bytes only, where `valid_crc` finds the CRC. -/
def ImplacesCrc (cells : Nat → UInt8) (aduSize : Nat) : Prop :=
  ∃ fuel call, implaceCrcRun fuel { cells := cells, stored := [] } aduSize = some call ∧
    (∀ i ∈ call.fetched, i < aduSize) ∧ (∀ i ∈ call.adu.stored, i < aduSize) ∧
    (call.result = none ∧ call.adu.cells = cells ∨
      call.result = some aduSize ∧
        (∀ i, i + 2 < aduSize ∨ aduSize ≤ i → call.adu.cells i = cells i) ∧
        validCrc (call.adu.read aduSize) = some (aduSize - 2))

/-- The stores of the call, cell by cell. -/
theorem implaced_cells (mem : RawMemory UInt8) {n i : Nat} (hi : i < n ∨ n + 2 ≤ i) :
    (implaced mem n).adu.cells i = mem.cells i := by
  rw [implaced, memcpy_crc]
  exact if_neg (by simp; omega)

section

variable (cells : Nat → UInt8)

/-- What the call leaves in the range: the bytes in front and their CRC. -/
theorem implaced_read (n : Nat) :
    (implaced { cells := cells, stored := [] } n).adu.read (n + 2) =
      withCrc ((List.range n).map cells) := by
  rw [implaced, memcpy_crc]
  exact RawMemory.read_memcpy_append n

/-- Below two bytes the loop never ends. -/
theorem not_implaces_of_lt {aduSize : Nat} (hsize : aduSize < 2) : ¬ImplacesCrc cells aduSize := by
  rintro ⟨fuel, call, hcall, -⟩
  rw [implaceCrcRun_of_lt _ hsize] at hcall
  exact absurd hcall (by simp)

/-- With two bytes the CRC of an empty range is written, which `valid_crc` does not take. -/
theorem not_implaces_two : ¬ImplacesCrc cells 2 := by
  rintro ⟨fuel, call, hcall, -, -, hend⟩
  rw [implaceCrcRun_eq _ 0] at hcall
  split at hcall
  · obtain rfl := (Option.some.inj hcall).symm
    rcases hend with ⟨hnull, -⟩ | ⟨-, -, hvalid⟩
    · exact absurd hnull (by simp [implaced])
    · have hshort : validCrc (withCrc ((List.range 0).map cells)) = none := rfl
      rw [implaced_read cells 0, hshort] at hvalid
      exact absurd hvalid (by simp)
  · exact absurd hcall (by simp)

theorem implaces_of_le (n : Nat) : ImplacesCrc cells (n + 1 + 2) := by
  have hne : (List.range (n + 1)).map cells ≠ [] := by simp
  refine ⟨n + 2, implaced { cells := cells, stored := [] } (n + 1), ?_, ?_, ?_,
    .inr ⟨rfl, ?_, ?_⟩⟩
  · rw [implaceCrcRun_eq, if_pos (Nat.lt_succ_self _)]
  · intro i hi
    have hlt : i < n + 1 := List.mem_range.mp hi
    omega
  · -- the two stores of the CRC
    intro i hi
    simp only [implaced, RawMemory.memcpy, List.length_singleton, List.range'_one,
      List.nil_append, List.mem_append, List.mem_singleton] at hi
    omega
  · intro i hi
    exact implaced_cells _ (by omega)
  · rw [implaced_read, validCrc_withCrc_eq hne, List.length_map, List.length_range,
      Nat.add_sub_cancel]

/-- The CRC is put in place of the last two bytes exactly if there is a byte in front of it. -/
theorem implaces_crc_iff (aduSize : Nat) : ImplacesCrc cells aduSize ↔ 3 ≤ aduSize := by
  constructor
  · intro himplaces
    by_contra hsize
    rcases Nat.lt_or_ge aduSize 2 with hlt | hge
    · exact not_implaces_of_lt cells hlt himplaces
    · obtain rfl : aduSize = 2 := by omega
      exact not_implaces_two cells himplaces
  · intro hsize
    obtain ⟨n, rfl⟩ : ∃ n, aduSize = n + 1 + 2 := ⟨aduSize - 3, by omega⟩
    exact implaces_of_le cells n

end

/-- A range of one byte, which is smaller than a CRC, and one of two, which is as large. -/
theorem short_range_not_implaced : ¬ImplacesCrc (fun _ => 0) 1 ∧ ¬ImplacesCrc (fun _ => 0) 2 :=
  ⟨not_implaces_of_lt _ (by decide), not_implaces_two _⟩

end ModbusRtu
