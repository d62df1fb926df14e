import Mathlib.Data.List.GetD

/-!
# Memory behind a pointer

What a function that is given a bare pointer can reach: cells numbered from
the pointer on, without an end, and a record of the offsets stored to. Copies
into it (`memcpy`) are read back by `read_memcpy` and `read_memcpy_append`:
pieces laid end to end read as their concatenation (`memcpy_append`).
-/

namespace ModbusRtu.Base

/-- The cells from a pointer on, and the offsets stored to so far. -/
structure RawMemory (α : Type) where
  cells : Nat → α
  stored : List Nat

namespace RawMemory

variable {α : Type}

/-- The first `n` cells. -/
def read (m : RawMemory α) (n : Nat) : List α := (List.range n).map m.cells

@[simp] theorem length_read (m : RawMemory α) (n : Nat) : (m.read n).length = n := by simp [read]

/-- The content of an array, read element by element. -/
theorem map_range_getD (l : List α) (d : α) : (List.range l.length).map (l.getD · d) = l := by
  apply List.ext_getElem
  · simp
  · intro i h1 h2
    simp [List.getD_eq_getElem?_getD, h2]

variable [Inhabited α]

/-- A local object with the given content. -/
def ofList (l : List α) : RawMemory α := { cells := fun i => l.getD i default, stored := [] }

/-- Copy `l` to the offset `i`. -/
def memcpy (m : RawMemory α) (i : Nat) (l : List α) : RawMemory α where
  cells j := if i ≤ j ∧ j < i + l.length then l.getD (j - i) default else m.cells j
  stored := m.stored ++ List.range' i l.length

variable {m : RawMemory α} {l : List α}

/-- The front of a local object. -/
theorem read_ofList_append (l' : List α) : (ofList (l ++ l')).read l.length = l := by
  apply List.ext_getElem
  · simp
  · intro i h1 h2
    simp [read, ofList, List.getD_eq_getElem?_getD, List.getElem?_append_left h2, h2]

/-- A copy behind the first `i` cells is read behind them. -/
theorem read_memcpy_append (i : Nat) : (m.memcpy i l).read (i + l.length) = m.read i ++ l := by
  apply List.ext_getElem
  · simp
  · intro j h1 h2
    simp only [read, memcpy, List.getElem_map, List.getElem_range]
    by_cases hj : j < i
    · rw [if_neg (by omega), List.getElem_append_left (by simpa using hj)]
      simp
    · have hlen : j - i < l.length := by
        simp only [length_read] at h1
        omega
      rw [if_pos (by simp only [length_read] at h1; omega),
        List.getElem_append_right (by simpa using hj)]
      simp [List.getD_eq_getElem?_getD, hlen]

/-- Two copies laid end to end are one. -/
theorem memcpy_append (i : Nat) (l l' : List α) :
    m.memcpy i (l ++ l') = (m.memcpy i l).memcpy (i + l.length) l' := by
  simp only [memcpy, RawMemory.mk.injEq, List.length_append]
  constructor
  · funext j
    by_cases hj : j < i + l.length
    · rw [if_neg (by omega : ¬(i + l.length ≤ j ∧ j < i + l.length + l'.length))]
      by_cases hij : i ≤ j
      · rw [if_pos (by omega), if_pos (by omega), List.getD_append _ _ _ _ (by omega)]
      · rw [if_neg (by omega), if_neg (by omega)]
    · rw [if_neg (by omega : ¬(i ≤ j ∧ j < i + l.length)), Nat.add_assoc]
      by_cases hlt : j < i + (l.length + l'.length)
      · rw [if_pos (by omega), if_pos (by omega), List.getD_append_right _ _ _ _ (by omega),
          Nat.sub_sub]
      · rw [if_neg (by omega), if_neg (by omega)]
  · rw [List.append_assoc, List.range'_append_1]

theorem read_memcpy : (m.memcpy 0 l).read l.length = l := by
  have h := read_memcpy_append (m := m) (l := l) 0
  rw [Nat.zero_add] at h
  exact h

@[simp] theorem cells_memcpy_nil (m : RawMemory α) (i : Nat) :
    (m.memcpy i []).cells = m.cells := by
  funext j
  simp only [memcpy, List.length_nil, Nat.add_zero]
  exact if_neg (by omega)

/-- A copy changes nothing exactly if its content is there already. -/
theorem cells_memcpy_eq_iff : (m.memcpy 0 l).cells = m.cells ↔ m.read l.length = l := by
  have hread := read_memcpy (m := m) (l := l)
  constructor
  · intro hsame
    rw [read, hsame] at hread
    exact hread
  · intro hthere
    funext j
    simp only [memcpy, Nat.zero_le, true_and, Nat.zero_add, Nat.sub_zero]
    split
    · rename_i hj
      have hcell := congrArg (·.getD j default) hthere
      simp only [read] at hcell
      rw [← hcell, List.getD_eq_getElem _ _ (by simpa using hj), List.getElem_map,
        List.getElem_range]
    · rfl

/-- A copy from the pointer on stores its own length of cells. -/
theorem mem_stored_memcpy {cells : Nat → α} {i : Nat} :
    i ∈ (memcpy { cells := cells, stored := [] } 0 l).stored ↔ i < l.length := by
  simp [memcpy, List.mem_range'_1]

end RawMemory

end ModbusRtu.Base
