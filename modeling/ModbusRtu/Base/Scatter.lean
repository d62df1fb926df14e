import Mathlib.Logic.Function.Basic

/-!
# Scattered writes

A memory as a function from cells to values, and the writes of a counted loop
into it: round `k` stores `val k` in the cell `cell k`.

* `scatter_of_not_mem`: a cell no round names keeps its content;
* `scatter_apply`: if the rounds name pairwise different cells, each named
  cell ends with the value of its round;
* `scatter_eq_self_iff`: then the memory is unchanged on a set of cells
  exactly if every value stored there was already in its cell.
-/

namespace ModbusRtu.Base

variable {ι α : Type} [DecidableEq ι]

/-- Rounds `0 .. n-1` of the loop, applied to the memory `m`. -/
def scatter (m : ι → α) (cell : Nat → ι) (val : Nat → α) (n : Nat) : ι → α :=
  (List.range n).foldl (fun m k => Function.update m (cell k) (val k)) m

variable {m : ι → α} {cell : Nat → ι} {val : Nat → α} {n : Nat}

@[simp] theorem scatter_zero : scatter m cell val 0 = m := rfl

theorem scatter_succ :
    scatter m cell val (n + 1) = Function.update (scatter m cell val n) (cell n) (val n) := by
  simp [scatter, List.range_succ]

/-- Only the values of the rounds matter. -/
theorem scatter_congr {val' : Nat → α} (h : ∀ k < n, val k = val' k) :
    scatter m cell val n = scatter m cell val' n := by
  induction n with
  | zero => rfl
  | succ n ih =>
      rw [scatter_succ, scatter_succ, h n (by omega), ih fun k hk => h k (by omega)]

/-- A cell outside the rounds keeps its content. -/
theorem scatter_of_not_mem {i : ι} (h : ∀ k < n, cell k ≠ i) : scatter m cell val n i = m i := by
  induction n with
  | zero => rfl
  | succ n ih =>
      rw [scatter_succ, Function.update_of_ne (h n (by omega)).symm]
      exact ih fun k hk => h k (by omega)

/-- With pairwise different cells, every round's value is still there at the end. -/
theorem scatter_apply (cell : Nat → ι) (hinj : ∀ k < n, ∀ j < n, cell k = cell j → k = j) {k : Nat}
    (hk : k < n) : scatter m cell val n (cell k) = val k := by
  induction n with
  | zero => omega
  | succ n ih =>
      rw [scatter_succ]
      -- the last round stores its own value and meets no earlier cell
      by_cases heq : k = n
      · rw [heq, Function.update_self]
      · have hne : cell k ≠ cell n := fun hc => heq (hinj k hk n (by omega) hc)
        rw [Function.update_of_ne hne]
        exact ih (fun a ha b hb => hinj a (by omega) b (by omega)) (by omega)

/-- The loop leaves the cells of `P` as they were exactly if each value it
stores there was there already. -/
theorem scatter_eq_self_iff (hinj : ∀ k < n, ∀ j < n, cell k = cell j → k = j) (P : ι → Prop) :
    (∀ i, P i → scatter m cell val n i = m i) ↔ ∀ k < n, P (cell k) → val k = m (cell k) := by
  constructor
  · intro h k hk hP
    rw [← h (cell k) hP, scatter_apply cell hinj hk]
  · intro h i hP
    by_cases hmem : ∃ k < n, cell k = i
    · obtain ⟨k, hk, rfl⟩ := hmem
      rw [scatter_apply cell hinj hk, h k hk hP]
    · exact scatter_of_not_mem fun k hk hc => hmem ⟨k, hk, hc⟩

end ModbusRtu.Base
