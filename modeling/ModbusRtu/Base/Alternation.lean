import Mathlib.Data.List.Induction

/-!
# Logs in which two entries alternate

A resource that is entered and left leaves a log of two entries. In a log in
which they alternate, the number of entries says everything: it is even exactly
when the resource is left as often as it is entered (`Alternating.count_eq_iff`).
-/

namespace ModbusRtu.Base

variable {α : Type}

/-- What stands at place `i` of a log that starts with `enter`. -/
def turn (enter leave : α) (i : Nat) : α := if i % 2 = 0 then enter else leave

/-- `enter` and `leave` alternate, `enter` first. -/
def Alternating (enter leave : α) (log : List α) : Prop :=
  ∀ i, (hi : i < log.length) → log[i] = turn enter leave i

instance [DecidableEq α] (enter leave : α) (log : List α) :
    Decidable (Alternating enter leave log) :=
  inferInstanceAs (Decidable (∀ i, (hi : i < log.length) → log[i] = turn enter leave i))

variable {enter leave : α} {log : List α}

theorem alternating_nil : Alternating enter leave [] :=
  fun i hi => absurd hi (Nat.not_lt_zero i)

/-- The log goes on with the entry whose turn it is. -/
theorem alternating_snoc {x : α} :
    Alternating enter leave (log ++ [x]) ↔
      Alternating enter leave log ∧ x = turn enter leave log.length := by
  constructor
  · intro h
    refine ⟨?_, ?_⟩
    · intro i hi
      have hat := h i (by simp; omega)
      rwa [List.getElem_append_left hi] at hat
    · have hat := h log.length (by simp)
      rwa [List.getElem_concat_length rfl] at hat
  · rintro ⟨h, rfl⟩ i hi
    by_cases hlt : i < log.length
    · rw [List.getElem_append_left hlt]
      exact h i hlt
    · obtain rfl : i = log.length := by
        simp only [List.length_append, List.length_singleton] at hi
        omega
      exact List.getElem_concat_length rfl _

theorem Alternating.enter_snoc (h : Alternating enter leave log) (heven : log.length % 2 = 0) :
    Alternating enter leave (log ++ [enter]) :=
  alternating_snoc.mpr ⟨h, (if_pos heven).symm⟩

theorem Alternating.leave_snoc (h : Alternating enter leave log) (hodd : log.length % 2 = 1) :
    Alternating enter leave (log ++ [leave]) :=
  alternating_snoc.mpr ⟨h, (if_neg (by omega)).symm⟩

/-- `enter` has the odd entry, if there is one. -/
theorem Alternating.count [DecidableEq α] (hne : enter ≠ leave)
    (h : Alternating enter leave log) :
    log.count enter = log.count leave + log.length % 2 := by
  induction log using List.reverseRecOn with
  | nil => rfl
  | append_singleton log x ih =>
      obtain ⟨hlog, rfl⟩ := alternating_snoc.mp h
      have hcount := ih hlog
      rw [List.count_append, List.count_append, List.length_append, List.length_singleton, turn]
      by_cases heven : log.length % 2 = 0
      · rw [if_pos heven, List.count_singleton_self, List.count_singleton, if_neg (by simp [hne])]
        omega
      · rw [if_neg heven, List.count_singleton_self, List.count_singleton,
          if_neg (by simp [Ne.symm hne])]
        omega

theorem Alternating.count_eq_iff [DecidableEq α] (hne : enter ≠ leave)
    (h : Alternating enter leave log) :
    log.count enter = log.count leave ↔ log.length % 2 = 0 := by
  have hcount := h.count hne
  omega

end ModbusRtu.Base
