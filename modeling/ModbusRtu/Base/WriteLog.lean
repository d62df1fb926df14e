import Mathlib.Data.List.Induction
import ModbusRtu.Base.Scatter

/-!
# A map as the log of its writes

What a map means to its users: a key has the value last written to it, or its
initial one. `replay` executes a log of writes, and `replay_apply` says that it
means just that. The writes of a counted loop are one such log
(`replay_range`).
-/

namespace ModbusRtu.Base

variable {ι α : Type} [DecidableEq ι]

/-- The value last written to `k`. -/
def lastWrite (k : ι) (log : List (ι × α)) : Option α :=
  log.foldl (fun last w => if w.1 = k then some w.2 else last) none

/-- The map after the writes of the log, in order. -/
def replay (m : ι → α) (log : List (ι × α)) : ι → α :=
  log.foldl (fun m w => Function.update m w.1 w.2) m

theorem replay_append (m : ι → α) (log₁ log₂ : List (ι × α)) :
    replay m (log₁ ++ log₂) = replay (replay m log₁) log₂ :=
  List.foldl_append

/-- A key has the value last written to it, or its initial one. -/
theorem replay_apply (m : ι → α) (log : List (ι × α)) (k : ι) :
    replay m log k = (lastWrite k log).getD (m k) := by
  induction log using List.reverseRecOn with
  | nil => rfl
  | append_singleton log w ih =>
      rw [replay_append, lastWrite, List.foldl_append]
      show Function.update (replay m log) w.1 w.2 k =
        (if w.1 = k then some w.2 else lastWrite k log).getD (m k)
      by_cases hk : w.1 = k
      · subst hk
        rw [Function.update_self, if_pos rfl, Option.getD_some]
      · rw [Function.update_of_ne (Ne.symm hk), if_neg hk, ih]

/-- The writes of a counted loop. -/
theorem replay_range (m : ι → α) (cell : Nat → ι) (val : Nat → α) (n : Nat) :
    replay m ((List.range n).map fun k => (cell k, val k)) = scatter m cell val n :=
  List.foldl_map

end ModbusRtu.Base
