import Mathlib.Data.List.Basic

/-!
# An object behind an unreliable connection

The operations of an object are tried over a connection that loses requests
and replies. An attempt that brings a result was done, with that result; one
that brings none may or may not have been done (`Explains`).

An operation that does not mind being done twice is tried until there is a
result. Then it has been done once, as far as anyone can tell, and so have all
operations of a list, in order (`Explains.retried_all`).
-/

namespace ModbusRtu.Base

variable {Op S R : Type}

/-- What an operation does, and the result it has. -/
structure Obj (Op S R : Type) where
  exec : Op → S → S
  out : Op → S → R

namespace Obj

variable (O : Obj Op S R)

/-- The state behind the operations, each done once. -/
def run (s : S) (ops : List Op) : S := ops.foldl (fun s op => O.exec op s) s

/-- The results of the operations, each done once. -/
def outs : S → List Op → List R
  | _, [] => []
  | s, op :: ops => O.out op s :: outs (O.exec op s) ops

/-- Done again, the operation changes nothing and has the same result. -/
def Idempotent (op : Op) : Prop :=
  ∀ s, O.exec op (O.exec op s) = O.exec op s ∧ O.out op (O.exec op s) = O.out op s

/-- The attempts, with what they brought, can have led from one state to the other. -/
inductive Explains : S → List (Op × Option R) → S → Prop
  | nothing (s) : Explains s [] s
  | done {op r tries s s'} : (∀ x ∈ r, x = O.out op s) → Explains (O.exec op s) tries s' →
      Explains s ((op, r) :: tries) s'
  | lost {op tries s s'} : Explains s tries s' → Explains s ((op, none) :: tries) s'

variable {O} {op : Op} {r : R} {s s' : S} {tries : List (Op × Option R)}

/-- An operation tried in vain `k` times, and then with a result. -/
def triedUntil (p : Nat × Op × R) : List (Op × Option R) :=
  List.replicate p.1 (p.2.1, none) ++ [(p.2.1, some p.2.2)]

/-- What a result says about the state behind the attempts. -/
theorem Explains.of_result (h : O.Explains s ((op, some r) :: tries) s') :
    r = O.out op s ∧ O.Explains (O.exec op s) tries s' := by
  cases h with
  | done hout hrest => exact ⟨hout r rfl, hrest⟩

/-- An operation that is tried until it brings a result is done once. -/
theorem Explains.retried (hidem : O.Idempotent op) (k : Nat)
    (h : O.Explains s (triedUntil (k, op, r) ++ tries) s') :
    r = O.out op s ∧ O.Explains (O.exec op s) tries s' := by
  induction k generalizing s with
  | zero => exact h.of_result
  | succ k ih =>
      have hlist : triedUntil (k + 1, op, r) ++ tries =
          (op, none) :: (triedUntil (k, op, r) ++ tries) := by
        simp only [triedUntil, List.replicate_succ, List.cons_append]
      rw [hlist] at h
      cases h with
      | done _ hrest =>
          -- it has been done, and every further attempt finds it done
          obtain ⟨hout, hrest'⟩ := ih hrest
          rw [(hidem s).1] at hrest'
          exact ⟨hout.trans (hidem s).2, hrest'⟩
      | lost hrest => exact ih hrest

/-- Operations, each tried until it brings a result, are done once and in order. -/
theorem Explains.retried_all {goals : List (Nat × Op × R)}
    (hidem : ∀ p ∈ goals, O.Idempotent p.2.1) (h : O.Explains s (goals.flatMap triedUntil) s') :
    goals.map (fun p => p.2.2) = O.outs s (goals.map fun p => p.2.1) ∧
      s' = O.run s (goals.map fun p => p.2.1) := by
  induction goals generalizing s with
  | nil =>
      cases h with
      | nothing => exact ⟨rfl, rfl⟩
  | cons p goals ih =>
      obtain ⟨k, op, r⟩ := p
      rw [List.flatMap_cons] at h
      obtain ⟨hout, hrest⟩ := h.retried (hidem _ List.mem_cons_self) k
      obtain ⟨houts, hrun⟩ := ih (fun q hq => hidem q (List.mem_cons_of_mem _ hq)) hrest
      refine ⟨?_, hrun⟩
      show r :: goals.map _ = O.out op s :: O.outs (O.exec op s) _
      rw [hout, houts]

end Obj

end ModbusRtu.Base
