import Mathlib.Data.List.Basic

/-!
# Machines with output

A deterministic machine takes inputs one by one and puts something out at each.
One machine abstracts another if a function on the states commutes with every
step, the outputs included (`Abstracts`). What holds of one step holds of every
run (`Abstracts.run`): the abstract machine takes the same inputs, ends in the
abstraction of the same state, and puts out the same.
-/

namespace ModbusRtu.Base

/-- A deterministic machine over states `S`, inputs `I` and outputs `O`. -/
structure Transducer (S I O : Type) where
  enabled : S → I → Prop
  step : S → I → S × List O

namespace Transducer

variable {S T I O : Type}

/-- The state behind the inputs, and all that has been put out. -/
def run (M : Transducer S I O) : S → List I → S × List O
  | s, [] => (s, [])
  | s, i :: inputs =>
      let (s, out) := M.step s i
      let (s, outs) := M.run s inputs
      (s, out ++ outs)

/-- Every input is enabled when its turn comes. -/
def Legal (M : Transducer S I O) : S → List I → Prop
  | _, [] => True
  | s, i :: inputs => M.enabled s i ∧ M.Legal (M.step s i).1 inputs

instance Legal.decidable (M : Transducer S I O) [∀ s i, Decidable (M.enabled s i)] :
    ∀ (s : S) (inputs : List I), Decidable (M.Legal s inputs)
  | _, [] => inferInstanceAs (Decidable True)
  | s, i :: inputs =>
      have := Legal.decidable M (M.step s i).1 inputs
      inferInstanceAs (Decidable (M.enabled s i ∧ M.Legal (M.step s i).1 inputs))

theorem run_cons (M : Transducer S I O) (s : S) (i : I) (inputs : List I) :
    M.run s (i :: inputs) =
      ((M.run (M.step s i).1 inputs).1, (M.step s i).2 ++ (M.run (M.step s i).1 inputs).2) := rfl

/-- `N` does what `M` does in the states that meet `Inv`, seen through `f`. -/
structure Abstracts (M : Transducer S I O) (Inv : S → Prop) (f : S → T) (N : Transducer T I O) :
    Prop where
  enabled : ∀ {s i}, Inv s → (M.enabled s i ↔ N.enabled (f s) i)
  keeps : ∀ {s i}, Inv s → M.enabled s i → Inv (M.step s i).1
  step : ∀ {s i}, Inv s → M.enabled s i →
    N.step (f s) i = (f (M.step s i).1, (M.step s i).2)

variable {M : Transducer S I O} {N : Transducer T I O} {Inv : S → Prop} {f : S → T} {s : S}
  {inputs : List I}

theorem Abstracts.legal (h : M.Abstracts Inv f N) (hs : Inv s) :
    M.Legal s inputs ↔ N.Legal (f s) inputs := by
  induction inputs generalizing s with
  | nil => exact Iff.rfl
  | cons i inputs ih =>
      show (M.enabled s i ∧ M.Legal (M.step s i).1 inputs) ↔
        (N.enabled (f s) i ∧ N.Legal (N.step (f s) i).1 inputs)
      rw [← h.enabled hs, and_congr_right_iff]
      intro hen
      rw [ih (h.keeps hs hen), h.step hs hen]

theorem Abstracts.run (h : M.Abstracts Inv f N) (hs : Inv s) (hlegal : M.Legal s inputs) :
    Inv (M.run s inputs).1 ∧
      N.run (f s) inputs = (f (M.run s inputs).1, (M.run s inputs).2) := by
  induction inputs generalizing s with
  | nil => exact ⟨hs, rfl⟩
  | cons i inputs ih =>
      obtain ⟨hen, hrest⟩ := hlegal
      obtain ⟨hend, hrun⟩ := ih (h.keeps hs hen) hrest
      refine ⟨hend, ?_⟩
      rw [run_cons, run_cons, h.step hs hen, hrun]

end Transducer

end ModbusRtu.Base
