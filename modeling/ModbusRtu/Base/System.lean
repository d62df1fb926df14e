import Mathlib.Data.List.Basic

/-!
# Transition systems

Deterministic labelled transition systems: an initial condition, an
enabledness test and a step function. The kit holds what every run-level
result of the development needs once:

* **invariance** (`Inductive.holds`): what holds initially and is kept by
  every enabled step holds in every reachable state;
* **restriction** (`restrict`): the same system with some steps ruled out, so
  "in every run whose steps all meet a condition" is reachability in the
  restricted system;
* **history variables** (`track`): the system paired with bookkeeping that
  the steps never read;
* **runs** (`run`, `Legal`): action lists, for concrete traces and for
  inductions along a given schedule;
* **potentials** (`countP_add_le`, `exists_stop`): how many steps of a kind a
  run has, and that some run comes to a stop.
-/

namespace ModbusRtu.Base

/-- A deterministic labelled transition system over states `S` and actions `A`. -/
structure System (S A : Type) where
  init : S → Prop
  enabled : S → A → Prop
  step : S → A → S

namespace System

variable {S A G : Type}

/-- The states some run from an initial state reaches. -/
inductive Reachable (M : System S A) : S → Prop
  | init {σ} : M.init σ → Reachable M σ
  | step {σ a} : Reachable M σ → M.enabled σ a → Reachable M (M.step σ a)

/-- `I` holds initially and every enabled step keeps it. -/
structure Inductive (M : System S A) (I : S → Prop) : Prop where
  init : ∀ σ, M.init σ → I σ
  step : ∀ σ a, I σ → M.enabled σ a → I (M.step σ a)

/-- An inductive predicate holds in every reachable state. -/
theorem Inductive.holds {M : System S A} {I : S → Prop} (hI : M.Inductive I) {σ : S}
    (hreach : M.Reachable σ) : I σ := by
  induction hreach with
  | init h => exact hI.init _ h
  | step _ hen ih => exact hI.step _ _ ih hen

/-! ## Restriction -/

/-- The same system with only the steps that meet `ok`. -/
def restrict (M : System S A) (ok : S → A → Prop) : System S A :=
  { M with enabled := fun σ a => M.enabled σ a ∧ ok σ a }

instance (M : System S A) (ok : S → A → Prop) [∀ σ a, Decidable (M.enabled σ a)]
    [∀ σ a, Decidable (ok σ a)] (σ : S) (a : A) : Decidable ((M.restrict ok).enabled σ a) :=
  inferInstanceAs (Decidable (M.enabled σ a ∧ ok σ a))

/-! ## History variables -/

/-- The system with a history variable: it starts at `g₀` and `upd` renews it
from the state before the step; the steps themselves never read it. -/
def track (M : System S A) (g₀ : G) (upd : G → S → A → G) : System (S × G) A where
  init p := M.init p.1 ∧ p.2 = g₀
  enabled p a := M.enabled p.1 a
  step p a := (M.step p.1 a, upd p.2 p.1 a)

instance (M : System S A) (g₀ : G) (upd : G → S → A → G) [∀ σ a, Decidable (M.enabled σ a)]
    (p : S × G) (a : A) : Decidable ((M.track g₀ upd).enabled p a) :=
  inferInstanceAs (Decidable (M.enabled p.1 a))

/-! ## Runs along an action list -/

/-- The state after the actions, in order. -/
def run (M : System S A) (σ : S) (acts : List A) : S := acts.foldl M.step σ

@[simp] theorem run_nil (M : System S A) (σ : S) : M.run σ [] = σ := rfl

@[simp] theorem run_cons (M : System S A) (σ : S) (a : A) (acts : List A) :
    M.run σ (a :: acts) = M.run (M.step σ a) acts := rfl

theorem run_append (M : System S A) (σ : S) (l₁ l₂ : List A) :
    M.run σ (l₁ ++ l₂) = M.run (M.run σ l₁) l₂ := by
  simp [run]

/-- Every action is enabled when its turn comes. -/
def Legal (M : System S A) : S → List A → Prop
  | _, [] => True
  | σ, a :: acts => M.enabled σ a ∧ M.Legal (M.step σ a) acts

instance Legal.decidable (M : System S A) [∀ σ a, Decidable (M.enabled σ a)] :
    ∀ (σ : S) (acts : List A), Decidable (M.Legal σ acts)
  | _, [] => inferInstanceAs (Decidable True)
  | σ, a :: acts =>
      have := Legal.decidable M (M.step σ a) acts
      inferInstanceAs (Decidable (M.enabled σ a ∧ M.Legal (M.step σ a) acts))

theorem legal_append {M : System S A} {σ : S} {l₁ l₂ : List A} :
    M.Legal σ (l₁ ++ l₂) ↔ M.Legal σ l₁ ∧ M.Legal (M.run σ l₁) l₂ := by
  induction l₁ generalizing σ with
  | nil => simp [Legal]
  | cons a l₁ ih => simp [Legal, ih, and_assoc]

/-- An inductive predicate holds along a legal run. -/
theorem Inductive.run {M : System S A} {I : S → Prop} (hI : M.Inductive I) {σ : S} (hσ : I σ)
    {acts : List A} (hlegal : M.Legal σ acts) : I (M.run σ acts) := by
  induction acts generalizing σ with
  | nil => exact hσ
  | cons a acts ih => exact ih (hI.step σ a hσ hlegal.1) hlegal.2

/-- A legal run from a reachable state ends in a reachable state. -/
theorem Reachable.run {M : System S A} {σ : S} {acts : List A} (hreach : M.Reachable σ)
    (hlegal : M.Legal σ acts) : M.Reachable (M.run σ acts) := by
  induction acts generalizing σ with
  | nil => exact hreach
  | cons a acts ih => exact ih (hreach.step hlegal.1) hlegal.2

theorem Inductive.restrict {M : System S A} {I : S → Prop} (hI : M.Inductive I)
    (ok : S → A → Prop) : (M.restrict ok).Inductive I :=
  ⟨hI.init, fun σ a hσ hen => hI.step σ a hσ hen.1⟩

theorem Legal.of_restrict {M : System S A} {ok : S → A → Prop} {σ : S} {acts : List A}
    (h : (M.restrict ok).Legal σ acts) : M.Legal σ acts := by
  induction acts generalizing σ with
  | nil => trivial
  | cons a acts ih => exact ⟨h.1.1, ih h.2⟩

/-! ## Potentials -/

section

variable {M : System S A} {I : S → Prop} {σ : S}

/-- Where the steps that count lower the potential, and none raises it but some,
by `k` at most: a run has no more of the former than the potential and the
latter allow. -/
theorem countP_add_le {Φ : S → Nat} {p q : A → Bool} {k : Nat} (hI : M.Inductive I)
    (hΦ : ∀ σ a, I σ → M.enabled σ a → Φ (M.step σ a) + (p a).toNat ≤ Φ σ + k * (q a).toNat)
    (hσ : I σ) {acts : List A} (hlegal : M.Legal σ acts) :
    acts.countP p + Φ (M.run σ acts) ≤ Φ σ + k * acts.countP q := by
  have hcons (r : A → Bool) (a : A) (acts : List A) :
      (a :: acts).countP r = acts.countP r + (r a).toNat := by
    rw [List.countP_cons]
    cases r a <;> rfl
  induction acts generalizing σ with
  | nil => exact Nat.le_of_eq (Nat.zero_add _)
  | cons a acts ih =>
      have hstep := hΦ σ a hσ hlegal.1
      have hrest := ih (hI.step σ a hσ hlegal.1) hlegal.2
      rw [hcons p, hcons q, run_cons, Nat.mul_add]
      omega

/-- Where every state that can step can step down, some run comes to a stop. -/
theorem exists_stop {Φ : S → Nat} (hI : M.Inductive I)
    (hΦ : ∀ σ, I σ → (∀ a, ¬M.enabled σ a) ∨ ∃ a, M.enabled σ a ∧ Φ (M.step σ a) < Φ σ)
    (hσ : I σ) : ∃ acts, M.Legal σ acts ∧ ∀ a, ¬M.enabled (M.run σ acts) a := by
  obtain ⟨n, hn⟩ : ∃ n, Φ σ ≤ n := ⟨_, Nat.le_refl _⟩
  induction n generalizing σ with
  | zero =>
      rcases hΦ σ hσ with hstop | ⟨a, _, hlt⟩
      · exact ⟨[], trivial, hstop⟩
      · omega
  | succ n ih =>
      rcases hΦ σ hσ with hstop | ⟨a, hen, hlt⟩
      · exact ⟨[], trivial, hstop⟩
      · obtain ⟨acts, hlegal, hstop⟩ := ih (hI.step σ a hσ hen) (by omega)
        exact ⟨a :: acts, ⟨hen, hlegal⟩, hstop⟩

end

end System

end ModbusRtu.Base
