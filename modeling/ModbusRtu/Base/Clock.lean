import Mathlib.Logic.Relation

/-!
# One timer, in time

A machine whose steps may start one timer, run against arrivals at given
times. The timer runs out a fixed time after it was last started, unless a step
stops it or starts it anew; where it runs out at the very time of an arrival,
it comes first. Nothing else takes time.

`Runs` is deterministic: a run that is over is the only one that is
(`Runs.unique`).
-/

namespace ModbusRtu.Base

/-- A machine and its timer: how long the timer runs in a state, unless it is
stopped there, and which steps start it anew. -/
structure TimerMachine (S A : Type) where
  step : S → A → S
  timeout : A
  duration : S → Option Int
  rearms : S → A → Bool

/-- The state, the time at which the timer was last started, and what is still
to arrive. -/
structure Moment (S A : Type) where
  state : S
  since : Int
  coming : List (Int × A)

namespace TimerMachine

variable {S A : Type} (M : TimerMachine S A)

/-- The moment behind the step `a` at the time `t`. -/
def after (m : Moment S A) (t : Int) (a : A) (coming : List (Int × A)) : Moment S A where
  state := M.step m.state a
  since := if M.rearms m.state a then t else m.since
  coming := coming

/-- What happens next: the timer runs out, if nothing arrives before, or what
comes first arrives, if the timer runs longer. -/
inductive Next (m : Moment S A) : Moment S A → Prop
  | timeout {δ} : M.duration m.state = some δ → (∀ p ∈ m.coming.head?, m.since + δ ≤ p.1) →
      Next m (M.after m (m.since + δ) M.timeout m.coming)
  | arrival {t a coming} : m.coming = (t, a) :: coming →
      (∀ δ, M.duration m.state = some δ → t < m.since + δ) → Next m (M.after m t a coming)

/-- Any number of steps. -/
abbrev Runs : Moment S A → Moment S A → Prop := Relation.ReflTransGen M.Next

/-- Nothing is left to happen. -/
structure Over (m : Moment S A) : Prop where
  stopped : M.duration m.state = none
  arrived : m.coming = []

variable {M}

/-! ## Single steps -/

section

variable {s : S} {since δ t : Int} {a : A} {coming : List (Int × A)}

theorem next_timeout (hrun : M.duration s = some δ) (hfirst : ∀ p ∈ coming.head?, since + δ ≤ p.1)
    (hrearms : M.rearms s M.timeout = true) :
    M.Next ⟨s, since, coming⟩ ⟨M.step s M.timeout, since + δ, coming⟩ := by
  have hnext : M.Next ⟨s, since, coming⟩
      (M.after ⟨s, since, coming⟩ (since + δ) M.timeout coming) := .timeout hrun hfirst
  rwa [after, if_pos hrearms] at hnext

/-- The last timeout, behind which the time of the start does not matter. -/
theorem exists_next_timeout (hrun : M.duration s = some δ)
    (hfirst : ∀ p ∈ coming.head?, since + δ ≤ p.1) :
    ∃ since', M.Next ⟨s, since, coming⟩ ⟨M.step s M.timeout, since', coming⟩ :=
  ⟨_, .timeout hrun hfirst⟩

theorem next_arrival (hbefore : ∀ δ, M.duration s = some δ → t < since + δ)
    (hrearms : M.rearms s a = true) :
    M.Next ⟨s, since, (t, a) :: coming⟩ ⟨M.step s a, t, coming⟩ := by
  have hnext : M.Next ⟨s, since, (t, a) :: coming⟩
      (M.after ⟨s, since, (t, a) :: coming⟩ t a coming) := .arrival rfl hbefore
  rwa [after, if_pos hrearms] at hnext

/-- An arrival before the timer runs out. -/
theorem next_arrival_running (hrun : M.duration s = some δ) (hbefore : t < since + δ)
    (hrearms : M.rearms s a = true) :
    M.Next ⟨s, since, (t, a) :: coming⟩ ⟨M.step s a, t, coming⟩ := by
  refine next_arrival ?_ hrearms
  intro δ' hrun'
  rwa [← Option.some_inj.mp (hrun.symm.trans hrun')]

/-- An arrival while the timer is stopped. -/
theorem next_arrival_stopped (hstop : M.duration s = none) (hrearms : M.rearms s a = true) :
    M.Next ⟨s, since, (t, a) :: coming⟩ ⟨M.step s a, t, coming⟩ := by
  refine next_arrival ?_ hrearms
  intro δ hrun
  cases hstop.symm.trans hrun

end

/-! ## Runs -/

theorem Next.unique {m m₁ m₂ : Moment S A} (h₁ : M.Next m m₁) (h₂ : M.Next m m₂) : m₁ = m₂ := by
  cases h₁ with
  | timeout hrun₁ hfirst =>
      cases h₂ with
      | timeout hrun₂ _ =>
          obtain rfl := Option.some_inj.mp (hrun₁.symm.trans hrun₂)
          rfl
      | arrival hcoming hbefore =>
          have hle := hfirst _ (by rw [hcoming]; rfl)
          exact absurd (hbefore _ hrun₁) (Int.not_lt.mpr hle)
  | arrival hcoming₁ hbefore =>
      cases h₂ with
      | timeout hrun hfirst =>
          have hle := hfirst _ (by rw [hcoming₁]; rfl)
          exact absurd (hbefore _ hrun) (Int.not_lt.mpr hle)
      | arrival hcoming₂ _ =>
          obtain ⟨hhead, rfl⟩ := List.cons.inj (hcoming₁.symm.trans hcoming₂)
          obtain ⟨rfl, rfl⟩ := Prod.mk.inj hhead
          rfl

theorem Over.not_next {m m' : Moment S A} (h : M.Over m) : ¬M.Next m m' := by
  intro hnext
  cases hnext with
  | timeout hrun _ => exact absurd (h.stopped.symm.trans hrun) (by simp)
  | arrival hcoming _ => exact absurd (h.arrived.symm.trans hcoming) (by simp)

theorem Over.eq_of_runs {m m' : Moment S A} (h : M.Over m) (hruns : M.Runs m m') : m = m' := by
  rcases Relation.ReflTransGen.cases_head hruns with heq | ⟨_, hnext, -⟩
  · exact heq
  · exact absurd hnext h.not_next

/-- There is one way for a run to end. -/
theorem Runs.unique {m m₁ m₂ : Moment S A} (h₁ : M.Runs m m₁) (h₂ : M.Runs m m₂)
    (hover₁ : M.Over m₁) (hover₂ : M.Over m₂) : m₁ = m₂ := by
  have hdet : Relator.RightUnique M.Next := fun _ _ _ h h' => h.unique h'
  rcases Relation.ReflTransGen.total_of_right_unique hdet h₁ h₂ with h | h
  · exact hover₁.eq_of_runs h
  · exact (hover₂.eq_of_runs h).symm

end TimerMachine

end ModbusRtu.Base
