import Mathlib.Data.List.Basic

/-!
# Receivers that go deaf

A receiver that takes good messages and is made deaf by some of the others: the
message behind such a one is lost, whatever it is, and with it the deafness is
over. `survivors` is the list of messages it takes.

What is lost is bounded by what deafens (`countP_good_le`): each message that
deafens costs at most the one behind it.
-/

namespace ModbusRtu.Base

variable {α : Type}

/-- A message is good, or deafens, or is merely dropped. -/
structure Hearing (α : Type) where
  good : α → Bool
  deafens : α → Bool
  /-- A good message does not deafen. -/
  exclusive : ∀ m, good m = true → deafens m = false

/-- The messages a receiver takes, from deaf or not on. -/
def Hearing.survivors (H : Hearing α) : Bool → List α → List α
  | _, [] => []
  | true, _ :: ms => H.survivors false ms
  | false, m :: ms =>
      if H.good m then m :: H.survivors false ms else H.survivors (H.deafens m) ms

namespace Hearing

variable (H : Hearing α) {deaf : Bool} {m : α} {ms : List α}

/-- Whether the receiver is deaf behind a message. -/
def after (deaf : Bool) (m : α) : Bool := !deaf && H.deafens m

/-- What it takes of a message. -/
def taken (deaf : Bool) (m : α) : List α := if !deaf && H.good m then [m] else []

theorem of_taken {H : Hearing α} (h : H.taken deaf m ≠ []) : deaf = false ∧ H.good m = true := by
  by_cases hboth : (!deaf && H.good m) = true
  · rwa [Bool.and_eq_true, Bool.not_eq_true'] at hboth
  · exact absurd (if_neg hboth) h

theorem survivors_cons :
    H.survivors deaf (m :: ms) = H.taken deaf m ++ H.survivors (H.after deaf m) ms := by
  cases deaf with
  | true => rfl
  | false =>
      rw [survivors, taken, after, Bool.not_false, Bool.true_and, Bool.true_and]
      split
      · next hgood =>
          rw [H.exclusive m hgood]
          rfl
      · rfl

/-- Only good messages are taken, in their order. -/
theorem survivors_sublist (deaf : Bool) (ms : List α) :
    List.Sublist (H.survivors deaf ms) (ms.filter H.good) := by
  induction ms generalizing deaf with
  | nil => exact List.Sublist.refl []
  | cons m ms ih =>
      rw [survivors_cons, taken]
      cases hgood : H.good m with
      | false =>
          rw [Bool.and_false, List.filter_cons_of_neg (by simp [hgood])]
          exact ih _
      | true =>
          rw [List.filter_cons_of_pos hgood, Bool.and_true]
          cases deaf with
          | true => exact (ih _).cons m
          | false => exact (ih _).cons_cons m

/-- Each message that deafens costs at most one good message, and so does being
deaf at the start. -/
theorem countP_good_le (deaf : Bool) (ms : List α) :
    ms.countP H.good ≤ (H.survivors deaf ms).length + ms.countP H.deafens + deaf.toNat := by
  induction ms generalizing deaf with
  | nil => exact Nat.zero_le _
  | cons m ms ih =>
      have htail := ih (H.after deaf m)
      have hexcl := H.exclusive m
      rw [survivors_cons, List.length_append, List.countP_cons, List.countP_cons]
      simp only [taken, after] at htail ⊢
      cases deaf <;> cases hgood : H.good m <;> cases hdeaf : H.deafens m <;>
        simp [hgood, hdeaf] at htail hexcl ⊢ <;> omega

end Hearing

end ModbusRtu.Base
