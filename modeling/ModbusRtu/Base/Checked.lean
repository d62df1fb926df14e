import Mathlib.Data.List.Basic

/-!
# Programs that check

A program that may give up is an `Except`. `Ends fails post` says how it ends:
with a result that meets `post`, or giving up in a way that `fails` allows; with
`fails` nowhere true it says that the program never gives up.

The rules are those of a program logic: consequence (`Ends.mono`), sequence
(`Ends.bind`) and loops over a list (`Ends.foldlM`).
-/

namespace ModbusRtu.Base

variable {ε α β : Type}

/-- How a program ends. -/
def Ends (fails : ε → Prop) (post : α → Prop) : Except ε α → Prop
  | .ok a => post a
  | .error e => fails e

variable {fails : ε → Prop} {post : α → Prop} {x : Except ε α}

theorem ends_ok {a : α} (h : post a) : Ends fails post (.ok a : Except ε α) := h

theorem ends_error {e : ε} (h : fails e) : Ends fails post (.error e : Except ε α) := h

/-- A program that ends with a result. -/
theorem Ends.of_ok {a : α} (h : Ends fails post x) (hx : x = .ok a) : post a := by
  rw [hx] at h
  exact h

theorem Ends.mono {post' : α → Prop} (h : Ends fails post x) (hpost : ∀ a, post a → post' a) :
    Ends fails post' x := by
  cases x with
  | ok a => exact hpost a h
  | error e => exact h

/-- More ways to give up. -/
theorem Ends.weaken {fails' : ε → Prop} (h : Ends fails post x) (hfails : ∀ e, fails e → fails' e) :
    Ends fails' post x := by
  cases x with
  | ok a => exact h
  | error e => exact hfails e h

/-- A program that never gives up. -/
theorem Ends.exists_ok (h : Ends fails post x) (hnever : ∀ e, ¬fails e) :
    ∃ a, x = .ok a ∧ post a := by
  cases x with
  | ok a => exact ⟨a, rfl, h⟩
  | error e => exact absurd h (hnever e)

theorem Ends.bind {post' : β → Prop} {f : α → Except ε β} (h : Ends fails post x)
    (hf : ∀ a, post a → Ends fails post' (f a)) : Ends fails post' (x >>= f) := by
  cases x with
  | ok a => exact hf a h
  | error e => exact h

theorem exists_of_bind_ok {f : α → Except ε β} {b : β} (h : (x >>= f) = .ok b) :
    ∃ a, x = .ok a ∧ f a = .ok b := by
  cases x with
  | ok a => exact ⟨a, rfl, h⟩
  | error e => cases h

/-- A loop over a list keeps an invariant that may speak of the part of the list
behind it. -/
theorem Ends.foldlM {f : α → β → Except ε α} {inv : List β → α → Prop}
    (hstep : ∀ done b a, inv done a → Ends fails (inv (done ++ [b])) (f a b)) {done : List β}
    {a : α} (h : inv done a) (l : List β) : Ends fails (inv (done ++ l)) (l.foldlM f a) := by
  induction l generalizing done a with
  | nil =>
      rw [List.append_nil]
      exact ends_ok h
  | cons b l ih =>
      rw [List.foldlM_cons, List.append_cons]
      exact (hstep done b a h).bind fun a' h' => ih h'

end ModbusRtu.Base
