import Mathlib.Data.Vector.Basic

/-!
# Cursor buffers

An array of fixed capacity with a write cursor kept beside it, as embedded
code keeps a receive or a transmit buffer: the cursor is a plain offset, so
nothing in the type keeps it inside the array, and a store past the end
leaves every cell as it was.

`filled` is the content from the first cell up to the cursor. As long as the
capacity is respected, a push appends to it (`filled_push`, `filled_pushAll`).
-/

namespace ModbusRtu.Base

/-- An array of `cap` cells and a cursor into it. -/
structure Buf (α : Type) (cap : Nat) where
  cells : Vector α cap
  curr : Nat

namespace Buf

variable {α : Type} {cap : Nat}

/-- Every cell `x`, cursor at the first cell. -/
def clear (cap : Nat) (x : α) : Buf α cap := ⟨Vector.replicate cap x, 0⟩

/-- Cursor back to the first cell, cells untouched. -/
def rewind (b : Buf α cap) : Buf α cap := { b with curr := 0 }

/-- Store at the cursor and advance it. -/
def push (b : Buf α cap) (x : α) : Buf α cap :=
  ⟨b.cells.setIfInBounds b.curr x, b.curr + 1⟩

/-- Store the elements one after the other from the cursor on. -/
def pushAll (b : Buf α cap) (l : List α) : Buf α cap := l.foldl push b

/-- The cells from the first up to the cursor. -/
def filled (b : Buf α cap) : List α := b.cells.toList.take b.curr

@[simp] theorem curr_rewind (b : Buf α cap) : b.rewind.curr = 0 := rfl

@[simp] theorem curr_push (b : Buf α cap) (x : α) : (b.push x).curr = b.curr + 1 := rfl

@[simp] theorem pushAll_nil (b : Buf α cap) : b.pushAll [] = b := rfl

@[simp] theorem pushAll_cons (b : Buf α cap) (x : α) (l : List α) :
    b.pushAll (x :: l) = (b.push x).pushAll l := rfl

theorem pushAll_append (b : Buf α cap) (l₁ l₂ : List α) :
    b.pushAll (l₁ ++ l₂) = (b.pushAll l₁).pushAll l₂ :=
  List.foldl_append

@[simp] theorem curr_pushAll (b : Buf α cap) (l : List α) :
    (b.pushAll l).curr = b.curr + l.length := by
  induction l generalizing b with
  | nil => rfl
  | cons x l ih => rw [pushAll_cons, ih, curr_push, List.length_cons]; omega

@[simp] theorem filled_clear (x : α) : (clear cap x).filled = [] := rfl

@[simp] theorem filled_rewind (b : Buf α cap) : b.rewind.filled = [] := rfl

/-- A cursor at the first cell means nothing is filled. -/
theorem filled_eq_nil {b : Buf α cap} (h : b.curr = 0) : b.filled = [] := by
  simp [filled, h]

theorem length_filled {b : Buf α cap} (h : b.curr ≤ cap) : b.filled.length = b.curr := by
  simp [filled, h]

/-- Within the capacity, a push appends. -/
theorem filled_push {b : Buf α cap} (h : b.curr < cap) (x : α) :
    (b.push x).filled = b.filled ++ [x] := by
  have hlen : b.curr < (b.cells.toList.set b.curr x).length := by simpa using h
  simp only [filled, push, Vector.toList_setIfInBounds]
  rw [← List.take_concat_get' _ _ hlen, List.getElem_set_self, List.take_set_of_le (Nat.le_refl _)]

/-- Within the capacity, pushing a list appends it. -/
theorem filled_pushAll {b : Buf α cap} {l : List α} (h : b.curr + l.length ≤ cap) :
    (b.pushAll l).filled = b.filled ++ l := by
  induction l generalizing b with
  | nil => simp
  | cons x l ih =>
      rw [List.length_cons] at h
      have hstep := ih (b := b.push x) (by rw [curr_push]; omega)
      rw [pushAll_cons, hstep, filled_push (by omega), List.append_assoc, List.singleton_append]

end Buf

end ModbusRtu.Base
