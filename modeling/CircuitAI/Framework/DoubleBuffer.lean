import Mathlib.Tactic.TypeStar

/-!
# Double buffers

Two buffers, of which one is current and the other one is the next to be written (`Buffers.next`). What is written to
the next one leaves the current one alone (`Buffers.get_set_next`).
-/

namespace Circuit.Framework

inductive Slot
  | first
  | second
  deriving DecidableEq

def Slot.other : Slot → Slot
  | .first => .second
  | .second => .first

@[simp]
theorem Slot.other_ne (i : Slot) : i.other ≠ i := by
  cases i <;> decide

structure Buffers (β : Type*) where
  first : β
  second : β
  cur : Slot

namespace Buffers

variable {β : Type*} {b : Buffers β} {i j : Slot} {x : β}

def get (b : Buffers β) : Slot → β
  | .first => b.first
  | .second => b.second

def set (b : Buffers β) (i : Slot) (x : β) : Buffers β :=
  match i with
  | .first => { b with first := x }
  | .second => { b with second := x }

def next (b : Buffers β) : Slot := b.cur.other

@[simp]
theorem get_set_self : (b.set i x).get i = x := by
  cases i <;> rfl

@[simp]
theorem get_set_of_ne (h : j ≠ i) : (b.set i x).get j = b.get j := by
  cases i <;> cases j <;> first | rfl | exact absurd rfl h

@[simp]
theorem cur_set : (b.set i x).cur = b.cur := by
  cases i <;> rfl

@[simp]
theorem next_set : (b.set i x).next = b.next := by
  cases i <;> rfl

theorem next_ne_cur : b.next ≠ b.cur := b.cur.other_ne

end Buffers

end Circuit.Framework
