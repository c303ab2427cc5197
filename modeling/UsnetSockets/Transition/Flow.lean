import Mathlib.Data.List.Basic
import Mathlib.Data.List.Infix

/-!
# What goes through a queue

Elements are put into a queue at one end and taken out at the other. Between two moments, what has
been taken out followed by what is left is what was there followed by what has been put in:
`Flow q inp out q'`. This says that nothing has been lost, nothing has come out twice, and the order
is the one in which the elements were put in. Such moves compose.
-/

namespace UsnetSockets

variable {α : Type*} {q q₁ q₂ inp inp₁ inp₂ out out₁ out₂ xs : List α} {n : ℕ}

/-- The queue `q` has become `q'` while `inp` was put in and `out` taken out. -/
def Flow (q inp out q' : List α) : Prop := q ++ inp = out ++ q'

namespace Flow

theorem refl (q : List α) : Flow q [] [] q := List.append_nil q

/-- Putting in. -/
theorem put (q inp : List α) : Flow q inp [] (q ++ inp) := rfl

/-- Taking out. -/
theorem take (q : List α) (n : ℕ) : Flow q [] (q.take n) (q.drop n) := by
  rw [Flow, List.append_nil, List.take_append_drop]

theorem trans (h₁ : Flow q inp₁ out₁ q₁) (h₂ : Flow q₁ inp₂ out₂ q₂) :
    Flow q (inp₁ ++ inp₂) (out₁ ++ out₂) q₂ := by
  rw [Flow] at *
  calc q ++ (inp₁ ++ inp₂) = q ++ inp₁ ++ inp₂ := (List.append_assoc ..).symm
    _ = out₁ ++ (q₁ ++ inp₂) := by rw [h₁, List.append_assoc]
    _ = out₁ ++ out₂ ++ q₂ := by rw [h₂, List.append_assoc]

/-- What has come out is the beginning of what was there and has been put in. -/
theorem out_prefix (h : Flow q inp out q₁) : out <+: q ++ inp := ⟨q₁, h.symm⟩

/-- Only putting in, told from the queue before and after. -/
theorem of_prefix (h : q <+: q₁) : Flow q (q₁.drop q.length) [] q₁ := by
  obtain ⟨inp, rfl⟩ := h
  rw [List.drop_left]
  exact put q inp

/-- Only taking out, told from the queue before and after. -/
theorem of_suffix (h : q₁ <:+ q) : Flow q [] (q.take (q.length - q₁.length)) q₁ := by
  obtain ⟨out, rfl⟩ := h
  rw [List.length_append, Nat.add_sub_cancel_right, List.take_left, Flow, List.append_nil]

end Flow

end UsnetSockets
