/-!
# Layout sizes

Code is laid out without gaps, so the place of a piece of code is the total size of the pieces
before it.
-/

namespace MachineCode

/-- The size of pieces that lie side by side: the sum of their sizes. -/
def totalSize (sizes : List Nat) : Nat :=
  @List.sum Nat _ Zero.ofOfNat0 sizes

@[simp] theorem totalSize_nil : totalSize [] = 0 := List.sum_nil

@[simp] theorem totalSize_cons (size : Nat) (rest : List Nat) :
    totalSize (size :: rest) = size + totalSize rest := List.sum_cons

@[simp] theorem totalSize_append (left right : List Nat) :
    totalSize (left ++ right) = totalSize left + totalSize right := List.sum_append_nat

/-- Pieces on both sides of a cut make up the whole. -/
theorem totalSize_take_add_drop (sizes : List Nat) (position : Nat) :
    totalSize (sizes.take position) + totalSize (sizes.drop position) = totalSize sizes := by
  rw [← totalSize_append, List.take_append_drop]

end MachineCode
