import MachineCode.Error

/-!
# Edits by position

Instructions are found, inserted and replaced by their positions in a list. A position behind the
end of the list is refused.
-/

namespace MachineCode

variable {item : Type}

def itemAt (items : List item) (position : Nat) : Except CodeError item :=
  match items[position]? with
  | some found => .ok found
  | none => .error (.outOfRange position items.length)

/-- The position of the last item. -/
def lastPosition (items : List item) : Except CodeError Nat :=
  match items.length with
  | 0 => .error (.outOfRange 0 0)
  | length + 1 => .ok length

/-- Insert items in front of a position. -/
def insertAt (items : List item) (position : Nat) (added : List item) :
    Except CodeError (List item) :=
  if position ≤ items.length then
    .ok (items.take position ++ added ++ items.drop position)
  else
    .error (.outOfRange position items.length)

/-- Put items in the place of the one at a position. -/
def replaceAt (items : List item) (position : Nat) (replacement : List item) :
    Except CodeError (List item) :=
  if position < items.length then
    .ok (items.take position ++ replacement ++ items.drop (position + 1))
  else
    .error (.outOfRange position items.length)

/-- The items from one position up to another. -/
def slice (items : List item) (first last : Nat) : Except CodeError (List item) :=
  if first ≤ last ∧ last ≤ items.length then
    .ok ((items.take last).drop first)
  else
    .error (.outOfRange last items.length)

/-- The position behind the items with a property that stand in a row from a position on. Only so
many items are looked at. -/
def rowEnd (property : item → Bool) (items : List item) : Nat → Nat → Except CodeError Nat
  | 0, position => .ok position
  | ahead + 1, position => do
      if property (← itemAt items position) then
        rowEnd property items ahead (position + 1)
      else
        .ok position

/-- The position of the first of the items with a property that stand in a row up to a position. -/
def rowStart (property : item → Bool) (items : List item) : Nat → Except CodeError Nat
  | 0 => .ok 0
  | position + 1 => do
      if property (← itemAt items position) then
        rowStart property items position
      else
        .ok (position + 1)

end MachineCode
