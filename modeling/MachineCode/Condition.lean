/-!
# Conditions

The conditions on which a conditional jump is taken. A condition is carried by an instruction
as its code, an immediate between zero and five.
-/

namespace MachineCode

/-- A condition on the status register. -/
inductive Condition where
  | equal
  | notEqual
  | higherOrSame
  | lower
  | greaterOrEqual
  | less
  deriving DecidableEq, Repr, Inhabited

namespace Condition

def all : List Condition :=
  [.equal, .notEqual, .higherOrSame, .lower, .greaterOrEqual, .less]

/-- The immediate that stands for a condition. -/
def code : Condition → Int64
  | .equal => 0
  | .notEqual => 1
  | .higherOrSame => 2
  | .lower => 3
  | .greaterOrEqual => 4
  | .less => 5

def mnemonic : Condition → String
  | .equal => "eq"
  | .notEqual => "ne"
  | .higherOrSame => "hs"
  | .lower => "lo"
  | .greaterOrEqual => "ge"
  | .less => "l"

/-- The condition that holds exactly when this one does not. -/
def inverse : Condition → Condition
  | .equal => .notEqual
  | .notEqual => .equal
  | .higherOrSame => .lower
  | .lower => .higherOrSame
  | .greaterOrEqual => .less
  | .less => .greaterOrEqual

def ofCode? (value : Int64) : Option Condition :=
  all.find? fun condition => condition.code == value

def ofMnemonic? (text : String) : Option Condition :=
  all.find? fun condition => condition.mnemonic == text

@[simp] theorem inverse_inverse (condition : Condition) :
    condition.inverse.inverse = condition := by
  cases condition <;> rfl

@[simp] theorem ofCode?_code (condition : Condition) : ofCode? condition.code = some condition := by
  cases condition <;> decide

@[simp] theorem ofMnemonic?_mnemonic (condition : Condition) :
    ofMnemonic? condition.mnemonic = some condition := by
  cases condition <;> decide +kernel

end Condition

end MachineCode
