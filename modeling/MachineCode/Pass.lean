import MachineCode.Function

/-!
# Passes

A pass works on one function and may stop with an error. What it has changed before it stops
stays changed, so the function after a failed pass shows how far the pass came.
-/

namespace MachineCode

/-- A computation on a function that may stop. -/
abbrev Pass := EStateM CodeError Function

instance decidableEqResult {ε σ α : Type} [DecidableEq ε] [DecidableEq σ] [DecidableEq α] :
    DecidableEq (EStateM.Result ε σ α)
  | .ok value state, .ok value' state' =>
      decidable_of_iff (value = value' ∧ state = state') (by simp)
  | .error reason state, .error reason' state' =>
      decidable_of_iff (reason = reason' ∧ state = state') (by simp)
  | .ok _ _, .error _ _ | .error _ _, .ok _ _ => isFalse nofun

namespace Pass

variable {result : Type}

/-- Continue with a checked value. -/
def ofExcept : Except CodeError result → Pass result
  | .ok value => pure value
  | .error reason => throw reason

def block (id : BlockId) : Pass Block := do
  match (← get).block? id with
  | some block => pure block
  | none => throw (.unknownBlock id)

@[simp] theorem run_ofExcept_ok (value : result) (function : Function) :
    (ofExcept (.ok value)).run function = .ok value function := rfl

@[simp] theorem run_ofExcept_error (reason : CodeError) (function : Function) :
    (ofExcept (.error reason) : Pass result).run function = .error reason function := rfl

theorem run_block_of_some {function : Function} {id : BlockId} {found : Block}
    (present : function.block? id = some found) :
    (block id).run function = .ok found function := by
  simp only [block, EStateM.run_bind, EStateM.run_get, present]
  rfl

theorem run_block_of_none {function : Function} {id : BlockId}
    (absent : function.block? id = none) :
    (block id).run function = .error (.unknownBlock id) function := by
  simp only [block, EStateM.run_bind, EStateM.run_get, absent]
  rfl

/-- A pass in two parts succeeds only through both parts. -/
theorem run_bind_eq_ok {other : Type} {first : Pass other} {rest : other → Pass result}
    {function final : Function} {value : result}
    (succeeded : (first >>= rest).run function = .ok value final) :
    ∃ between intermediate, first.run function = .ok between intermediate ∧
      (rest between).run intermediate = .ok value final := by
  rw [EStateM.run_bind] at succeeded
  cases ran : first.run function with
  | error reason stopped => simp [ran] at succeeded
  | ok between intermediate =>
      rw [ran] at succeeded
      exact ⟨between, intermediate, rfl, succeeded⟩

theorem run_ofExcept_eq_ok {checked : Except CodeError result} {function final : Function}
    {value : result} (succeeded : (ofExcept checked).run function = .ok value final) :
    checked = .ok value ∧ final = function := by
  cases checked with
  | error reason =>
      rw [run_ofExcept_error] at succeeded
      contradiction
  | ok found =>
      rw [run_ofExcept_ok] at succeeded
      cases succeeded
      exact ⟨rfl, rfl⟩

def instruction (id : BlockId) (index : Nat) : Pass Instr := do
  match (← block id).instrs[index]? with
  | some instr => pure instr
  | none => throw (.noInstruction id index)

def setInstrs (id : BlockId) (instrs : List Instr) : Pass Unit :=
  modify fun function => function.modifyBlock id fun block => { block with instrs }

@[simp] theorem run_setInstrs (id : BlockId) (instrs : List Instr) (function : Function) :
    (setInstrs id instrs).run function =
      .ok () (function.modifyBlock id fun block => { block with instrs }) := rfl

def editInstrs (id : BlockId) (edit : List Instr → Except CodeError (List Instr)) : Pass Unit := do
  let block ← block id
  let instrs ← ofExcept (edit block.instrs)
  setInstrs id instrs

/-- Insert instructions in front of a position of a block. -/
def insertInstructions (id : BlockId) (index : Nat) (added : List Instr) : Pass Unit :=
  editInstrs id fun instrs => insertAt instrs index added

/-- Put instructions in the place of the one at a position of a block. -/
def replaceInstruction (id : BlockId) (index : Nat) (replacement : List Instr) : Pass Unit :=
  editInstrs id fun instrs => replaceAt instrs index replacement

def editInstruction (id : BlockId) (index : Nat) (edit : Instr → Except CodeError Instr) :
    Pass Unit :=
  editInstrs id fun instrs => do
    let edited ← edit (← itemAt instrs index)
    replaceAt instrs index [edited]

/-- Change the instruction at a position of a block and give the new one. -/
def updateInstruction (id : BlockId) (index : Nat) (change : Instr → Except CodeError Instr) :
    Pass Instr := do
  let changed ← ofExcept (change (← instruction id index))
  replaceInstruction id index [changed]
  pure changed

def appendInstruction (id : BlockId) (instr : Instr) : Pass Unit :=
  editInstrs id fun instrs => .ok (instrs ++ [instr])

/-- Record that a block receives the value of a register. -/
def addLiveIn (id : BlockId) (register : Register) : Pass Unit := do
  let _ ← block id
  modify fun function => function.modifyBlock id fun block => block.addLiveIn register

/-! ## Walks -/

/-- Walk over the instructions of a block, from a position on and for at most so many steps. A step
may edit the block, and it gives the position at which the walk goes on. -/
def walk {state : Type} (id : BlockId) (step : Nat → Instr → state → Pass (Nat × state)) :
    Nat → Nat → state → Pass state
  | 0, index, _ => throw (.unfinishedWalk id index)
  | limit + 1, index, current => do
      match (← block id).instrs[index]? with
      | none => pure current
      | some instr =>
          let (next, reached) ← step index instr current
          walk id step limit next reached

/-- Visit the blocks in layout order. -/
def visitBlocks {state : Type} (visit : BlockId → state → Pass state) (initial : state) :
    Pass state := do
  (← get).blockIds.foldlM (fun current id => visit id current) initial

end Pass

end MachineCode
