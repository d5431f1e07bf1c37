import MachineCode.Frame.Pointer

/-!
# Call sequences

A call sequence is bracketed by two pseudos that name the bytes of outgoing arguments. When
the frame reserves the space for them, only what the callee has popped has to be taken back.
Otherwise the pseudos move the stack pointer by the amount rounded up to the stack alignment.
-/

namespace MachineCode

/-- Round up to a multiple of an alignment. -/
def roundUp (alignment amount : UInt64) : UInt64 :=
  let quotient := amount / alignment
  (if amount % alignment = 0 then quotient else quotient + 1) * alignment

/-- Whether an instruction is one of the two call sequence pseudos. -/
def Instr.isCallPseudo (instr : Instr) : Bool :=
  instr.opcode == .adjCallStackDown || instr.opcode == .adjCallStackUp

/-- The stack pointer move that starts a call sequence. -/
def callSetup (alignment : UInt64) (isReserved : Bool) (amount : Int64) : List Instr :=
  if isReserved || amount == 0 then
    []
  else
    [.lowerStack (roundUp alignment amount.toUInt64).toInt64]

/-- The stack pointer move that ends a call sequence whose callee has popped some bytes. -/
def callCleanup (alignment : UInt64) (isReserved : Bool) (amount popped : Int64) : List Instr :=
  if isReserved then
    if popped = 0 then [] else [.lowerStack popped]
  else if amount = 0 then
    []
  else
    let remaining := (roundUp alignment amount.toUInt64).toInt64 - popped
    if 0 < remaining then [.raiseStack remaining] else []

/-- The instructions that take the place of a call sequence pseudo. -/
def expandCallPseudo (options : Options) (isReserved : Bool) (instr : Instr) :
    Except CodeError (List Instr) :=
  match instr.opcode with
  | .adjCallStackDown => do
      let amount ← instr.immediateOperand 0
      pure (callSetup options.alignment isReserved amount)
  | .adjCallStackUp => do
      let amount ← instr.immediateOperand 0
      let popped ← instr.immediateOperand 1
      pure (callCleanup options.alignment isReserved amount popped)
  | _ => .error (instr.malformed 0 .callFramePseudo)

/-- Replace the call sequence pseudo at a position of a block. The result is the position of
the instruction that followed it. -/
def eliminateCallPseudo (options : Options) (id : BlockId) (index : Nat) : Pass Nat := do
  let instr ← Pass.instruction id index
  let expansion ← Pass.ofExcept
    (expandCallPseudo options (← get).frame.hasReservedCallFrame instr)
  Pass.insertInstructions id index expansion
  let next := index + expansion.length
  Pass.replaceInstruction id next []
  pure next

/-- The move of the stack pointer that a call sequence pseudo stands for: the amount rounded
to the alignment, downwards at the start and upwards at the end. -/
def callAdjustment (options : Options) (instr : Instr) : Except CodeError Int64 := do
  let amount ← instr.immediateOperand 0
  let alignment := options.alignment.toInt64
  let aligned := (amount + alignment - 1) / alignment * alignment
  pure (if instr.opcode = .adjCallStackDown then aligned else -aligned)

end MachineCode
