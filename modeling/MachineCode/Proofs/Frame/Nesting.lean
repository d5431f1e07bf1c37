import MachineCode.Proofs.Frame.Rounding

/-!
# Nested call sequences

A call sequence asks for bytes of outgoing arguments, calls, and gives the bytes back, less those
that the callee has popped. Sequences may be nested, so those that are open at an instruction are a
stack (`openSequences?`). Instructions that start and end sequences of their own do not touch the
sequences around them (`openSequences?_around`).
-/

namespace MachineCode

/-- An instruction of a block and, if it is a call, the number of bytes that its callee pops. -/
structure CallStep where
  instr : Instr
  popped : Nat := 0
  deriving DecidableEq, Repr

/-- A call sequence that has been started and not ended: the bytes that it asks for, and those that
its calls have popped so far. -/
structure OpenSequence where
  amount : Nat
  popped : Nat := 0
  deriving DecidableEq, Repr

/-- The bytes of open sequences, each rounded up to the stack alignment. -/
def openBytes (alignment : Nat) : List OpenSequence → Nat
  | [] => 0
  | sequence :: outer => leastMultiple alignment sequence.amount + openBytes alignment outer

/-- The bytes that calls have popped inside open sequences. -/
def poppedBytes : List OpenSequence → Nat
  | [] => 0
  | sequence :: outer => sequence.popped + poppedBytes outer

/-- The least number of bytes that does not fit in a signed word. -/
def byteLimit : Nat := 9223372036854775808

/-- The number of bytes at an operand position. -/
def Instr.bytes? (instr : Instr) (position : Nat) : Option Nat :=
  match instr.operands[position]? with
  | some (.immediate value) => if 0 ≤ value.toInt then some value.toInt.toNat else none
  | _ => none

/-- Start a sequence inside the open ones. The bytes have to fit. -/
def startSequence (alignment : Nat) (opened : List OpenSequence) (amount : Nat) :
    Option (List OpenSequence) :=
  if amount + alignment < byteLimit ∧ openBytes alignment ({ amount } :: opened) < byteLimit then
    some ({ amount } :: opened)
  else
    none

/-- End the innermost sequence. The end repeats the bytes of the sequence and says how many of them
have been popped. Unless they are reserved, there are no more to pop. -/
def endSequence (alignment : Nat) (isReserved : Bool) (opened : List OpenSequence)
    (amount popped : Nat) : Option (List OpenSequence) :=
  match opened with
  | [] => none
  | sequence :: outer =>
      if sequence = { amount, popped } ∧
          (isReserved = false → popped ≤ leastMultiple alignment amount) then
        some outer
      else
        none

/-- Call inside the innermost sequence. A call outside of sequences has nothing to pop. -/
def callInside (opened : List OpenSequence) (popped : Nat) : Option (List OpenSequence) :=
  match opened with
  | [] => if popped = 0 then some [] else none
  | sequence :: outer => some ({ sequence with popped := sequence.popped + popped } :: outer)

/-- The open sequences behind an instruction, the innermost first. -/
def advance (alignment : Nat) (isReserved : Bool) (opened : List OpenSequence) (step : CallStep) :
    Option (List OpenSequence) :=
  match step.instr.opcode with
  | .adjCallStackDown => do
      startSequence alignment opened (← step.instr.bytes? 0)
  | .adjCallStackUp => do
      endSequence alignment isReserved opened (← step.instr.bytes? 0) (← step.instr.bytes? 1)
  | .jal => callInside opened step.popped
  | _ => some opened

/-- The open sequences behind instructions. -/
def openSequences? (alignment : Nat) (isReserved : Bool) (opened : List OpenSequence)
    (steps : List CallStep) : Option (List OpenSequence) :=
  steps.foldlM (advance alignment isReserved) opened

/-- Whether an instruction takes part in call sequences. -/
def Instr.isCallPart (instr : Instr) : Bool :=
  instr.isCallPseudo || instr.opcode == .jal

theorem exists_of_bytes? {instr : Instr} {position bytes : Nat}
    (found : instr.bytes? position = some bytes) :
    ∃ value : Int64, instr.operands[position]? = some (.immediate value) ∧
      value.toInt = bytes := by
  unfold Instr.bytes? at found
  split at found
  next value operand =>
    split at found
    next nonnegative =>
      cases found
      exact ⟨value, operand, (Int.toNat_of_nonneg nonnegative).symm⟩
    next => contradiction
  next => contradiction

section

variable {alignment : Nat} {isReserved : Bool} {opened next : List OpenSequence} {step : CallStep}

theorem advance_of_not_isCallPart (noPart : step.instr.isCallPart = false) :
    advance alignment isReserved opened step = some opened := by
  unfold advance
  split <;> simp_all [Instr.isCallPart, Instr.isCallPseudo]

/-- What an instruction does to the open sequences. -/
theorem advance_eq_some (advanced : advance alignment isReserved opened step = some next) :
    (step.instr.opcode = .adjCallStackDown ∧ ∃ amount, step.instr.bytes? 0 = some amount ∧
        amount + alignment < byteLimit ∧ openBytes alignment ({ amount } :: opened) < byteLimit ∧
        next = { amount } :: opened) ∨
      (step.instr.opcode = .adjCallStackUp ∧ ∃ amount popped, step.instr.bytes? 0 = some amount ∧
        step.instr.bytes? 1 = some popped ∧
        (isReserved = false → popped ≤ leastMultiple alignment amount) ∧
        opened = { amount, popped } :: next) ∨
      (step.instr.opcode = .jal ∧ callInside opened step.popped = some next) ∨
      step.instr.isCallPart = false ∧ next = opened := by
  unfold advance at advanced
  split at advanced
  next down =>
    obtain ⟨amount, amountFound, started⟩ := Option.bind_eq_some_iff.mp advanced
    unfold startSequence at started
    split at started
    next fits =>
      cases started
      exact .inl ⟨down, amount, amountFound, fits.1, fits.2, rfl⟩
    next => contradiction
  next up =>
    obtain ⟨amount, amountFound, advanced⟩ := Option.bind_eq_some_iff.mp advanced
    obtain ⟨popped, poppedFound, ended⟩ := Option.bind_eq_some_iff.mp advanced
    unfold endSequence at ended
    split at ended
    next => contradiction
    next sequence outer =>
      split at ended
      next closes =>
        obtain ⟨rfl, bounded⟩ := closes
        cases ended
        exact .inr (.inl ⟨up, amount, popped, amountFound, poppedFound, bounded, rfl⟩)
      next => contradiction
  next call => exact .inr (.inr (.inl ⟨call, advanced⟩))
  next noDown noUp noCall =>
    cases advanced
    exact .inr (.inr (.inr ⟨by simp_all [Instr.isCallPart, Instr.isCallPseudo], rfl⟩))

theorem openSequences?_cons_eq_some {steps : List CallStep} :
    openSequences? alignment isReserved opened (step :: steps) = some next ↔
      ∃ reached, advance alignment isReserved opened step = some reached ∧
        openSequences? alignment isReserved reached steps = some next :=
  Option.bind_eq_some_iff

theorem openSequences?_of_not_isCallPart {steps : List CallStep}
    (noParts : ∀ step ∈ steps, step.instr.isCallPart = false) :
    openSequences? alignment isReserved opened steps = some opened := by
  induction steps with
  | nil => rfl
  | cons step rest ih =>
      rw [List.forall_mem_cons] at noParts
      exact openSequences?_cons_eq_some.mpr
        ⟨opened, advance_of_not_isCallPart noParts.1, ih noParts.2⟩

theorem callInside_append {outer reached : List OpenSequence} {popped : Nat}
    (inside : callInside opened popped = some next)
    (around : callInside (opened ++ outer) popped = some reached) : reached = next ++ outer := by
  cases opened with
  | cons sequence rest =>
      cases inside
      cases around
      rfl
  | nil =>
      obtain ⟨rfl, rfl⟩ : popped = 0 ∧ next = [] := by
        simpa [callInside, eq_comm] using inside
      cases outer with
      | nil => simpa [callInside, eq_comm] using around
      | cons sequence outer =>
          cases around
          rfl

/-- The sequences around those that an instruction starts or ends, or in which it calls, stay as
they are. -/
theorem advance_append {outer reached : List OpenSequence}
    (inside : advance alignment isReserved opened step = some next)
    (around : advance alignment isReserved (opened ++ outer) step = some reached) :
    reached = next ++ outer := by
  rcases advance_eq_some inside with ⟨down, amount, amountFound, -, -, rfl⟩ |
    ⟨up, amount, popped, amountFound, poppedFound, bounded, rfl⟩ | ⟨call, called⟩ |
    ⟨noPart, rfl⟩
  · simp only [advance, down, amountFound, Option.bind_eq_bind, Option.bind_some, startSequence]
      at around
    split at around
    · cases around
      rfl
    · contradiction
  · have closed : (isReserved = false → popped ≤ leastMultiple alignment amount) ∧
        reached = next ++ outer := by
      simpa [advance, up, amountFound, poppedFound, endSequence, eq_comm] using around
    exact closed.2
  · simp only [advance, call] at around
    exact callInside_append called around
  · rw [advance_of_not_isCallPart noPart] at around
    cases around
    rfl

/-- Instructions that start and end their own sequences leave those around them open. -/
theorem openSequences?_around {steps : List CallStep} {outer reached : List OpenSequence}
    (inside : openSequences? alignment isReserved opened steps = some next)
    (around : openSequences? alignment isReserved (opened ++ outer) steps = some reached) :
    reached = next ++ outer := by
  induction steps generalizing opened reached with
  | nil =>
      cases inside
      cases around
      rfl
  | cons step rest ih =>
      obtain ⟨_, stepInside, inside⟩ := openSequences?_cons_eq_some.mp inside
      obtain ⟨_, stepAround, around⟩ := openSequences?_cons_eq_some.mp around
      cases advance_append stepInside stepAround
      exact ih inside around

end

end MachineCode
