import MachineCode.Proofs.Frame.Hooks

/-!
# Calls that stop

A step of lowering can stop for many reasons: a block is unknown or does not return, an instruction
or an operand is missing or has the wrong shape, a slot is unknown, the frame is too small. Entering
and leaving a function, restoring registers, and resolving call sequences and slots make some of
these checks between their edits: every insertion looks for its block, scans and replacements look
for their instructions. Those checks pass because of what has been checked before the first edit.
When one of the steps stops, the function is what it was, except that a question about the frame
pointer may have been answered (`lowering_isAtomic`).
-/

namespace MachineCode

/-- The later function is the earlier one, except that it may have been decided whether it keeps a
frame pointer where that was open. -/
def Function.SameButDecision (earlier later : Function) : Prop :=
  later = earlier ∨
    earlier.frame.framePointer? = none ∧ ∃ keeps,
      later = { earlier with frame := { earlier.frame with framePointer? := some keeps } }

/-- Asking about the frame pointer answers the question if it is open, and changes nothing if it has
been answered. -/
theorem Function.sameButDecision_decided (function : Function) (options : Options) :
    function.SameButDecision (function.decided options) := by
  cases answer : function.frame.framePointer? with
  | none => exact .inr ⟨answer, function.frame.hasFramePointer options, rfl⟩
  | some keeps =>
      left
      rw [Function.decided, Frame.decideFramePointer, Frame.hasFramePointer, answer,
        Option.getD_some, ← answer]

/-- A pass that leaves the function as it was whenever it stops, except that it may have decided
about the frame pointer. -/
def Pass.IsAtomic {result : Type} (pass : Pass result) : Prop :=
  ∀ function reason stopped, pass.run function = .error reason stopped →
    function.SameButDecision stopped

/-- A pass is atomic if it stops on the function as it found it, or after asking about the frame
pointer. -/
theorem Pass.IsAtomic.of_outcome {result : Type} {pass : Pass result} (options : Options)
    (outcome : ∀ function,
      (∃ reason, pass.run function = .error reason function ∨
        pass.run function = .error reason (function.decided options)) ∨
      ∃ value final, pass.run function = .ok value final) : pass.IsAtomic := by
  intro function reason stopped failed
  rcases outcome function with ⟨_, unchanged | decided⟩ | ⟨_, _, ran⟩
  · cases unchanged.symm.trans failed
    exact .inl rfl
  · cases decided.symm.trans failed
    exact function.sameButDecision_decided options
  · cases ran.symm.trans failed

/-- The steps that enter and leave a function, restore registers, and resolve call sequences and
slots change nothing when they stop, except that they may have decided about the frame pointer. -/
theorem lowering_isAtomic (options : Options) (id : BlockId) (index position : Nat)
    (registers : List Register) (adjustment : Int64) :
    (emitPrologue options id).IsAtomic ∧
      (emitEpilogue options id).IsAtomic ∧
      (restoreRegisters id index registers).IsAtomic ∧
      (eliminateCallPseudo options id index).IsAtomic ∧
      (eliminateSlot options id index position adjustment).IsAtomic := by
  refine ⟨.of_outcome options fun function => ?_, .of_outcome options fun function => ?_,
    .of_outcome options fun function => ?_, .of_outcome options fun function => ?_,
    .of_outcome options fun function => ?_⟩
  · refine (emitPrologue_outcome options id function).imp_right ?_
    rintro ⟨_, _, -, -, ran⟩
    exact ⟨_, _, ran⟩
  · refine (emitEpilogue_outcome options id function).imp (fun stopped => stopped.imp
      fun _ => .inr) ?_
    rintro ⟨_, _, -, -, ran⟩
    exact ⟨_, _, ran⟩
  · refine (restoreRegisters_outcome id index registers function).imp (fun stopped =>
      stopped.2.imp fun _ => .inl) ?_
    rintro (⟨-, ran⟩ | ⟨_, -, ran⟩)
    · exact ⟨_, _, ran⟩
    · exact ⟨_, _, ran⟩
  · refine (eliminateCallPseudo_outcome options id index function).imp (fun stopped => stopped.imp
      fun _ => .inl) ?_
    rintro ⟨_, _, _, -, -, -, ran⟩
    exact ⟨_, _, ran⟩
  · refine (eliminateSlot_outcome options id index position adjustment function).imp_right ?_
    rintro ⟨_, _, _, -, -, -, ran⟩
    exact ⟨_, _, ran⟩

example :
    (emitEpilogue {} 0).run { name := "falling", blocks := [{ name := "start" }] } =
      .error (.notAReturnBlock 0 none)
        { name := "falling", blocks := [{ name := "start" }],
          frame := { framePointer? := some false } } := by
  decide +kernel

end MachineCode
