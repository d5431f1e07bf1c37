import MachineCode.Proofs.Frame.Walk

/-!
# Faults of the input

A computation that stops gives a reason. Some reasons lie in the function that was given: an
operand is missing or has the wrong shape, a frame index is unknown, the frame is too small
(`CodeError.isInputFault`). The others would mean that a pass has lost track of its own work. Here
we say how sequences, loops and sweeps come to stop, and that the checks of single instructions
stop only through faults of the input.
-/

namespace MachineCode

/-- Whether a reason to stop lies in the instructions and the frame that were given. -/
def CodeError.isInputFault : CodeError → Bool
  | .malformedOperand .. | .operandCount .. | .inconsistentFrame .. | .unexpectedSpAdjustment _
  | .unknownFrameIndex _ | .unfinalized _ .virtualRegister => true
  | .shrinkWrapping .. | .notAReturnBlock .. | .unmappedFixupKind _ | .relaxationDidNotConverge _
  | .framePointerSlot .. | .unfinalized _ .frameIndex | .unfinalized _ .pseudo
  | .noInstruction .. | .unknownBlock _ | .outOfRange .. | .unfinishedWalk .. => false

/-! ## How sweeps and passes stop -/

/-- A sweep stops in one of its steps, in a state to which the steps before have led. -/
theorem Sweep.exists_of_run_error {item state : Type} {step : state → item → Sweep item state}
    {items : List item} {reason : CodeError} (invariant : state → Prop) {current : state}
    (initially : invariant current)
    (preserved : ∀ reached, invariant reached → ∀ head ∈ items, ∀ next,
      (step reached head).outcome = .ok next → invariant next)
    (failed : (run step current items).outcome = .error reason) :
    ∃ reached, invariant reached ∧ ∃ head ∈ items,
      (step reached head).outcome = .error reason := by
  induction items generalizing current with
  | nil => contradiction
  | cons head rest ih =>
      rw [run] at failed
      split at failed
      next items next stepped =>
        obtain ⟨reached, holds, source, member, stepFailed⟩ :=
          ih (preserved current initially head (List.mem_cons_self ..) next (by rw [stepped]))
            (fun reached holds source member =>
              preserved reached holds source (List.mem_cons_of_mem head member)) failed
        exact ⟨reached, holds, source, List.mem_cons_of_mem head member, stepFailed⟩
      next items cause stepped =>
        cases failed
        exact ⟨current, initially, head, List.mem_cons_self .., by rw [stepped]⟩

namespace Pass

variable {result other : Type}

/-- A pass in two parts stops in the first, or in the second on what the first has left. -/
theorem run_bind_eq_error {first : Pass other} {rest : other → Pass result}
    {function stopped : Function} {reason : CodeError}
    (failed : (first >>= rest).run function = .error reason stopped) :
    first.run function = .error reason stopped ∨
      ∃ between intermediate, first.run function = .ok between intermediate ∧
        (rest between).run intermediate = .error reason stopped := by
  rw [EStateM.run_bind] at failed
  cases ran : first.run function with
  | error cause left =>
      rw [ran] at failed
      cases failed
      exact .inl rfl
  | ok between intermediate =>
      rw [ran] at failed
      exact .inr ⟨between, intermediate, rfl, failed⟩

theorem run_ofExcept_eq_error {checked : Except CodeError result} {function stopped : Function}
    {reason : CodeError} (failed : (ofExcept checked).run function = .error reason stopped) :
    checked = .error reason ∧ stopped = function := by
  cases checked with
  | ok value =>
      rw [run_ofExcept_ok] at failed
      contradiction
  | error cause =>
      rw [run_ofExcept_error] at failed
      cases failed
      exact ⟨rfl, rfl⟩

theorem run_sweepBlocks_eq_error {sweep : List Block → Sweep Block result}
    {function stopped : Function} {reason : CodeError}
    (failed : (sweepBlocks sweep).run function = .error reason stopped) :
    (sweep function.blocks).outcome = .error reason :=
  (run_ofExcept_eq_error failed).1

end Pass

/-! ## Checks -/

/-- A check that fails only through a fault of the input. -/
def FaultsOnly {result : Type} (checked : Except CodeError result) : Prop :=
  ∀ reason, checked = .error reason → reason.isInputFault = true

namespace FaultsOnly

variable {first second : Type}

theorem ok (value : first) : FaultsOnly (.ok value) := by
  intro reason failed
  contradiction

theorem error {reason : CodeError} (fault : reason.isInputFault = true) :
    FaultsOnly (.error reason : Except CodeError first) := by
  rintro _ ⟨⟩
  exact fault

theorem bind {checked : Except CodeError first} {next : first → Except CodeError second}
    (here : FaultsOnly checked) (there : ∀ value, checked = .ok value → FaultsOnly (next value)) :
    FaultsOnly (checked >>= next) := by
  cases checked with
  | error reason => exact error (here reason rfl)
  | ok value => exact there value rfl

theorem map {checked : Except CodeError first} (here : FaultsOnly checked)
    (change : first → second) : FaultsOnly (checked.map change) := by
  cases checked with
  | error reason => exact error (here reason rfl)
  | ok value => exact ok (change value)

/-- A sweep fails only through faults if its steps do, in all states that it can reach. -/
theorem sweep {item state : Type} {step : state → item → Sweep item state} {items : List item}
    (invariant : state → Prop) {current : state} (initially : invariant current)
    (preserved : ∀ reached, invariant reached → ∀ head ∈ items, ∀ next,
      (step reached head).outcome = .ok next → invariant next)
    (each : ∀ reached, invariant reached → ∀ head ∈ items,
      FaultsOnly (step reached head).outcome) :
    FaultsOnly (Sweep.run step current items).outcome := by
  intro reason failed
  obtain ⟨reached, holds, head, member, stepFailed⟩ :=
    Sweep.exists_of_run_error invariant initially preserved failed
  exact each reached holds head member reason stepFailed

/-! ## Instructions -/

theorem operand (instr : Instr) (index : Nat) : FaultsOnly (instr.operand index) := by
  unfold Instr.operand
  split
  · exact ok _
  · exact error rfl

theorem registerOperand (instr : Instr) (index : Nat) :
    FaultsOnly (instr.registerOperand index) := by
  refine bind (operand instr index) ?_
  intro found _
  cases found with
  | register reg flags => exact ok reg
  | _ => exact error rfl

theorem immediateOperand (instr : Instr) (index : Nat) :
    FaultsOnly (instr.immediateOperand index) := by
  refine bind (operand instr index) ?_
  intro found _
  cases found with
  | immediate value => exact ok value
  | _ => exact error rfl

theorem object (frame : Frame) (index : FrameIndex) : FaultsOnly (frame.object index) := by
  unfold Frame.object
  split
  · exact ok _
  · exact error rfl

theorem localAreaSize (function : Function) (keeps : Bool) :
    FaultsOnly (function.localAreaSize keeps) := by
  unfold Function.localAreaSize
  dsimp only
  split
  · exact ok _
  · exact error rfl

theorem slotDisplacement (frame : Frame) (keeps : Bool) (instr : Instr) (position : Nat) :
    FaultsOnly (frame.slotDisplacement keeps instr position) := by
  refine bind (operand instr position) ?_
  intro found _
  cases found with
  | frameIndex index =>
      refine bind (immediateOperand instr (position + 1)) fun addend _ => ?_
      exact bind (object frame index) fun object _ => ok _
  | _ => exact error rfl

theorem resolveSlot (frame : Frame) (keeps : Bool) (instr : Instr) (position : Nat) :
    FaultsOnly (resolveSlot frame keeps instr position) := by
  refine bind (slotDisplacement frame keeps instr position) fun displacement _ => ?_
  dsimp only
  split
  · exact bind (registerOperand instr 0) fun target _ => ok _
  · exact ok _

theorem resolveSlots (frame : Frame) (keeps : Bool) (adjustment : Int64)
    (following : List Instr) (instr : Instr) (positions : List Nat) :
    FaultsOnly (resolveSlots frame keeps adjustment following instr positions).outcome := by
  induction positions generalizing following instr with
  | nil => exact ok adjustment
  | cons position rest ih =>
      rw [MachineCode.resolveSlots]
      split
      · exact error rfl
      · split
        next resolved _ => exact ih (resolved.following ++ following) resolved.instr
        next reason failed => exact error (resolveSlot frame keeps instr position reason failed)

theorem callAdjustment (options : Options) (instr : Instr) :
    FaultsOnly (callAdjustment options instr) :=
  bind (immediateOperand instr 0) fun _ _ => ok _

theorem expandCallPseudo (options : Options) (isReserved : Bool) (instr : Instr) :
    FaultsOnly (expandCallPseudo options isReserved instr) := by
  unfold MachineCode.expandCallPseudo
  split
  · exact bind (immediateOperand instr 0) fun amount _ => ok _
  · exact bind (immediateOperand instr 0) fun amount _ =>
      bind (immediateOperand instr 1) fun popped _ => ok _
  · exact error rfl

theorem lowerInstr (options : Options) (frame : Frame) (keeps : Bool) (adjustment : Int64)
    (instr : Instr) : FaultsOnly (lowerInstr options frame keeps adjustment instr).outcome := by
  unfold MachineCode.lowerInstr
  split
  · have expanded := bind (callAdjustment options instr) fun moved _ =>
      bind (expandCallPseudo options frame.hasReservedCallFrame instr) fun expansion _ =>
        ok (expansion, adjustment + moved)
    dsimp only
    split
    · exact ok _
    · exact error (expanded _ (by assumption))
  · exact resolveSlots frame keeps adjustment [] instr instr.slotPositions

end FaultsOnly

/-! ## Passes -/

/-- A pass that stops on a function only through a fault of the input. -/
def Pass.FaultsOnlyOn {result : Type} (pass : Pass result) (function : Function) : Prop :=
  ∀ reason stopped, pass.run function = .error reason stopped → reason.isInputFault = true

namespace Pass.FaultsOnlyOn

variable {result other : Type} {function : Function}

theorem of_ok {pass : Pass result} {value : result} {final : Function}
    (ran : pass.run function = .ok value final) : pass.FaultsOnlyOn function := by
  intro reason stopped failed
  cases ran.symm.trans failed

theorem of_error {pass : Pass result} {reason : CodeError} {stopped : Function}
    (failed : pass.run function = .error reason stopped) (fault : reason.isInputFault = true) :
    pass.FaultsOnlyOn function := by
  intro cause _ failedAgain
  cases failed.symm.trans failedAgain
  exact fault

theorem bind {first : Pass other} {rest : other → Pass result}
    (here : first.FaultsOnlyOn function)
    (there : ∀ between intermediate, first.run function = .ok between intermediate →
      (rest between).FaultsOnlyOn intermediate) :
    (first >>= rest).FaultsOnlyOn function := by
  intro reason stopped failed
  rcases run_bind_eq_error failed with firstFailed | ⟨between, intermediate, ran, restFailed⟩
  · exact here reason stopped firstFailed
  · exact there between intermediate ran reason stopped restFailed

theorem discard {pass : Pass result} (here : pass.FaultsOnlyOn function) :
    (discard pass : Pass Unit).FaultsOnlyOn function :=
  bind here fun _ _ _ => of_ok rfl

theorem ofExcept {checked : Except CodeError result} (here : FaultsOnly checked) :
    (ofExcept checked).FaultsOnlyOn function :=
  fun reason _ failed => here reason (run_ofExcept_eq_error failed).1

theorem sweepBlocks {sweep : List Block → Sweep Block result}
    (here : FaultsOnly (sweep function.blocks).outcome) :
    (sweepBlocks sweep).FaultsOnlyOn function :=
  fun reason _ failed => here reason (run_sweepBlocks_eq_error failed)

/-- A loop stops in one of its rounds, in a state to which the rounds before have led. -/
theorem forM {item : Type} {body : item → Pass Unit} {items : List item}
    (invariant : Function → Prop) (initially : invariant function)
    (preserved : ∀ item ∈ items, ∀ before after, invariant before →
      (body item).run before = .ok () after → invariant after)
    (each : ∀ item ∈ items, ∀ before, invariant before → (body item).FaultsOnlyOn before) :
    (items.forM body).FaultsOnlyOn function := by
  induction items generalizing function with
  | nil => exact of_ok rfl
  | cons head rest ih =>
      rw [List.forall_mem_cons] at preserved each
      refine bind (each.1 function initially) ?_
      intro _ middle ran
      exact ih (preserved.1 function middle initially ran) preserved.2 each.2

end Pass.FaultsOnlyOn

end MachineCode
