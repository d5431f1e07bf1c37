import MachineCode.Proofs.Frame.Code

/-!
# Hooks

Lowering calls its steps one after the other, but each of them can be called on its own, in any
order and on any function. Here we say what each step can do: how it succeeds, and what it has
changed when it stops. That is nothing, except that it may have decided about the frame pointer, and
that a save has already recorded its size. Then we put such calls together to runs.
-/

namespace MachineCode

/-! ## Passes that change nothing -/

namespace Pass

variable {result other : Type}

/-- A pass that changes nothing, whether it succeeds or stops. -/
def Reads (pass : Pass result) : Prop :=
  ∀ function, (∃ value, pass.run function = .ok value function) ∨
    ∃ reason, pass.run function = .error reason function

namespace Reads

theorem get : (get : Pass Function).Reads :=
  fun function => .inl ⟨function, rfl⟩

theorem pure (value : result) : (pure value : Pass result).Reads :=
  fun _ => .inl ⟨value, rfl⟩

theorem throw (reason : CodeError) : (throw reason : Pass result).Reads :=
  fun _ => .inr ⟨reason, rfl⟩

theorem ofExcept (checked : Except CodeError result) : (ofExcept checked).Reads := by
  intro function
  cases checked with
  | error reason => exact .inr ⟨reason, rfl⟩
  | ok value => exact .inl ⟨value, rfl⟩

/-- What follows a pass that changes nothing works on the same function, unless the pass stops. -/
theorem run_bind {first : Pass other} (reads : first.Reads) (rest : other → Pass result)
    (function : Function) :
    (∃ reason, (first >>= rest).run function = .error reason function) ∨
      ∃ value, first.run function = .ok value function ∧
        (first >>= rest).run function = (rest value).run function := by
  rcases reads function with ⟨value, ran⟩ | ⟨reason, stopped⟩
  · refine .inr ⟨value, ran, ?_⟩
    rw [EStateM.run_bind, ran]
  · refine .inl ⟨reason, ?_⟩
    rw [EStateM.run_bind, stopped]

theorem bind {first : Pass other} {rest : other → Pass result} (reads : first.Reads)
    (restReads : ∀ value, (rest value).Reads) : (first >>= rest).Reads := by
  intro function
  rcases reads.run_bind rest function with stopped | ⟨value, -, continued⟩
  · exact .inr stopped
  · rw [continued]
    exact restReads value function

theorem block (id : BlockId) : (block id).Reads := by
  refine get.bind fun function => ?_
  split
  · exact pure _
  · exact throw _

theorem instruction (id : BlockId) (index : Nat) : (instruction id index).Reads := by
  refine (block id).bind fun found => ?_
  split
  · exact pure _
  · exact throw _

end Reads

theorem run_block_eq_ok {id : BlockId} {function final : Function} {found : Block}
    (ran : (Pass.block id).run function = .ok found final) :
    function.block? id = some found ∧ final = function := by
  cases present : function.block? id with
  | none =>
      rw [Pass.run_block_of_none present] at ran
      contradiction
  | some block =>
      rw [Pass.run_block_of_some present] at ran
      cases ran
      exact ⟨rfl, rfl⟩

theorem run_instruction_eq_ok {id : BlockId} {index : Nat} {function final : Function}
    {instr : Instr} (ran : (Pass.instruction id index).run function = .ok instr final) :
    ∃ block, function.block? id = some block ∧ block.instrs[index]? = some instr := by
  obtain ⟨block, _, blockRan, afterBlock⟩ := Pass.run_bind_eq_ok ran
  obtain ⟨found, rfl⟩ := Pass.run_block_eq_ok blockRan
  split at afterBlock
  next present =>
    cases afterBlock
    exact ⟨block, found, present⟩
  next => contradiction

end Pass

/-! ## Entering and leaving a function -/

theorem exists_block_of_entryBlock? {function : Function} {id : BlockId}
    (entry : function.entryBlock? = some id) :
    id = 0 ∧ ∃ block, function.block? 0 = some block := by
  rw [Function.entryBlock?] at entry
  split at entry
  next => contradiction
  next nonempty =>
    cases entry
    refine ⟨rfl, ?_⟩
    rw [Function.block?]
    cases blocksEq : function.blocks with
    | nil => simp [blocksEq] at nonempty
    | cons first rest => exact ⟨first, rfl⟩

/-- The prologue needs the entry block and a frame that is large enough. -/
theorem emitPrologue_outcome (options : Options) (id : BlockId) (function : Function) :
    (∃ reason, (emitPrologue options id).run function = .error reason function ∨
        (emitPrologue options id).run function = .error reason (function.decided options)) ∨
      ∃ block localArea, function.block? id = some block ∧
        function.localAreaSize (function.frame.hasFramePointer options) = .ok localArea ∧
        (emitPrologue options id).run function = .ok ()
          ((function.decided options).entered (function.frame.hasFramePointer options) id localArea
            block) := by
  cases entry : function.entryBlock? with
  | none =>
      refine .inl ⟨.unknownBlock id, .inl ?_⟩
      rw [emitPrologue, Pass.run_bind_of_ok (EStateM.run_get ..), entry]
      rfl
  | some first =>
      obtain ⟨rfl, block, found⟩ := exists_block_of_entryBlock? entry
      by_cases same : 0 = id
      · subst same
        have ran := run_emitPrologue options found
        cases area : function.localAreaSize (function.frame.hasFramePointer options) with
        | error reason =>
            rw [area] at ran
            exact .inl ⟨reason, .inr ran⟩
        | ok localArea =>
            rw [area] at ran
            exact .inr ⟨block, localArea, found, rfl, ran⟩
      · refine .inl ⟨.shrinkWrapping id 0, .inl ?_⟩
        rw [emitPrologue, Pass.run_bind_of_ok (EStateM.run_get ..), entry]
        dsimp only
        rw [if_pos same]
        rfl

/-- An epilogue needs a returning block and a frame that is large enough. -/
theorem emitEpilogue_outcome (options : Options) (id : BlockId) (function : Function) :
    (∃ reason, (emitEpilogue options id).run function =
        .error reason (function.decided options)) ∨
      ∃ block localArea, function.block? id = some block ∧
        function.localAreaSize (function.frame.hasFramePointer options) = .ok localArea ∧
        (emitEpilogue options id).run function = .ok ()
          ((function.decided options).modifyBlock id fun same =>
            { same with
              instrs := withEpilogue (function.frame.hasFramePointer options)
                (release function.frame.hasVarSizedObjects function.calleeSavedSize localArea)
                block.instrs }) := by
  cases found : function.block? id with
  | none =>
      refine .inl ⟨.unknownBlock id, ?_⟩
      rw [emitEpilogue, run_decideFramePointer_bind, Pass.run_bind_of_ok (EStateM.run_get ..)]
      exact Pass.run_bind_of_error (Pass.run_block_of_none (by exact found)) _
  | some block =>
      cases returning : block.isReturning with
      | false =>
          refine .inl ⟨.notAReturnBlock id (block.last?.map Instr.opcode), ?_⟩
          rw [emitEpilogue, run_decideFramePointer_bind, Pass.run_bind_of_ok (EStateM.run_get ..)]
          refine (Pass.run_bind_of_ok (Pass.run_block_of_some (by exact found)) _).trans ?_
          rw [returning]
          rfl
      | true =>
          have ran := run_emitEpilogue options found returning
          cases area : function.localAreaSize (function.frame.hasFramePointer options) with
          | error reason =>
              rw [area] at ran
              exact .inl ⟨reason, ran⟩
          | ok localArea =>
              rw [area] at ran
              exact .inr ⟨block, localArea, rfl, rfl, ran⟩

/-- Slots are resolved outside of call sequences only, and in instructions that have one. -/
theorem eliminateSlot_outcome (options : Options) (id : BlockId) (index position : Nat)
    (adjustment : Int64) (function : Function) :
    (∃ reason, (eliminateSlot options id index position adjustment).run function =
          .error reason function ∨
        (eliminateSlot options id index position adjustment).run function =
          .error reason (function.decided options)) ∨
      ∃ block instr resolved, function.block? id = some block ∧ block.instrs[index]? = some instr ∧
        resolveSlot (function.decided options).frame (function.frame.hasFramePointer options)
          instr position = .ok resolved ∧
        (eliminateSlot options id index position adjustment).run function = .ok ()
          ((function.decided options).modifyBlock id fun same =>
            { same with
              instrs := block.instrs.take index ++ (resolved.instr :: resolved.following) ++
                block.instrs.drop (index + 1) }) := by
  by_cases moved : adjustment ≠ 0
  · exact .inl ⟨_, .inl (run_eliminateSlot_of_moved moved ..)⟩
  · obtain rfl : adjustment = 0 := not_not.mp moved
    rcases Pass.Reads.instruction id index (function.decided options) with
      ⟨instr, instrRan⟩ | ⟨reason, stopped⟩
    · obtain ⟨block, decidedFound, present⟩ := Pass.run_instruction_eq_ok instrRan
      have found : function.block? id = some block := decidedFound
      obtain ⟨instrsEq, lengthEq⟩ := eq_take_append_cons_drop present
      have ran := run_eliminateSlot options found (block.instrs.take index) instr
        (block.instrs.drop (index + 1)) position
      rw [← instrsEq, lengthEq, Function.withInstrs_self found] at ran
      cases slot : resolveSlot (function.decided options).frame
        (function.frame.hasFramePointer options) instr position with
      | error reason =>
          rw [slot] at ran
          refine .inl ⟨reason, .inr (ran.trans ?_)⟩
          exact congrArg _ (Function.withInstrs_self decidedFound)
      | ok resolved =>
          rw [slot] at ran
          refine .inr ⟨block, instr, resolved, found, present, slot, ?_⟩
          rw [List.append_assoc, List.cons_append]
          exact ran
    · refine .inl ⟨reason, .inr ?_⟩
      rw [eliminateSlot, if_neg moved, run_decideFramePointer_bind]
      exact Pass.run_bind_of_error stopped _

/-- A call sequence pseudo is replaced by the move of the stack pointer that it stands for. -/
theorem eliminateCallPseudo_outcome (options : Options) (id : BlockId) (index : Nat)
    (function : Function) :
    (∃ reason, (eliminateCallPseudo options id index).run function = .error reason function) ∨
      ∃ block instr expansion, function.block? id = some block ∧
        block.instrs[index]? = some instr ∧
        expandCallPseudo options function.frame.hasReservedCallFrame instr = .ok expansion ∧
        (eliminateCallPseudo options id index).run function = .ok (index + expansion.length)
          (function.modifyBlock id fun same =>
            { same with
              instrs := block.instrs.take index ++ expansion ++
                block.instrs.drop (index + 1) }) := by
  rcases Pass.Reads.instruction id index function with ⟨instr, instrRan⟩ | ⟨reason, stopped⟩
  · obtain ⟨block, found, present⟩ := Pass.run_instruction_eq_ok instrRan
    obtain ⟨instrsEq, lengthEq⟩ := eq_take_append_cons_drop present
    have ran := run_eliminateCallPseudo options found (block.instrs.take index) instr
      (block.instrs.drop (index + 1))
    rw [← instrsEq, lengthEq, Function.withInstrs_self found] at ran
    cases expanded : expandCallPseudo options function.frame.hasReservedCallFrame instr with
    | error reason =>
        rw [expanded] at ran
        exact .inl ⟨reason, ran⟩
    | ok expansion =>
        rw [expanded] at ran
        refine .inr ⟨block, instr, expansion, found, present, expanded, ?_⟩
        rw [List.append_assoc]
        exact ran
  · exact .inl ⟨reason, Pass.run_bind_of_error stopped _⟩

/-! ## Saving and restoring registers -/

/-- Instructions are inserted into a block that is there, before one of its instructions or behind
the last. -/
theorem Pass.insertInstructions_outcome (id : BlockId) (index : Nat) (added : List Instr)
    (function : Function) :
    ((∀ block, function.block? id = some block → block.instrs.length < index) ∧
        ∃ reason, (insertInstructions id index added).run function = .error reason function) ∨
      ∃ block, function.block? id = some block ∧ index ≤ block.instrs.length ∧
        (insertInstructions id index added).run function = .ok ()
          (function.modifyBlock id fun same =>
            { same with
              instrs := block.instrs.take index ++ added ++ block.instrs.drop index }) := by
  cases found : function.block? id with
  | none => exact .inl ⟨nofun, _, run_bind_of_error (run_block_of_none found) _⟩
  | some block =>
      by_cases inside : index ≤ block.instrs.length
      · have ran := run_insertInstructions found (block.instrs.take index)
          (block.instrs.drop index) added
        rw [List.take_append_drop, List.length_take_of_le inside, Function.withInstrs_self found,
          ← List.append_assoc] at ran
        exact .inr ⟨block, rfl, inside, ran⟩
      · refine .inl ⟨?_, .outOfRange index block.instrs.length, ?_⟩
        · rintro _ ⟨⟩
          exact Nat.lt_of_not_le inside
        · refine (run_bind_of_ok (run_block_of_some found) _).trans ?_
          dsimp only
          rw [insertAt, if_neg inside]
          rfl

/-- Registers are restored where instructions can be inserted. -/
theorem restoreRegisters_outcome (id : BlockId) (index : Nat) (registers : List Register)
    (function : Function) :
    ((∀ block, function.block? id = some block → block.instrs.length < index) ∧
        ∃ reason, (restoreRegisters id index registers).run function = .error reason function) ∨
      (registers = [] ∧ (restoreRegisters id index registers).run function = .ok false function) ∨
      ∃ block, function.block? id = some block ∧
        (restoreRegisters id index registers).run function = .ok true
          (function.modifyBlock id fun same =>
            { same with
              instrs := block.instrs.take index ++ restoreInstrs registers ++
                block.instrs.drop index }) := by
  rw [restoreRegisters]
  split
  next isEmpty => exact .inr (.inl ⟨List.isEmpty_iff.mp isEmpty, rfl⟩)
  next =>
    rw [EStateM.run_bind]
    rcases Pass.insertInstructions_outcome id index (restoreInstrs registers) function with
      ⟨outside, reason, stopped⟩ | ⟨block, found, -, inserted⟩
    · rw [stopped]
      exact .inl ⟨outside, reason, rfl⟩
    · rw [inserted]
      exact .inr (.inr ⟨block, found, rfl⟩)

/-- Registers are saved where instructions can be inserted. Their size is recorded first, and it
stays recorded if they cannot be saved. -/
theorem saveRegisters_outcome (id : BlockId) (index : Nat) (registers : List Register)
    (function : Function) :
    (registers = [] ∧ (saveRegisters id index registers).run function = .ok false function) ∨
      registers ≠ [] ∧
        (((∀ block, function.block? id = some block → block.instrs.length < index) ∧
            ∃ reason, (saveRegisters id index registers).run function =
              .error reason { function with calleeSavedSize := savedSize registers }) ∨
          ∃ block, function.block? id = some block ∧ index ≤ block.instrs.length ∧
            (saveRegisters id index registers).run function = .ok true
              (({ function with calleeSavedSize := savedSize registers }.modifyBlock id
                  fun same => { same with
                    instrs := block.instrs.take index ++ saveInstrs registers ++
                      block.instrs.drop index }).modifyBlock id
                fun block => registers.foldl Block.addLiveIn block)) := by
  rw [saveRegisters]
  split
  next isEmpty => exact .inl ⟨List.isEmpty_iff.mp isEmpty, rfl⟩
  next notEmpty =>
    refine .inr ⟨fun empty => notEmpty (List.isEmpty_iff.mpr empty), ?_⟩
    rw [EStateM.run_bind, EStateM.run_modify]
    dsimp only
    rw [EStateM.run_bind]
    rcases Pass.insertInstructions_outcome id index (saveInstrs registers)
        { function with calleeSavedSize := savedSize registers } with
      ⟨outside, reason, stopped⟩ | ⟨block, found, inside, inserted⟩
    · rw [stopped]
      exact .inl ⟨outside, reason, rfl⟩
    · rw [inserted]
      exact .inr ⟨block, found, inside, rfl⟩

/-! ## What passes preserve -/

namespace Pass

variable {result other : Type} {invariant : Function → Prop}

/-- The function that a pass leaves, whether it succeeds or stops. -/
def leaves (pass : Pass result) (function : Function) : Function :=
  match pass.run function with
  | .ok _ final => final
  | .error _ stopped => stopped

theorem leaves_of_ok {pass : Pass result} {function final : Function} {value : result}
    (ran : pass.run function = .ok value final) : pass.leaves function = final := by
  rw [leaves, ran]

theorem leaves_of_error {pass : Pass result} {function stopped : Function} {reason : CodeError}
    (failed : pass.run function = .error reason stopped) : pass.leaves function = stopped := by
  rw [leaves, failed]

theorem leaves_discard (pass : Pass result) (function : Function) :
    (discard pass : Pass Unit).leaves function = pass.leaves function := by
  change (pass >>= fun _ => pure () : Pass Unit).leaves function = pass.leaves function
  rw [leaves, leaves, EStateM.run_bind]
  cases pass.run function <;> rfl

/-- A pass that preserves an invariant, whether it succeeds or stops. -/
def Preserves (invariant : Function → Prop) (pass : Pass result) : Prop :=
  ∀ function, invariant function → invariant (pass.leaves function)

theorem Reads.preserves {pass : Pass result} (reads : pass.Reads) : pass.Preserves invariant := by
  intro function holds
  rcases reads function with ⟨value, ran⟩ | ⟨reason, stopped⟩
  · rwa [leaves, ran]
  · rwa [leaves, stopped]

namespace Preserves

theorem modify {change : Function → Function}
    (changed : ∀ function, invariant function → invariant (change function)) :
    (modify change : Pass Unit).Preserves invariant :=
  changed

theorem bind {first : Pass other} {rest : other → Pass result}
    (here : first.Preserves invariant) (there : ∀ value, (rest value).Preserves invariant) :
    (first >>= rest).Preserves invariant := by
  intro function holds
  have between := here function holds
  rw [leaves, EStateM.run_bind]
  cases ran : first.run function with
  | error reason stopped =>
      rw [leaves, ran] at between
      exact between
  | ok value intermediate =>
      rw [leaves, ran] at between
      exact there value intermediate between

theorem discard_iff {pass : Pass result} :
    (discard pass : Pass Unit).Preserves invariant ↔ pass.Preserves invariant := by
  simp only [Preserves, leaves_discard]

theorem discard {pass : Pass result} (preserves : pass.Preserves invariant) :
    (discard pass : Pass Unit).Preserves invariant :=
  discard_iff.mpr preserves

end Preserves

end Pass

theorem Frame.addFixedObject_fst (frame : Frame) (object : FrameObject) :
    (frame.addFixedObject object).1 = (frame.addFixedObject object).2.lowestIndex := by
  simp [addFixedObject, lowestIndex, fixedIndex]

/-- With a frame pointer, the frame gets one more fixed object. That never stops the call, because
the object gets the lowest index. -/
theorem run_addFramePointerSlot (options : Options) (function : Function) :
    (addFramePointerSlot options).run function = .ok ()
      (if function.frame.hasFramePointer options then
        { function.decided options with
          frame := ((function.decided options).frame.addFixedObject framePointerSlot).2 }
      else function.decided options) := by
  rw [addFramePointerSlot, run_decideFramePointer_bind]
  cases function.frame.hasFramePointer options with
  | false => rfl
  | true =>
      rw [if_pos rfl, if_pos rfl, EStateM.run_bind, EStateM.run_get]
      dsimp only
      rw [EStateM.run_bind, EStateM.run_modify]
      dsimp only
      rw [if_neg (not_not_intro (Frame.addFixedObject_fst _ _))]
      rfl

theorem addFramePointerSlot_leaves (options : Options) (function : Function) :
    ∃ fixedObjects, function.frame.fixedObjects <+: fixedObjects ∧
      (addFramePointerSlot options).leaves function =
        { function.decided options with
          frame := { (function.decided options).frame with fixedObjects } } := by
  rw [Pass.leaves_of_ok (run_addFramePointerSlot options function)]
  cases function.frame.hasFramePointer options with
  | false => exact ⟨_, List.prefix_rfl, rfl⟩
  | true =>
      exact ⟨function.frame.fixedObjects ++ [framePointerSlot], List.prefix_append _ _, rfl⟩

/-! ## Runs -/

/-- A call that changes the flags of a frame, asks about it, or carries out a step of lowering. -/
inductive Hook where
  | setVarSizedObjects (hasVarSizedObjects : Bool)
  | setAddressTaken (isAddressTaken : Bool)
  | readFramePointer
  | readFrameRegister
  | readReservedRegisters
  | addFramePointerSlot
  | save (id : BlockId) (index : Nat) (registers : List Register)
  | restore (id : BlockId) (index : Nat) (registers : List Register)
  | prologue (id : BlockId)
  | epilogue (id : BlockId)
  | callPseudo (id : BlockId) (index : Nat)
  | slot (id : BlockId) (index position : Nat) (stackAdjustment : Int64)
  deriving DecidableEq, Repr

/-- What a call does. -/
def Hook.pass (options : Options) : Hook → Pass Unit
  | .setVarSizedObjects hasVarSizedObjects =>
      modify fun function =>
        { function with frame := { function.frame with hasVarSizedObjects } }
  | .setAddressTaken isAddressTaken =>
      modify fun function => { function with frame := { function.frame with isAddressTaken } }
  | .readFramePointer => discard (decideFramePointer options)
  | .readFrameRegister => discard (MachineCode.readFrameRegister options)
  | .readReservedRegisters => discard (MachineCode.readReservedRegisters options)
  | .addFramePointerSlot => MachineCode.addFramePointerSlot options
  | .save id index registers => discard (saveRegisters id index registers)
  | .restore id index registers => discard (restoreRegisters id index registers)
  | .prologue id => emitPrologue options id
  | .epilogue id => emitEpilogue options id
  | .callPseudo id index => discard (eliminateCallPseudo options id index)
  | .slot id index position stackAdjustment =>
      eliminateSlot options id index position stackAdjustment

/-- A call with its options, which may differ from one call to the next. -/
structure HookCall where
  options : Options := {}
  hook : Hook

def HookCall.leaves (call : HookCall) (function : Function) : Function :=
  (call.hook.pass call.options).leaves function

/-- The function after some calls. A call that stops does not stop the run. -/
def Function.after (function : Function) (calls : List HookCall) : Function :=
  calls.foldl (fun reached call => call.leaves reached) function

@[simp] theorem Function.after_nil (function : Function) : function.after [] = function := rfl

@[simp] theorem Function.after_cons (function : Function) (call : HookCall)
    (calls : List HookCall) : function.after (call :: calls) = (call.leaves function).after calls :=
  rfl

theorem Function.after_append (function : Function) (first second : List HookCall) :
    function.after (first ++ second) = (function.after first).after second :=
  List.foldl_append

/-- What every call preserves, every run preserves. -/
theorem Function.after_preserves {invariant : Function → Prop}
    (each : ∀ options hook, (Hook.pass options hook).Preserves invariant) {function : Function}
    (initially : invariant function) (calls : List HookCall) :
    invariant (function.after calls) := by
  induction calls generalizing function with
  | nil => exact initially
  | cons call rest ih => exact ih (each call.options call.hook function initially)

end MachineCode
