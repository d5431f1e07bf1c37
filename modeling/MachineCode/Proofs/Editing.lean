import MachineCode.Pass

/-!
# Edits in range

An edit by position is refused behind the end of a list. For a list that is cut at the position,
every edit has a plain result, and the same holds for the edits of a block that is there. All later
results about passes use these equations.
-/

namespace MachineCode

/-! ## Lists -/

section Lists

variable {item : Type}

@[simp] theorem itemAt_append (front : List item) (head : item) (back : List item) :
    itemAt (front ++ head :: back) front.length = .ok head := by
  simp [itemAt]

@[simp] theorem lastPosition_append (front : List item) (last : item) :
    lastPosition (front ++ [last]) = .ok front.length := by
  simp [lastPosition]

@[simp] theorem insertAt_append (front back added : List item) :
    insertAt (front ++ back) front.length added = .ok (front ++ (added ++ back)) := by
  simp [insertAt]

@[simp] theorem replaceAt_append (front : List item) (head : item)
    (back replacement : List item) :
    replaceAt (front ++ head :: back) front.length replacement =
      .ok (front ++ (replacement ++ back)) := by
  simp [replaceAt]

theorem eq_take_append_cons_drop {items : List item} {index : Nat} {head : item}
    (found : items[index]? = some head) :
    items = items.take index ++ head :: items.drop (index + 1) ∧
      (items.take index).length = index := by
  obtain ⟨inside, rfl⟩ := List.getElem?_eq_some_iff.mp found
  refine ⟨?_, List.length_take_of_le (Nat.le_of_lt inside)⟩
  rw [← List.drop_eq_getElem_cons inside, List.take_append_drop]

/-- A row is followed up to the first item without the property. -/
theorem rowEnd_append (property : item → Bool) (front rest : List item) :
    rowEnd property (front ++ rest) rest.length front.length =
      .ok (front.length + (rest.takeWhile property).length) := by
  induction rest generalizing front with
  | nil => rfl
  | cons head rest ih =>
      have advanced := ih (front ++ [head])
      rw [List.append_assoc, List.singleton_append, List.length_append,
        List.length_singleton] at advanced
      rw [List.length_cons, rowEnd, itemAt_append]
      change (if property head then _ else _) = _
      cases has : property head with
      | false => simp [has]
      | true =>
          rw [if_pos rfl, advanced, List.takeWhile_cons_of_pos has, List.length_cons]
          exact congrArg _ (by omega)

/-- A row is followed backwards up to the last item without the property. -/
theorem rowStart_append (property : item → Bool) (front back : List item) :
    rowStart property (front ++ back) front.length =
      .ok (front.reverse.dropWhile property).length := by
  generalize reversed : front.reverse = row
  induction row generalizing front back with
  | nil =>
      rw [List.reverse_eq_nil_iff.mp reversed]
      rfl
  | cons last row ih =>
      have frontEq : front = row.reverse ++ [last] := by
        rw [← List.reverse_cons, ← reversed, List.reverse_reverse]
      have earlier := ih row.reverse (last :: back) row.reverse_reverse
      rw [frontEq, List.append_assoc, List.singleton_append, List.length_append,
        List.length_singleton, rowStart, itemAt_append]
      change (if property last then _ else _) = _
      cases has : property last with
      | false => simp [has]
      | true => rw [if_pos rfl, earlier, List.dropWhile_cons_of_pos has]

end Lists

/-- The terminators that end a block are found without leaving it. -/
theorem Block.firstTerminator_eq (block : Block) :
    block.firstTerminator =
      .ok (block.instrs.length - (block.instrs.reverse.takeWhile Instr.isTerminator).length) := by
  have found := rowStart_append Instr.isTerminator block.instrs []
  have split : (block.instrs.reverse.takeWhile Instr.isTerminator).length +
      (block.instrs.reverse.dropWhile Instr.isTerminator).length = block.instrs.length := by
    rw [← List.length_append, List.takeWhile_append_dropWhile, List.length_reverse]
  rw [List.append_nil] at found
  rw [firstTerminator, found]
  exact congrArg _ (by omega)

/-! ## Blocks -/

namespace Function

def withInstrs (function : Function) (id : BlockId) (instrs : List Instr) : Function :=
  function.modifyBlock id fun block => { block with instrs }

variable {function : Function} {id : BlockId} {block : Block}

@[simp] theorem length_blocks_withInstrs (instrs : List Instr) :
    (function.withInstrs id instrs).blocks.length = function.blocks.length :=
  List.length_modify ..

@[simp] theorem withInstrs_withInstrs (first second : List Instr) :
    (function.withInstrs id first).withInstrs id second = function.withInstrs id second := by
  rw [withInstrs, withInstrs, withInstrs, modifyBlock, modifyBlock, modifyBlock,
    List.modify_modify_eq]
  rfl

theorem withInstrs_self (found : function.block? id = some block) :
    function.withInstrs id block.instrs = function := by
  have same : function.blocks.modify id (fun other => { other with instrs := block.instrs }) =
      function.blocks := by
    apply List.ext_getElem?
    intro place
    rw [List.getElem?_modify]
    by_cases here : id = place
    · subst here
      rw [show function.blocks[id]? = some block from found]
      simp
    · simp [here]
  rw [withInstrs, modifyBlock, same]

theorem block?_withInstrs (found : function.block? id = some block) (instrs : List Instr) :
    (function.withInstrs id instrs).block? id = some { block with instrs } := by
  rw [withInstrs, block?_modifyBlock, found]
  simp

theorem blocks_ne_nil_of_block? (found : function.block? id = some block) :
    function.blocks ≠ [] := by
  intro empty
  rw [block?, empty] at found
  contradiction

theorem block?_append (function : Function) (front : List Block) (block : Block)
    (rest : List Block) :
    { function with blocks := front ++ block :: rest }.block? front.length = some block := by
  simp [block?]

theorem modifyBlock_append (function : Function) (front : List Block) (block : Block)
    (rest : List Block) (change : Block → Block) :
    { function with blocks := front ++ block :: rest }.modifyBlock front.length change =
      { function with blocks := front ++ change block :: rest } := by
  simp [modifyBlock, List.modify_eq_take_cons_drop]

end Function

/-! ## Passes -/

namespace Pass

variable {result other : Type} {function : Function} {id : BlockId} {block : Block}

/-- What follows a part of a pass works on what the part has left. -/
theorem run_bind_of_ok {first : Pass other} {start middle : Function} {value : other}
    (ran : first.run start = .ok value middle) (rest : other → Pass result) :
    (first >>= rest).run start = (rest value).run middle := by
  rw [EStateM.run_bind, ran]

theorem run_bind_of_error {first : Pass other} {start stopped : Function} {reason : CodeError}
    (failed : first.run start = .error reason stopped) (rest : other → Pass result) :
    (first >>= rest).run start = .error reason stopped := by
  rw [EStateM.run_bind, failed]

theorem run_block_withInstrs (found : function.block? id = some block) (instrs : List Instr) :
    (Pass.block id).run (function.withInstrs id instrs) =
      .ok { block with instrs } (function.withInstrs id instrs) :=
  run_block_of_some (Function.block?_withInstrs found instrs)

theorem run_instruction_withInstrs (found : function.block? id = some block) (front : List Instr)
    (instr : Instr) (back : List Instr) :
    (instruction id front.length).run (function.withInstrs id (front ++ instr :: back)) =
      .ok instr (function.withInstrs id (front ++ instr :: back)) := by
  rw [instruction, run_bind_of_ok (run_block_withInstrs found _)]
  simp only [List.getElem?_append_right (Nat.le_refl _), Nat.sub_self, List.getElem?_cons_zero]
  rfl

theorem run_editInstrs (found : function.block? id = some block)
    {edit : List Instr → Except CodeError (List Instr)} {instrs edited : List Instr}
    (edits : edit instrs = .ok edited) :
    (editInstrs id edit).run (function.withInstrs id instrs) =
      .ok () (function.withInstrs id edited) := by
  rw [editInstrs, run_bind_of_ok (run_block_withInstrs found instrs), edits,
    run_bind_of_ok (run_ofExcept_ok ..), run_setInstrs]
  exact congrArg _ (Function.withInstrs_withInstrs ..)

theorem run_insertInstructions (found : function.block? id = some block)
    (front back added : List Instr) :
    (insertInstructions id front.length added).run (function.withInstrs id (front ++ back)) =
      .ok () (function.withInstrs id (front ++ (added ++ back))) :=
  run_editInstrs found (insertAt_append ..)

theorem run_replaceInstruction (found : function.block? id = some block) (front : List Instr)
    (instr : Instr) (back replacement : List Instr) :
    (replaceInstruction id front.length replacement).run
        (function.withInstrs id (front ++ instr :: back)) =
      .ok () (function.withInstrs id (front ++ (replacement ++ back))) :=
  run_editInstrs found (replaceAt_append ..)

theorem run_editInstruction (found : function.block? id = some block)
    {edit : Instr → Except CodeError Instr} {instr edited : Instr} (edits : edit instr = .ok edited)
    (front back : List Instr) :
    (editInstruction id front.length edit).run (function.withInstrs id (front ++ instr :: back)) =
      .ok () (function.withInstrs id (front ++ edited :: back)) := by
  refine run_editInstrs found ?_
  rw [itemAt_append]
  change (edit instr >>= fun edited => _) = _
  rw [edits]
  exact replaceAt_append ..

theorem run_addLiveIn (found : function.block? id = some block) (register : Register) :
    (addLiveIn id register).run function =
      .ok () (function.modifyBlock id fun block => block.addLiveIn register) := by
  rw [addLiveIn, run_bind_of_ok (run_block_of_some found)]
  rfl

/-- Blocks that are visited one after the other all receive a register. -/
theorem run_forM_addLiveIn (register : Register) (front rest : List Block) (function : Function) :
    ((List.range' front.length rest.length).forM fun id => addLiveIn id register).run
        { function with blocks := front ++ rest } =
      .ok () { function with
        blocks := front ++ rest.map fun block => block.addLiveIn register } := by
  induction rest generalizing front with
  | nil => rfl
  | cons head rest ih =>
      have later := ih (front ++ [head.addLiveIn register])
      rw [List.append_assoc, List.append_assoc, List.length_append] at later
      have changed := run_addLiveIn (function.block?_append front head rest) register
      rw [Function.modifyBlock_append] at changed
      rw [List.length_cons, List.range'_succ]
      exact (run_bind_of_ok changed _).trans later

end Pass

end MachineCode
