import MachineCode.Proofs.Frame.Shape
import MachineCode.Proofs.Frame.Slot

/-!
# What frame lowering leaves

The code of a lowered function is finished: no call sequence pseudo and no frame slot is left, and
every branch leads to a block that exists. The passes behind lowering rely on that.
-/

namespace MachineCode

/-! ## Single instructions -/

theorem isPlain_adjust {opcode : Opcode} (isOffset : opcode = .add16ri ∨ opcode = .sub16ri)
    (reg : Reg) (amount : Int64) : (Instr.adjust opcode reg amount).isPlain = true := by
  rcases isOffset with rfl | rfl
  · rfl
  · rfl

theorem isPlain_iff {instr : Instr} :
    instr.isPlain = true ↔ instr.isCallPseudo = false ∧
      ∀ (position : Nat) (index : FrameIndex),
        instr.operands[position]? ≠ some (.frameIndex index) := by
  rw [Instr.isPlain, Bool.and_eq_true, Bool.not_eq_true', List.all_eq_true]
  refine and_congr_right fun _ => ⟨?_, ?_⟩
  · intro noSlot position index found
    have isNone := noSlot _ (List.mem_of_getElem? found)
    contradiction
  · intro noSlot operand member
    obtain ⟨position, found⟩ := List.mem_iff_getElem?.mp member
    cases operand with
    | frameIndex index => exact (noSlot position index found).elim
    | _ => rfl

/-- A slot behind a replacement that is no slot was there before, at another position. -/
theorem slot_of_set {operands : List Operand} {replacement : Operand} {place position : Nat}
    {index : FrameIndex} (noSlot : replacement.frameIndex? = none)
    (found : (operands.set place replacement)[position]? = some (.frameIndex index)) :
    position ≠ place ∧ operands[position]? = some (.frameIndex index) := by
  by_cases same : place = position
  · subst same
    rw [List.getElem?_set_self'] at found
    obtain ⟨_, -, replaced⟩ := Option.map_eq_some_iff.mp found
    cases replaced
    contradiction
  · rw [List.getElem?_set_ne same] at found
    exact ⟨Ne.symm same, found⟩

/-- Resolving a slot removes it and adds no other. -/
theorem slot_of_resolveSlot {frame : Frame} {keeps : Bool} {instr : Instr} {place position : Nat}
    {resolved : ResolvedSlot} {index : FrameIndex}
    (ran : resolveSlot frame keeps instr place = .ok resolved)
    (found : resolved.instr.operands[position]? = some (.frameIndex index)) :
    position ≠ place ∧ instr.operands[position]? = some (.frameIndex index) := by
  obtain ⟨_, _, _, -, -, -, ⟨_, _, -, -, rfl⟩ | ⟨-, rfl⟩⟩ := resolveSlot_eq_ok ran
  · rw [List.getElem?_take] at found
    split at found
    · exact slot_of_set rfl found
    · contradiction
  · exact slot_of_set rfl (slot_of_set rfl found).2

theorem isPlain_of_resolveSlots {frame : Frame} {keeps : Bool} {adjustment last : Int64}
    {following items : List Instr} {instr : Instr} {positions : List Nat}
    (noPseudo : instr.isCallPseudo = false)
    (covered : ∀ position index, instr.operands[position]? = some (.frameIndex index) →
      position ∈ positions)
    (plain : ∀ item ∈ following, item.isPlain = true)
    (ran : resolveSlots frame keeps adjustment following instr positions = .done items last) :
    ∀ item ∈ items, item.isPlain = true := by
  induction positions generalizing following instr with
  | nil =>
      cases ran
      refine List.forall_mem_cons.mpr ⟨isPlain_iff.mpr ⟨noPseudo, ?_⟩, plain⟩
      intro position index found
      exact List.not_mem_nil (covered position index found)
  | cons place rest ih =>
      obtain ⟨resolved, resolvedRan, restRan⟩ := resolveSlots_cons_eq_done ran
      have resolves := resolves_of_resolveSlot resolvedRan
      refine ih ?_ ?_ ?_ restRan
      · rw [Instr.isCallPseudo] at noPseudo ⊢
        rw [← noPseudo]
        exact resolves.opcode_congr
          (fun opcode => opcode == .adjCallStackDown || opcode == .adjCallStackUp) rfl
      · intro position index found
        obtain ⟨elsewhere, original⟩ := slot_of_resolveSlot resolvedRan found
        exact (List.mem_cons.mp (covered position index original)).resolve_left elsewhere
      · intro item member
        rcases List.mem_append.mp member with added | earlier
        · obtain ⟨opcode, reg, amount, isOffset, rfl, -⟩ := resolves.following item added
          exact isPlain_adjust isOffset reg amount
        · exact plain item earlier

/-- What the sweep makes of an instruction is plain. -/
theorem isPlain_of_lowerInstr {options : Options} {frame : Frame} {keeps : Bool}
    {adjustment last : Int64} {instr : Instr} {items : List Instr}
    (ran : lowerInstr options frame keeps adjustment instr = .done items last) :
    ∀ item ∈ items, item.isPlain = true := by
  rcases lowerInstr_eq_done ran with ⟨-, expanded⟩ | ⟨noPseudo, -⟩
  · intro item member
    obtain ⟨opcode, amount, isOffset, rfl⟩ := exists_adjust_of_mem_expansion expanded member
    exact isPlain_adjust isOffset _ amount
  · rw [lowerInstr, noPseudo, if_neg Bool.false_ne_true] at ran
    exact isPlain_of_resolveSlots noPseudo
      (fun position index found => mem_slotPositions.mpr ⟨index, found⟩) (by simp) ran

/-- What the sweep makes of an instruction leads to no other block. -/
theorem target_of_lowerInstr {options : Options} {frame : Frame} {keeps : Bool}
    {adjustment last : Int64} {instr item : Instr} {items : List Instr} {target : BlockId}
    (ran : lowerInstr options frame keeps adjustment instr = .done items last)
    (member : item ∈ items) (targets : item.operands[0]? = some (.block target)) :
    instr.operands[0]? = some (.block target) := by
  rcases lowerInstr_eq_done ran with ⟨-, expanded⟩ | ⟨-, resolved, following, rfl, resolves⟩
  · obtain ⟨_, _, -, rfl⟩ := exists_adjust_of_mem_expansion expanded member
    cases targets
  · rcases List.mem_cons.mp member with rfl | added
    · exact resolves.branchTarget targets
    · obtain ⟨_, _, _, -, rfl, -⟩ := resolves.following item added
      cases targets

/-! ## Blocks -/

theorem mem_withRestores {registers : List Register} {instrs : List Instr} {instr : Instr}
    (member : instr ∈ withRestores registers instrs) :
    instr ∈ instrs ∨ instr ∈ restoreInstrs registers := by
  rw [withRestores, List.mem_append, List.mem_append] at member
  rcases member with (front | restores) | back
  · exact .inl (List.mem_of_mem_take front)
  · exact .inr restores
  · exact .inl (List.mem_of_mem_drop back)

theorem mem_withPrologue {keeps : Bool} {localArea : UInt64} {instrs : List Instr} {instr : Instr}
    (member : instr ∈ withPrologue keeps localArea instrs) :
    instr ∈ instrs ∨ instr ∈ entryCode keeps [] localArea := by
  rw [withPrologue, List.mem_append, List.mem_append, List.mem_append] at member
  rw [entryCode, List.mem_append, List.mem_append]
  rcases member with ((setup | pushes) | allocates) | body
  · exact .inr (.inl (.inl setup))
  · exact .inl ((List.takeWhile_prefix _).mem pushes)
  · exact .inr (.inr allocates)
  · exact .inl ((List.dropWhile_suffix _).mem body)

theorem mem_withEpilogue {keeps : Bool} {releasing instrs : List Instr} {instr : Instr}
    (member : instr ∈ withEpilogue keeps releasing instrs) :
    instr ∈ instrs ∨ instr ∈ exitCode keeps [] releasing := by
  have beforeReturn : instr ∈ instrs.dropLast ++ (if keeps then [.pop .fp] else []) →
      instr ∈ instrs ∨ instr ∈ exitCode keeps [] releasing := by
    intro inFront
    rcases List.mem_append.mp inFront with front | framePointer
    · exact .inl ((List.dropLast_sublist _).mem front)
    · exact .inr (List.mem_append_right releasing framePointer)
  rw [withEpilogue, List.mem_append, List.mem_append, List.mem_append, List.mem_reverse,
    List.mem_reverse] at member
  rcases member with ((body | releases) | tail) | last
  · exact beforeReturn (List.mem_reverse.mp ((List.dropWhile_suffix _).mem body))
  · exact .inr (List.mem_append_left _ releases)
  · exact beforeReturn (List.mem_reverse.mp ((List.takeWhile_prefix _).mem tail))
  · exact .inl (List.mem_of_getLast? (Option.mem_toList.mp last))

/-- What holds of a body and of the instructions that the stages insert holds of the body inside its
frame code. -/
theorem forall_mem_framedInstrs {property : Instr → Prop}
    (push : ∀ register, property (.push register)) (pop : ∀ register, property (.pop register))
    (copy : ∀ target source, property (.copy target source))
    (lower : ∀ amount, property (.lowerStack amount))
    (raise : ∀ amount, property (.raiseStack amount)) {keeps isEntry isReturning : Bool}
    {registers : List Register} {localArea savedBytes : UInt64} {hasVarSizedObjects : Bool}
    {instrs : List Instr} (body : ∀ instr ∈ instrs, property instr) :
    ∀ instr ∈ framedInstrs keeps registers localArea
      (release hasVarSizedObjects savedBytes localArea) isEntry isReturning instrs,
      property instr := by
  have entering := fun saved => forall_mem_entryCode push copy lower keeps saved localArea
  have exiting := fun saved => forall_mem_exitCode pop copy lower raise keeps saved
    hasVarSizedObjects savedBytes localArea
  have saved (list : List Instr) (holds : ∀ instr ∈ list, property instr) :
      ∀ instr ∈ saveInstrs registers ++ list, property instr := by
    intro instr member
    rcases List.mem_append.mp member with saves | inList
    · exact entering registers instr (List.mem_append_left _ (List.mem_append_right _ saves))
    · exact holds instr inList
  have restored (list : List Instr) (holds : ∀ instr ∈ list, property instr) :
      ∀ instr ∈ withRestores registers list, property instr := by
    intro instr member
    rcases mem_withRestores member with inList | restores
    · exact holds instr inList
    · exact exiting registers instr (List.mem_append_right _ (List.mem_append_left _ restores))
  have entered (list : List Instr) (holds : ∀ instr ∈ list, property instr) :
      ∀ instr ∈ withPrologue keeps localArea list, property instr := by
    intro instr member
    exact (mem_withPrologue member).elim (holds instr) (entering [] instr)
  have left (list : List Instr) (holds : ∀ instr ∈ list, property instr) :
      ∀ instr ∈ withEpilogue keeps (release hasVarSizedObjects savedBytes localArea) list,
        property instr := by
    intro instr member
    exact (mem_withEpilogue member).elim (holds instr) (exiting [] instr)
  cases isEntry with
  | false =>
      cases isReturning with
      | false => exact body
      | true => exact left _ (restored _ body)
  | true =>
      cases isReturning with
      | false => exact entered _ (saved _ body)
      | true => exact left _ (entered _ (restored _ (saved _ body)))

/-- What a sweep leaves comes from one of its steps. -/
theorem Sweep.exists_step_of_mem {item state : Type} {step : state → item → Sweep item state}
    {current last : state} {list items : List item} {made : item}
    (ran : run step current list = done items last) (member : made ∈ items) :
    ∃ reached next, ∃ head ∈ list, ∃ finished, step reached head = done finished next ∧
      made ∈ finished := by
  induction list generalizing current items with
  | nil =>
      cases ran
      contradiction
  | cons head rest ih =>
      obtain ⟨next, finished, remaining, stepped, swept, rfl⟩ := run_cons_eq_done ran
      rcases List.mem_append.mp member with here | there
      · exact ⟨current, next, head, List.mem_cons_self .., finished, stepped, here⟩
      · obtain ⟨reached, later, source, inRest, others, otherStepped, inOthers⟩ := ih swept there
        exact ⟨reached, later, source, List.mem_cons_of_mem head inRest, others, otherStepped,
          inOthers⟩

/-! ## Functions -/

/-- Where an instruction starts with a block, the block is one of the first of a function. -/
def Instr.TargetsBelow (blockCount : Nat) (instr : Instr) : Prop :=
  ∀ target, instr.operands[0]? = some (.block target) → target < blockCount

/-- All branches of a function lead to its blocks. -/
def TargetsExist (blocks : List Block) : Prop :=
  ∀ block ∈ blocks, ∀ instr ∈ block.instrs, instr.TargetsBelow blocks.length

/-- What the passes behind lowering rely on: the sweep has nothing left to do, and all branches lead
to existing blocks. -/
structure AreFinished (blocks : List Block) : Prop where
  plain : ∀ block ∈ blocks, ∀ instr ∈ block.instrs, instr.isPlain = true
  targets : TargetsExist blocks

theorem LowersTo.length_blocks {options : Options} {function lowered : Function} {keeps : Bool}
    {localArea : UInt64} (lowers : LowersTo options function lowered keeps localArea) :
    lowered.blocks.length = function.blocks.length := by
  apply Nat.le_antisymm
  · by_contra longer
    have inside := List.getElem?_eq_getElem (Nat.lt_of_not_le longer)
    obtain ⟨_, found, -⟩ := lowers.exists_original inside
    exact Nat.lt_irrefl _ (List.getElem?_eq_some_iff.mp found).1
  · by_contra shorter
    have inside := List.getElem?_eq_getElem (Nat.lt_of_not_le shorter)
    obtain ⟨_, found, -⟩ := lowers.exists_block inside
    exact Nat.lt_irrefl _ (List.getElem?_eq_some_iff.mp found).1

theorem nonempty_of_run_lowerFrame {options : Options} {function lowered : Function} {block : Block}
    (ran : (lowerFrame options).run function = .ok () lowered) (isBlock : block ∈ lowered.blocks) :
    function.blocks ≠ [] := by
  intro empty
  rw [blocks_of_run_lowerFrame_nil ran empty] at isBlock
  contradiction

/-- Every instruction of a lowered function has been made by the sweep from an instruction of a
block inside its frame code. -/
theorem LowersTo.exists_step {options : Options} {function lowered : Function} {keeps : Bool}
    {localArea : UInt64} {block : Block} {item : Instr}
    (lowers : LowersTo options function lowered keeps localArea)
    (isBlock : block ∈ lowered.blocks) (isInstr : item ∈ block.instrs) :
    ∃ original ∈ function.blocks, ∃ isEntry, ∃ instr ∈ framedInstrs keeps function.calleeSaved
        localArea (release function.frame.hasVarSizedObjects function.savedBytes localArea)
        isEntry original.isReturning original.instrs,
      ∃ adjustment next finished,
        lowerInstr options lowered.frame keeps adjustment instr = .done finished next ∧
        item ∈ finished := by
  obtain ⟨id, found⟩ := List.mem_iff_getElem?.mp isBlock
  obtain ⟨original, originalFound, _, swept⟩ := lowers.exists_original found
  obtain ⟨adjustment, next, instr, isFramed, finished, stepped, isFinished⟩ :=
    Sweep.exists_step_of_mem swept isInstr
  exact ⟨original, List.mem_of_getElem? originalFound, _, instr, isFramed, adjustment, next,
    finished, stepped, isFinished⟩

theorem isPlain_of_run_lowerFrame {options : Options} {function lowered : Function}
    (ran : (lowerFrame options).run function = .ok () lowered) :
    ∀ block ∈ lowered.blocks, ∀ instr ∈ block.instrs, instr.isPlain = true := by
  intro block isBlock item isInstr
  obtain ⟨localArea, lowers⟩ := exists_lowersTo ran (nonempty_of_run_lowerFrame ran isBlock) rfl
  obtain ⟨_, -, _, _, -, _, _, _, stepped, isFinished⟩ := lowers.exists_step isBlock isInstr
  exact isPlain_of_lowerInstr stepped item isFinished

/-- Lowering leads no branch to another block than before. -/
theorem targetsExist_of_run_lowerFrame {options : Options} {function lowered : Function}
    (exist : TargetsExist function.blocks)
    (ran : (lowerFrame options).run function = .ok () lowered) : TargetsExist lowered.blocks := by
  intro block isBlock item isInstr
  obtain ⟨localArea, lowers⟩ := exists_lowersTo ran (nonempty_of_run_lowerFrame ran isBlock) rfl
  obtain ⟨original, isOriginal, isEntry, instr, isFramed, _, _, _, stepped, isFinished⟩ :=
    lowers.exists_step isBlock isInstr
  have below : instr.TargetsBelow function.blocks.length := by
    refine forall_mem_framedInstrs ?_ ?_ ?_ ?_ ?_ (exist original isOriginal) instr isFramed
    · rintro _ _ ⟨⟩
    · rintro _ _ ⟨⟩
    · rintro _ _ _ ⟨⟩
    · rintro _ _ ⟨⟩
    · rintro _ _ ⟨⟩
  intro target targets
  rw [lowers.length_blocks]
  exact below target (target_of_lowerInstr stepped isFinished targets)

end MachineCode
