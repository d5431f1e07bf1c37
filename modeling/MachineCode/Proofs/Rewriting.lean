import MachineCode.Compilation
import MachineCode.Proofs.Checked
import MachineCode.Proofs.Frame.Finished
import MachineCode.Proofs.Frame.Outline
import MachineCode.Proofs.Relaxation.Convergence
import MachineCode.Proofs.Relaxation.Solution

/-!
# What rewriting code keeps

The passes insert instructions of their own and edit those that they find, and when they stop, part
of the code has been rewritten and the rest has not. A property of single instructions that holds of
everything inserted and survives every edit holds all the same of the whole code after each pass.
The names of the function and of its blocks stay.
-/

namespace MachineCode

open Pass

/-! ## Invariants of compilation -/

theorem leaves_sweepBlocks {result : Type} (sweep : List Block → Sweep Block result)
    (function : Function) :
    (sweepBlocks sweep).leaves function =
      { function with blocks := (sweep function.blocks).items } := by
  rw [leaves, run_sweepBlocks]
  cases (sweep function.blocks).outcome <;> rfl

/-- An invariant that is preserved by every call of lowering and by every scan of relaxation. -/
structure IsPreserved (invariant : Function → Prop) : Prop where
  call : ∀ options hook, (Hook.pass options hook).Preserves invariant
  scan : ∀ sizes, (sweepBlocks (Relaxation.scanBlocks sizes)).Preserves invariant

namespace IsPreserved

variable {invariant : Function → Prop}

theorem lowerFrame (preserved : IsPreserved invariant) (options : Options) :
    (lowerFrame options).Preserves invariant :=
  lowerFrame_preserves_of_hooks (preserved.call options)

/-- Repeated scans start from the sizes of the blocks as they stand, so each of them is a sweep. -/
theorem scanUntilQuiet (preserved : IsPreserved invariant) (stats : Relaxation.Stats) (limit : Nat)
    {function : Function} (holds : invariant function) :
    invariant ((Relaxation.scanUntilQuiet (function.blocks.map Block.size) stats limit).leaves
      function) := by
  induction limit generalizing stats function with
  | zero => exact holds
  | succ limit ih =>
      have scanned := preserved.scan (function.blocks.map Block.size) function holds
      rw [Relaxation.scanUntilQuiet, leaves, EStateM.run_bind,
        Relaxation.run_visitBlocks_scanBody (List.length_map _)]
      cases ran : (sweepBlocks (Relaxation.scanBlocks (function.blocks.map Block.size))).run
        function with
      | error reason stopped => rwa [leaves_of_error ran] at scanned
      | ok scan swept =>
          rw [leaves_of_ok ran] at scanned
          obtain ⟨outcome, sweptEq⟩ := run_sweepBlocks_eq_ok ran
          obtain ⟨sizes, -, -⟩ := Relaxation.scanBlocks_progress outcome
          have sizesEq : scan.sizes = swept.blocks.map Block.size := by rw [sizes, sweptEq]
          dsimp only
          by_cases quiet : scan.expanded = 0
          · rw [if_pos quiet]
            exact scanned
          · rw [if_neg quiet, sizesEq]
            exact ih _ scanned

theorem relaxBranches (preserved : IsPreserved invariant) : relaxBranches.Preserves invariant := by
  intro function holds
  rw [leaves, run_relaxBranches]
  by_cases small : totalSize (function.blocks.map Block.size) < Relaxation.reach
  · rw [if_pos small]
    exact holds
  · rw [if_neg small]
    exact preserved.scanUntilQuiet _ _ holds

theorem compileFunction (preserved : IsPreserved invariant) (options : Options) :
    (compileFunction options).Preserves invariant := by
  refine (preserved.lowerFrame options).bind fun _ => ?_
  refine preserved.relaxBranches.bind fun _ => ?_
  refine Reads.get.preserves.bind fun function => ?_
  exact (Reads.ofExcept _).preserves.bind fun _ => (Reads.pure _).preserves

end IsPreserved

/-! ## Names -/

/-- The later function and its blocks have the names of the earlier ones. -/
structure KeepsNames (earlier later : Function) : Prop where
  name : later.name = earlier.name
  labels : later.blocks.map Block.name = earlier.blocks.map Block.name

theorem KeepsNames.isStable (earlier : Function) : IsStable (KeepsNames earlier) where
  decided _ keeps := { keeps with }
  withBlocks sameLabels keeps := { keeps with labels := sameLabels.trans keeps.labels }
  withFlags _ _ _ keeps := { keeps with }
  withFixedObjects _ keeps := { keeps with }

theorem KeepsNames.isPreserved (earlier : Function) : IsPreserved (KeepsNames earlier) where
  call options hook := (isStable earlier).hook options hook fun id index registers _ =>
    (isStable earlier).saveRegisters (fun _ _ keeps => { keeps with }) id index registers
  scan sizes function keeps := by
    rw [leaves_sweepBlocks, Relaxation.items_scanBlocks]
    exact (isStable earlier).withBlocks (Sweep.map_items_run (fun _ _ => rfl) _ _) keeps

/-! ## Instructions -/

/-- A property that holds of every instruction that a pass inserts, and that an instruction does not
lose when one of its slots is resolved or when it is expanded. -/
structure SurvivesRewriting (property : Instr → Prop) : Prop where
  push : ∀ register, property (.push register)
  pop : ∀ register, property (.pop register)
  copy : ∀ target source, property (.copy target source)
  adjust : ∀ opcode reg amount, property (.adjust opcode reg amount)
  resolve : ∀ {frame keeps instr position resolved}, property instr →
    resolveSlot frame keeps instr position = .ok resolved → property resolved.instr
  expand : ∀ {blockCount instr target long}, property instr →
    Relaxation.branchTarget blockCount instr = .ok target →
    Relaxation.longForm instr target = .ok long → ∀ item ∈ long, property item

/-- Every instruction of a block has a property. -/
def Block.Every (property : Instr → Prop) (block : Block) : Prop :=
  ∀ instr ∈ block.instrs, property instr

/-- Every instruction of a function has a property. -/
def Function.Every (property : Instr → Prop) (function : Function) : Prop :=
  ∀ block ∈ function.blocks, block.Every property

namespace Function.Every

variable {property : Instr → Prop} {function : Function}

theorem block (every : function.Every property) {id : BlockId} {block : Block}
    (found : function.block? id = some block) : block.Every property :=
  every block (List.mem_of_getElem? found)

theorem modifyBlock (every : function.Every property) {id : BlockId} {change : Block → Block}
    (changed : ∀ block, block.Every property → (change block).Every property) :
    (function.modifyBlock id change).Every property := by
  intro block member
  obtain ⟨place, found⟩ := List.mem_iff_getElem?.mp member
  change (function.modifyBlock id change).block? place = some block at found
  rw [Function.block?_modifyBlock] at found
  obtain ⟨original, present, rfl⟩ := Option.map_eq_some_iff.mp found
  split
  · exact changed original (every.block present)
  · exact every.block present

theorem setInstrs (every : function.Every property) (id : BlockId) {instrs : List Instr}
    (all : ∀ instr ∈ instrs, property instr) :
    (function.modifyBlock id fun same => { same with instrs }).Every property :=
  every.modifyBlock fun _ _ => all

/-- New instructions take the place of some that stand together in a block. -/
theorem splice (every : function.Every property) {id : BlockId} {block : Block}
    (found : function.block? id = some block) {added : List Instr}
    (all : ∀ instr ∈ added, property instr) (start finish : Nat) :
    (function.modifyBlock id fun same =>
      { same with
        instrs := block.instrs.take start ++ added ++ block.instrs.drop finish }).Every
      property := by
  have ofBlock := every.block found
  refine every.setInstrs id ?_
  rw [List.forall_mem_append, List.forall_mem_append]
  exact ⟨⟨fun instr front => ofBlock instr (List.mem_of_mem_take front), all⟩,
    fun instr back => ofBlock instr (List.mem_of_mem_drop back)⟩

theorem entered (every : function.Every property) {keeps : Bool} {id : BlockId}
    {localArea : UInt64} {block : Block}
    (all : ∀ instr ∈ withPrologue keeps localArea block.instrs, property instr) :
    (function.entered keeps id localArea block).Every property := by
  have framed := every.setInstrs id all
  rw [Function.entered]
  split
  · intro other member
    rcases List.mem_append.mp member with first | others
    · exact framed other (List.mem_of_mem_take first)
    · obtain ⟨original, behind, rfl⟩ := List.mem_map.mp others
      exact framed original (List.mem_of_mem_drop behind)
  · exact framed

end Function.Every

namespace SurvivesRewriting

variable {property : Instr → Prop} (survives : SurvivesRewriting property)

include survives

/-! ### Single instructions -/

theorem saveInstrs (registers : List Register) :
    ∀ instr ∈ saveInstrs registers, property instr := by
  intro instr member
  obtain ⟨register, -, rfl⟩ := List.mem_map.mp member
  exact survives.push register

theorem restoreInstrs (registers : List Register) :
    ∀ instr ∈ restoreInstrs registers, property instr := by
  intro instr member
  obtain ⟨register, -, rfl⟩ := List.mem_map.mp member
  exact survives.pop register

theorem withPrologue {block : Block} (every : block.Every property) (keeps : Bool)
    (localArea : UInt64) :
    ∀ instr ∈ withPrologue keeps localArea block.instrs, property instr := by
  intro instr member
  rcases mem_withPrologue member with own | entering
  · exact every instr own
  · exact forall_mem_entryCode survives.push survives.copy (survives.adjust _ _) keeps [] localArea
      instr entering

theorem withEpilogue {block : Block} (every : block.Every property)
    (keeps hasVarSizedObjects : Bool) (savedBytes localArea : UInt64) :
    ∀ instr ∈ withEpilogue keeps (release hasVarSizedObjects savedBytes localArea) block.instrs,
      property instr := by
  intro instr member
  rcases mem_withEpilogue member with own | leaving
  · exact every instr own
  · exact forall_mem_exitCode survives.pop survives.copy (survives.adjust _ _)
      (survives.adjust _ _) keeps [] hasVarSizedObjects savedBytes localArea instr leaving

theorem expandCallPseudo {options : Options} {isReserved : Bool} {instr : Instr}
    {expansion : List Instr}
    (expanded : expandCallPseudo options isReserved instr = .ok expansion) :
    ∀ item ∈ expansion, property item := by
  intro item member
  obtain ⟨opcode, amount, -, rfl⟩ := exists_adjust_of_mem_expansion expanded member
  exact survives.adjust opcode _ amount

theorem resolveSlot {frame : Frame} {keeps : Bool} {instr : Instr} {position : Nat}
    {resolved : ResolvedSlot} (holds : property instr)
    (ran : resolveSlot frame keeps instr position = .ok resolved) :
    ∀ item ∈ resolved.instr :: resolved.following, property item := by
  refine List.forall_mem_cons.mpr ⟨survives.resolve holds ran, ?_⟩
  intro item member
  obtain ⟨opcode, reg, amount, -, rfl, -⟩ := (resolves_of_resolveSlot ran).following item member
  exact survives.adjust opcode reg amount

theorem scanInstr (current : BlockId) (cursor : Relaxation.Cursor) (instr : Instr)
    (holds : property instr) :
    ∀ item ∈ (Relaxation.scanInstr current cursor instr).items, property item := by
  rw [Relaxation.scanInstr]
  split
  · exact List.forall_mem_singleton.mpr holds
  · exact List.forall_mem_singleton.mpr holds
  next long decided =>
    rcases Relaxation.expansion?_eq_ok decided with
      ⟨-, none⟩ | ⟨target, -, known, ⟨-, none⟩ | ⟨_, -, expanded, isLong⟩⟩
    · contradiction
    · contradiction
    · cases isLong
      exact survives.expand holds known expanded

/-! ### Functions -/

/-- Every call keeps the property. -/
theorem hook (options : Options) (hook : Hook) :
    (hook.pass options).Preserves (Function.Every property) := by
  intro function every
  have decided : (function.decided options).Every property := every
  cases hook with
  | setVarSizedObjects | setAddressTaken | readFramePointer | readFrameRegister
  | readReservedRegisters => exact every
  | addFramePointerSlot =>
      obtain ⟨fixedObjects, -, left⟩ := addFramePointerSlot_leaves options function
      rw [Hook.pass, left]
      exact every
  | save id index registers =>
      rw [Hook.pass, leaves_discard]
      rcases saveRegisters_outcome id index registers function with
        ⟨-, ran⟩ | ⟨-, ⟨-, reason, stopped⟩ | ⟨block, found, -, ran⟩⟩
      · rwa [leaves_of_ok ran]
      · rw [leaves_of_error stopped]
        exact every
      · rw [leaves_of_ok ran]
        refine (every.splice found (survives.saveInstrs registers) index index).modifyBlock ?_
        intro other ofOther
        rwa [Block.Every, instrs_foldl_addLiveIn]
  | restore id index registers =>
      rw [Hook.pass, leaves_discard]
      rcases restoreRegisters_outcome id index registers function with
        ⟨-, reason, stopped⟩ | ⟨-, ran⟩ | ⟨block, found, ran⟩
      · rwa [leaves_of_error stopped]
      · rwa [leaves_of_ok ran]
      · rw [leaves_of_ok ran]
        exact every.splice found (survives.restoreInstrs registers) index index
  | prologue id =>
      rcases emitPrologue_outcome options id function with
        ⟨reason, stopped | stopped⟩ | ⟨block, localArea, found, -, ran⟩
      · rwa [Hook.pass, leaves_of_error stopped]
      · rw [Hook.pass, leaves_of_error stopped]
        exact decided
      · rw [Hook.pass, leaves_of_ok ran]
        exact decided.entered (survives.withPrologue (every.block found) _ localArea)
  | epilogue id =>
      rcases emitEpilogue_outcome options id function with
        ⟨reason, stopped⟩ | ⟨block, localArea, found, -, ran⟩
      · rw [Hook.pass, leaves_of_error stopped]
        exact decided
      · rw [Hook.pass, leaves_of_ok ran]
        exact decided.setInstrs id (survives.withEpilogue (every.block found) _ _ _ localArea)
  | callPseudo id index =>
      rw [Hook.pass, leaves_discard]
      rcases eliminateCallPseudo_outcome options id index function with
        ⟨reason, stopped⟩ | ⟨block, instr, expansion, found, -, expanded, ran⟩
      · rwa [leaves_of_error stopped]
      · rw [leaves_of_ok ran]
        exact every.splice found (survives.expandCallPseudo expanded) index (index + 1)
  | slot id index position adjustment =>
      rcases eliminateSlot_outcome options id index position adjustment function with
        ⟨reason, stopped | stopped⟩ | ⟨block, instr, resolved, found, present, resolvedRan, ran⟩
      · rwa [Hook.pass, leaves_of_error stopped]
      · rw [Hook.pass, leaves_of_error stopped]
        exact decided
      · rw [Hook.pass, leaves_of_ok ran]
        have holds := every.block found instr (List.mem_of_getElem? present)
        exact decided.splice found (survives.resolveSlot holds resolvedRan) index (index + 1)

/-- A property that survives rewriting holds of all instructions after every pass. -/
theorem isPreserved : IsPreserved (Function.Every property) where
  call := survives.hook
  scan sizes function every := by
    rw [leaves_sweepBlocks, Relaxation.items_scanBlocks]
    refine Sweep.forall_mem_items_run (fun state block ofBlock => ?_) every _
    refine List.forall_mem_singleton.mpr ?_
    exact Sweep.forall_mem_items_run (survives.scanInstr state.1) ofBlock _

end SurvivesRewriting

end MachineCode
