import MachineCode.Proofs.Frame.Stages
import Mathlib.Data.List.DropRight

/-!
# Where lowered instructions come from

Lowering mixes instructions of its own with those of the function, and it finds its places by
opcodes alone. To say where its instructions end up, every instruction carries its origin through
the stages and the sweep. Tracing changes nothing: without the origins, the traced code of a block
is the block that lowering leaves (`exists_tracedBlock`).
-/

namespace MachineCode

/-- The step of lowering that has put an instruction where it stands. -/
inductive Origin where
  /-- None: the instruction is the function's own, or the sweep has made it from one. -/
  | body
  | save
  | restore
  | prologue
  | epilogue
  deriving DecidableEq, Repr

structure Traced where
  instr : Instr
  origin : Origin
  deriving DecidableEq, Repr

/-- Instructions that have the same origin. -/
def traced (origin : Origin) (instrs : List Instr) : List Traced :=
  instrs.map fun instr => { instr, origin }

def untraced (code : List Traced) : List Instr :=
  code.map Traced.instr

@[simp] theorem untraced_traced (origin : Origin) (instrs : List Instr) :
    untraced (traced origin instrs) = instrs := by
  simp [untraced, traced, Function.comp_def]

@[simp] theorem untraced_append (left right : List Traced) :
    untraced (left ++ right) = untraced left ++ untraced right :=
  List.map_append

@[simp] theorem traced_append (origin : Origin) (left right : List Instr) :
    traced origin (left ++ right) = traced origin left ++ traced origin right :=
  List.map_append

theorem mem_traced {origin : Origin} {instrs : List Instr} {item : Traced} :
    item ∈ traced origin instrs ↔ item.instr ∈ instrs ∧ item.origin = origin := by
  constructor
  · intro member
    obtain ⟨instr, isInstr, rfl⟩ := List.mem_map.mp member
    exact ⟨isInstr, rfl⟩
  · rintro ⟨isInstr, rfl⟩
    exact List.mem_map_of_mem isInstr

/-! ## The stages -/

/-- Restore registers in front of the terminators that end traced code. -/
def traceRestores (registers : List Register) (code : List Traced) : List Traced :=
  code.rdropWhile (·.instr.isTerminator) ++ traced .restore (restoreInstrs registers) ++
    code.rtakeWhile (·.instr.isTerminator)

def tracePrologue (keepsFramePointer : Bool) (localArea : UInt64) (code : List Traced) :
    List Traced :=
  traced .prologue (if keepsFramePointer then framePointerSetup else []) ++
    code.takeWhile (·.instr.isPush) ++ traced .prologue (allocation localArea) ++
    code.dropWhile (·.instr.isPush)

def traceEpilogue (keepsFramePointer : Bool) (releasing : List Instr) (code : List Traced) :
    List Traced :=
  let beforeReturn := code.dropLast ++
    traced .epilogue (if keepsFramePointer then [Instr.pop .fp] else [])
  beforeReturn.rdropWhile (·.instr.isPopOrTerminator) ++ traced .epilogue releasing ++
    beforeReturn.rtakeWhile (·.instr.isPopOrTerminator) ++ code.getLast?.toList

/-- The instructions of a block inside the frame code, with their origins. -/
def traceFramed (keeps : Bool) (registers : List Register) (localArea : UInt64)
    (releasing : List Instr) (isEntry isReturning : Bool) (instrs : List Instr) : List Traced :=
  let own := traced .body instrs
  let saved := if isEntry then traced .save (saveInstrs registers) ++ own else own
  let restored := if isReturning then traceRestores registers saved else saved
  let entered := if isEntry then tracePrologue keeps localArea restored else restored
  if isReturning then traceEpilogue keeps releasing entered else entered

theorem untraced_rtakeWhile (predicate : Instr → Bool) (code : List Traced) :
    untraced (code.rtakeWhile (predicate ·.instr)) = (untraced code).rtakeWhile predicate := by
  rw [untraced, untraced, List.rtakeWhile, List.rtakeWhile, ← List.map_reverse,
    List.takeWhile_map, List.map_reverse]
  rfl

theorem untraced_rdropWhile (predicate : Instr → Bool) (code : List Traced) :
    untraced (code.rdropWhile (predicate ·.instr)) = (untraced code).rdropWhile predicate := by
  rw [untraced, untraced, List.rdropWhile, List.rdropWhile, ← List.map_reverse,
    List.dropWhile_map, List.map_reverse]
  rfl

/-- Restores stand in front of the terminators that end a block. -/
theorem withRestores_eq_rdropWhile (registers : List Register) (instrs : List Instr) :
    withRestores registers instrs =
      instrs.rdropWhile Instr.isTerminator ++ restoreInstrs registers ++
        instrs.rtakeWhile Instr.isTerminator := by
  have split := @List.rdropWhile_append_rtakeWhile _ Instr.isTerminator instrs
  have length : (instrs.reverse.takeWhile Instr.isTerminator).length =
      (instrs.rtakeWhile Instr.isTerminator).length := by
    rw [List.rtakeWhile, List.length_reverse]
  rw [withRestores, length]
  generalize instrs.rdropWhile Instr.isTerminator = front at split ⊢
  generalize instrs.rtakeWhile Instr.isTerminator = back at split ⊢
  subst split
  rw [List.length_append, Nat.add_sub_cancel, List.take_left, List.drop_left]

theorem untraced_traceRestores (registers : List Register) (code : List Traced) :
    untraced (traceRestores registers code) = withRestores registers (untraced code) := by
  rw [withRestores_eq_rdropWhile, traceRestores, untraced_append, untraced_append,
    untraced_rdropWhile, untraced_rtakeWhile, untraced_traced]

theorem untraced_tracePrologue (keeps : Bool) (localArea : UInt64) (code : List Traced) :
    untraced (tracePrologue keeps localArea code) =
      withPrologue keeps localArea (untraced code) := by
  rw [tracePrologue, withPrologue, untraced_append, untraced_append, untraced_append,
    untraced_traced, untraced_traced, untraced, untraced, untraced, List.takeWhile_map,
    List.dropWhile_map]
  rfl

theorem untraced_traceEpilogue (keeps : Bool) (releasing : List Instr) (code : List Traced) :
    untraced (traceEpilogue keeps releasing code) =
      withEpilogue keeps releasing (untraced code) := by
  have beforeReturn : untraced (code.dropLast ++
      traced .epilogue (if keeps then [Instr.pop .fp] else [])) =
        (untraced code).dropLast ++ (if keeps then [Instr.pop .fp] else []) := by
    rw [untraced_append, untraced_traced, untraced, untraced, List.map_dropLast]
  have last : untraced code.getLast?.toList = (untraced code).getLast?.toList := by
    rw [untraced, untraced, List.getLast?_map]
    cases code.getLast? <;> rfl
  rw [traceEpilogue, withEpilogue, untraced_append, untraced_append, untraced_append,
    untraced_rdropWhile, untraced_rtakeWhile, untraced_traced, beforeReturn, last]
  rfl

theorem untraced_traceFramed (keeps : Bool) (registers : List Register) (localArea : UInt64)
    (releasing : List Instr) (isEntry isReturning : Bool) (instrs : List Instr) :
    untraced (traceFramed keeps registers localArea releasing isEntry isReturning instrs) =
      framedInstrs keeps registers localArea releasing isEntry isReturning instrs := by
  cases isEntry <;> cases isReturning <;>
    simp [traceFramed, framedInstrs, untraced_traceRestores, untraced_tracePrologue,
      untraced_traceEpilogue]

/-! ## The sweep -/

/-- What the sweep makes of an instruction has the origin of the instruction. -/
def lowerTraced (options : Options) (frame : Frame) (keepsFramePointer : Bool)
    (stackAdjustment : Int64) (item : Traced) : Sweep Traced Int64 :=
  let lowered := lowerInstr options frame keepsFramePointer stackAdjustment item.instr
  { items := traced item.origin lowered.items, outcome := lowered.outcome }

theorem run_lowerTraced_eq_done {options : Options} {frame : Frame} {keeps : Bool}
    {adjustment last : Int64} {code : List Traced} {items : List Instr}
    (ran : Sweep.run (lowerInstr options frame keeps) adjustment (untraced code) =
      .done items last) :
    ∃ traces, Sweep.run (lowerTraced options frame keeps) adjustment code = .done traces last ∧
      untraced traces = items := by
  induction code generalizing adjustment items with
  | nil =>
      cases ran
      exact ⟨[], rfl, rfl⟩
  | cons item rest ih =>
      obtain ⟨next, finished, remaining, stepped, swept, rfl⟩ := Sweep.run_cons_eq_done ran
      obtain ⟨traces, restRan, rfl⟩ := ih swept
      have itemStepped : lowerTraced options frame keeps adjustment item =
          .done (traced item.origin finished) next := by
        rw [lowerTraced, stepped]
        rfl
      refine ⟨traced item.origin finished ++ traces, ?_, by simp⟩
      rw [Sweep.run_cons_ok itemStepped, restRan]
      rfl

/-! ## Blocks -/

/-- The bytes of the local area in the lowered frame of a function. -/
def Function.loweredArea (function : Function) (keepsFramePointer : Bool) : UInt64 :=
  function.frame.stackSize - fixedRegionSize keepsFramePointer function.savedBytes

/-- The instructions that release the local area of a lowered function. -/
def Function.releasing (function : Function) (keepsFramePointer : Bool) : List Instr :=
  release function.frame.hasVarSizedObjects function.savedBytes
    (function.loweredArea keepsFramePointer)

/-- A block of a function inside the frame code, with the origins of its instructions. -/
def tracedFrame (options : Options) (function : Function) (id : BlockId) (original : Block) :
    List Traced :=
  let keeps := function.frame.hasFramePointer options
  traceFramed keeps function.calleeSaved (function.loweredArea keeps) (function.releasing keeps)
    (decide (id = 0)) original.isReturning original.instrs

/-- The code of a lowered block, with the origins of its instructions. -/
def tracedBlock (options : Options) (function lowered : Function) (id : BlockId)
    (original : Block) : List Traced :=
  (Sweep.run (lowerTraced options lowered.frame (function.frame.hasFramePointer options)) 0
    (tracedFrame options function id original)).items

theorem LowersTo.localArea_eq {options : Options} {function lowered : Function} {keeps : Bool}
    {localArea : UInt64} (lowers : LowersTo options function lowered keeps localArea) :
    localArea = function.loweredArea keeps := by
  have area := lowers.area
  rw [Function.localAreaSize] at area
  dsimp only at area
  split at area
  · cases area
    rfl
  · contradiction

/-- Tracing goes through where lowering does, and it leaves the same code. -/
theorem exists_tracedBlock {options : Options} {function lowered : Function} {id : BlockId}
    {original block : Block} (ran : (lowerFrame options).run function = .ok () lowered)
    (found : function.block? id = some original) (loweredFound : lowered.block? id = some block) :
    ∃ last,
      Sweep.run (lowerTraced options lowered.frame (function.frame.hasFramePointer options)) 0
          (tracedFrame options function id original) =
        .done (tracedBlock options function lowered id original) last ∧
      untraced (tracedBlock options function lowered id original) = block.instrs := by
  obtain ⟨localArea, lowers⟩ := exists_lowersTo ran (Function.blocks_ne_nil_of_block? found) rfl
  obtain ⟨_, sameFound, last, swept⟩ := lowers.exists_block found
  cases loweredFound.symm.trans sameFound
  rw [lowers.localArea_eq, ← untraced_traceFramed] at swept
  obtain ⟨traces, traceRan, tracesEq⟩ := run_lowerTraced_eq_done swept
  have blockEq : tracedBlock options function lowered id original = traces :=
    congrArg Sweep.items traceRan
  rw [blockEq]
  exact ⟨last, traceRan, tracesEq⟩

end MachineCode
