import MachineCode.Proofs.Frame.Machine
import MachineCode.Proofs.Frame.Shape

/-!
# What lowering relies on

Lowering leaves the body of a function to itself, so a function has to keep to some rules: it does
not push or pop, it leaves the frame pointer alone, it takes back what its callees pop, and it
returns only at the end of a block. Where the rules are kept, a lowered block consists of entry
code, the code of the original instructions and exit code (`BlockCode`).
-/

namespace MachineCode

/-- The bytes by which an instruction moves the stack pointer in a fixed frame: a callee pops its
arguments, and the end of a call sequence takes them back. -/
def Instr.stackShift (pop : BitVec 16) (instr : Instr) : BitVec 16 :=
  match instr.opcode, instr.operands with
  | .jal, _ => pop
  | .adjCallStackUp, _ :: .immediate popped :: _ => -wordOf popped
  | _, _ => 0#16

theorem stackShift_of_popped {pop : BitVec 16} {instr : Instr}
    {first : Operand} {popped : Int64} (up : instr.opcode = .adjCallStackUp)
    (firstFound : instr.operands[0]? = some first)
    (poppedFound : instr.operands[1]? = some (.immediate popped)) :
    instr.stackShift pop = -wordOf popped := by
  obtain ⟨opcode, operands⟩ := instr
  cases up
  match operands, firstFound, poppedFound with
  | _ :: .immediate _ :: _, _, rfl => rfl

theorem stackShift_of_isTerminator {pop : BitVec 16} {instr : Instr}
    (terminator : instr.isTerminator = true) : instr.stackShift pop = 0#16 := by
  rw [Instr.isTerminator] at terminator
  unfold Instr.stackShift
  split
  next isCall =>
    rw [isCall] at terminator
    contradiction
  next up _ =>
    rw [up] at terminator
    contradiction
  next => rfl

/-- A call sequence pseudo apart, an instruction moves the stack pointer by what a callee pops. -/
theorem stackShift_of_not_callPseudo {instr : Instr} (noPseudo : instr.isCallPseudo = false)
    (setting : Setting) : instr.stackShift (setting.pops 0) = instr.popped setting := by
  unfold Instr.stackShift Instr.popped
  split
  next isCall => rw [if_pos isCall]
  next up _ =>
    rw [Instr.isCallPseudo, up] at noPseudo
    contradiction
  next noCall _ => rw [if_neg noCall]

/-- Whether the call sequences of a block are balanced: what callees pop is taken back before
control can leave the block. -/
def callsBalanced (pops : Nat → BitVec 16) : BitVec 16 → List Instr → Bool
  | level, [] => level == 0#16
  | level, instr :: rest =>
      (!instr.isBranch || level == 0#16) &&
        callsBalanced pops (level + instr.stackShift (pops (callCount rest))) rest

/-- The bytes that callees have popped behind instructions and that have not been taken back. -/
def callLevel (pops : Nat → BitVec 16) : List Instr → BitVec 16
  | [] => 0#16
  | instr :: rest => instr.stackShift (pops (callCount rest)) + callLevel pops rest

/-- At the end of a balanced block, everything has been taken back. -/
theorem add_callLevel_of_callsBalanced {pops : Nat → BitVec 16} {level : BitVec 16}
    {instrs : List Instr} (balanced : callsBalanced pops level instrs = true) :
    level + callLevel pops instrs = 0#16 := by
  induction instrs generalizing level with
  | nil => rwa [callLevel, BitVec.add_zero, ← beq_iff_eq]
  | cons instr rest ih =>
      rw [callsBalanced, Bool.and_eq_true] at balanced
      rw [callLevel, ← BitVec.add_assoc]
      exact ih balanced.2

/-- Whether returns stand only at the end, and not directly behind another terminator. -/
def returnsLast : List Instr → Bool
  | instr :: next :: rest =>
      !instr.isReturn && !(instr.isTerminator && next.isReturn) && returnsLast (next :: rest)
  | _ => true

/-- Every block goes on at its end, or its only return is its last instruction. -/
theorem returnsLast_cases {instrs : List Instr} (last : returnsLast instrs = true) :
    (∀ instr ∈ instrs, instr.isReturn = false) ∨
      ∃ body returns, instrs = body ++ [returns] ∧ returns.isReturn = true ∧
        (∀ instr ∈ body, instr.isReturn = false) ∧
        ∀ instr ∈ body.getLast?, instr.isTerminator = false := by
  fun_induction returnsLast instrs with
  | case1 instr next rest ih =>
      simp only [Bool.and_eq_true, Bool.not_eq_true', Bool.and_eq_false_iff] at last
      obtain ⟨⟨goesOn, single⟩, restLast⟩ := last
      rcases ih restLast with noReturn | ⟨body, returns, restEq, isReturn, bodyGoesOn, bodySingle⟩
      · left
        exact List.forall_mem_cons.mpr ⟨goesOn, noReturn⟩
      · right
        refine ⟨instr :: body, returns, by rw [restEq, List.cons_append], isReturn,
          List.forall_mem_cons.mpr ⟨goesOn, bodyGoesOn⟩, ?_⟩
        cases body with
        | nil =>
            cases restEq
            intro other isLast
            cases isLast
            exact single.resolve_right (by rw [isReturn]; decide)
        | cons second others => exact bodySingle
  | case2 instrs short =>
      cases instrs with
      | nil => exact .inl (by simp)
      | cons instr rest =>
          cases rest with
          | cons next others => exact (short instr next others rfl).elim
          | nil =>
              cases isReturn : instr.isReturn with
              | false => exact .inl (by simpa using isReturn)
              | true => exact .inr ⟨[], instr, rfl, isReturn, by simp, by simp⟩

theorem isCall_of_isReturn {instr : Instr} (isReturn : instr.isReturn = true) :
    instr.isCall = false := by
  rw [Instr.isReturn] at isReturn
  rw [Instr.isCall]
  cases opcodeEq : instr.opcode with
  | ret | reti => rfl
  | _ =>
      rw [opcodeEq] at isReturn
      contradiction

theorem callsBalanced_of_return {pops : Nat → BitVec 16} {level : BitVec 16}
    {body : List Instr} {returns : Instr} (isReturn : returns.isReturn = true)
    (balanced : callsBalanced pops level (body ++ [returns]) = true) :
    callsBalanced pops level body = true := by
  have noCall : callCount [returns] = 0 :=
    callCount_cons_of_not_isCall (isCall_of_isReturn isReturn) []
  induction body generalizing level with
  | nil =>
      have noShift (pop : BitVec 16) : returns.stackShift pop = 0#16 :=
        stackShift_of_isTerminator (Bool.or_eq_true_iff.mpr (.inr isReturn))
      simp only [List.nil_append, callsBalanced, noShift, BitVec.add_zero, Bool.and_eq_true]
        at balanced
      exact balanced.2
  | cons instr rest ih =>
      rw [List.cons_append, callsBalanced, Bool.and_eq_true, callCount_append, noCall] at balanced
      rw [callsBalanced, Bool.and_eq_true]
      exact ⟨balanced.1, ih balanced.2⟩

/-- What lowering relies on in an instruction: it does not push or pop, it leaves the frame
pointer alone, and the stack pointer too unless objects of variable size are allocated, and it
does not branch to the entry. -/
structure LowerableInstr (hasVarSizedObjects : Bool) (instr : Instr) : Prop where
  noPush : instr.opcode ≠ .push16r
  noPop : instr.opcode ≠ .pop16r
  keepsFp : instr.writes Register.fp.number = false
  keepsSp : hasVarSizedObjects = false → instr.writes Register.sp.number = false
  notToEntry : instr.isBranch = true → instr.operands[0]? ≠ some (.block 0)

instance (hasVarSizedObjects : Bool) (instr : Instr) :
    Decidable (LowerableInstr hasVarSizedObjects instr) :=
  decidable_of_iff
    (instr.opcode ≠ .push16r ∧ instr.opcode ≠ .pop16r ∧
      instr.writes Register.fp.number = false ∧
      (hasVarSizedObjects = false → instr.writes Register.sp.number = false) ∧
      (instr.isBranch = true → instr.operands[0]? ≠ some (.block 0)))
    ⟨fun ⟨noPush, noPop, keepsFp, keepsSp, notToEntry⟩ =>
        ⟨noPush, noPop, keepsFp, keepsSp, notToEntry⟩,
      fun lowerable => ⟨lowerable.noPush, lowerable.noPop, lowerable.keepsFp, lowerable.keepsSp,
        lowerable.notToEntry⟩⟩

/-- What lowering relies on in a block, given the bytes that callees pop. -/
structure LowerableBlock (pops : Nat → BitVec 16) (hasVarSizedObjects : Bool)
    (instrs : List Instr) : Prop where
  each : ∀ instr ∈ instrs, LowerableInstr hasVarSizedObjects instr
  balanced : callsBalanced pops 0#16 instrs = true
  returnsLast : returnsLast instrs = true

instance (pops : Nat → BitVec 16) (hasVarSizedObjects : Bool) (instrs : List Instr) :
    Decidable (LowerableBlock pops hasVarSizedObjects instrs) :=
  decidable_of_iff
    ((∀ instr ∈ instrs, LowerableInstr hasVarSizedObjects instr) ∧
      callsBalanced pops 0#16 instrs = true ∧ returnsLast instrs = true)
    ⟨fun ⟨each, balanced, returnsLast⟩ => ⟨each, balanced, returnsLast⟩,
      fun lowerable => ⟨lowerable.each, lowerable.balanced, lowerable.returnsLast⟩⟩

/-- What lowering relies on in all blocks of a function. -/
def LowerableBlocks (pops : BlockId → Nat → BitVec 16) (function : Function) : Prop :=
  ∀ id block, function.block? id = some block →
    LowerableBlock (pops id) function.frame.hasVarSizedObjects block.instrs

instance (pops : BlockId → Nat → BitVec 16) (function : Function) :
    Decidable (LowerableBlocks pops function) :=
  decidable_of_iff
    (∀ placed ∈ function.blocks.zipIdx,
      LowerableBlock (pops placed.2) function.frame.hasVarSizedObjects placed.1.instrs)
    ⟨fun each id block found => each (block, id) (List.mk_mem_zipIdx_iff_getElem?.mpr found),
      fun lowerable placed member =>
        lowerable placed.2 placed.1 (List.mk_mem_zipIdx_iff_getElem?.mp member)⟩

/-- What lowering relies on in a function: nothing about its frame has been decided, and it
preserves registers that functions have to preserve, no more than the memory can hold. -/
structure Lowerable (pops : BlockId → Nat → BitVec 16) (function : Function) : Prop where
  undecided : function.frame.framePointer? = none
  unsaved : function.calleeSavedSize = 0
  drawn : ∀ register ∈ function.calleeSaved, register ∈ Register.calleeSaved
  fits : function.calleeSaved.length < 32767
  blocks : LowerableBlocks pops function

instance (pops : BlockId → Nat → BitVec 16) (function : Function) :
    Decidable (Lowerable pops function) :=
  decidable_of_iff
    (function.frame.framePointer? = none ∧ function.calleeSavedSize = 0 ∧
      (∀ register ∈ function.calleeSaved, register ∈ Register.calleeSaved) ∧
      function.calleeSaved.length < 32767 ∧ LowerableBlocks pops function)
    ⟨fun ⟨undecided, unsaved, drawn, fits, blocks⟩ => ⟨undecided, unsaved, drawn, fits, blocks⟩,
      fun lowerable => ⟨lowerable.undecided, lowerable.unsaved, lowerable.drawn, lowerable.fits,
        lowerable.blocks⟩⟩

/-- Whether a branch of the function jumps by a number of bytes. Lowering moves the code that it
jumps over. -/
def Function.hasSkips (function : Function) : Bool :=
  function.blocks.any fun block => block.instrs.any Instr.isSkip

theorem Function.isSkip_of_not_hasSkips {function : Function} (noSkips : function.hasSkips = false)
    {id : BlockId} {block : Block} (found : function.block? id = some block) {instr : Instr}
    (member : instr ∈ block.instrs) : instr.isSkip = false := by
  rw [Function.hasSkips, List.any_eq_false] at noSkips
  have inBlock := noSkips block (List.mem_of_getElem? found)
  rw [Bool.not_eq_true, List.any_eq_false] at inBlock
  exact Bool.eq_false_iff.mpr (inBlock instr member)

/-! ## The code of a block -/

/-- Entry code makes no calls. -/
theorem callCount_entryCode (isEntry keeps : Bool) (registers : List Register)
    (localArea : UInt64) :
    callCount (if isEntry then entryCode keeps registers localArea else []) = 0 := by
  cases isEntry with
  | false => rfl
  | true =>
      exact callCount_eq_zero (forall_mem_entryCode (fun _ => rfl) (fun _ _ => rfl)
        (fun _ => rfl) _ _ _)

/-- Exit code makes no calls. -/
theorem callCount_exitCode (keeps : Bool) (registers : List Register) (hasVarSizedObjects : Bool)
    (savedBytes localArea : UInt64) :
    callCount (exitCode keeps registers (release hasVarSizedObjects savedBytes localArea)) = 0 :=
  callCount_eq_zero (forall_mem_exitCode (fun _ => rfl) (fun _ _ => rfl) (fun _ => rfl)
    (fun _ => rfl) _ _ _ _ _)

/-- The code of a lowered block, given what lowering makes of an instruction: entry code and the
code of the body and, where the block returns, exit code and the code of the return. -/
inductive BlockCode (lower : Int64 → Instr → Sweep Instr Int64) (entering exiting : List Instr) :
    List Instr → List Instr → Prop
  | goesOn {body code : List Instr} {last : Int64}
      (noReturn : ∀ instr ∈ body, instr.isReturn = false)
      (swept : Sweep.run lower 0 body = .done code last) :
      BlockCode lower entering exiting body (entering ++ code)
  | returns {body code leaving : List Instr} {returning : Instr} {adjustment last : Int64}
      (noReturn : ∀ instr ∈ body, instr.isReturn = false) (isReturn : returning.isReturn = true)
      (swept : Sweep.run lower 0 body = .done code adjustment)
      (returned : lower adjustment returning = .done leaving last) :
      BlockCode lower entering exiting (body ++ [returning])
        (entering ++ (code ++ exiting ++ leaving))

/-- The sweep over a block inside its frame code leaves the code of the block. -/
theorem LowerableBlock.blockCode {options : Options} {frame : Frame}
    {pops : Nat → BitVec 16} {keeps hasVarSizedObjects isEntry : Bool}
    {registers : List Register} {localArea savedBytes : UInt64} {original : Block}
    {items : List Instr} {last : Int64}
    (lowerable : LowerableBlock pops hasVarSizedObjects original.instrs)
    (swept : Sweep.run (lowerInstr options frame keeps) 0
      (framedInstrs keeps registers localArea (release hasVarSizedObjects savedBytes localArea)
        isEntry original.isReturning original.instrs) = .done items last) :
    BlockCode (lowerInstr options frame keeps)
      (if isEntry then entryCode keeps registers localArea else [])
      (exitCode keeps registers (release hasVarSizedObjects savedBytes localArea))
      original.instrs items := by
  have noPush : ∀ instr ∈ original.instrs, instr.isPush = false := by
    intro instr member
    exact beq_eq_false_iff_ne.mpr (lowerable.each instr member).noPush
  rcases returnsLast_cases lowerable.returnsLast with
    goesOn | ⟨body, leaving, instrsEq, isReturn, goesOn, single⟩
  · have notReturning : original.isReturning = false := by
      rw [Block.isReturning, Block.last?]
      cases isLast : original.instrs.getLast? with
      | none => rfl
      | some instr => exact goesOn instr (List.mem_of_getLast? isLast)
    rw [notReturning, framedInstrs_of_not_returning _ _ noPush] at swept
    obtain ⟨lowered, bodySwept, rfl⟩ := exists_body_of_entry swept
    exact .goesOn goesOn bodySwept
  · have returning : original.isReturning = true := by
      rw [Block.isReturning, Block.last?, instrsEq, List.getLast?_concat]
      exact isReturn
    rw [instrsEq] at noPush swept ⊢
    have bodySingle : ∀ instr ∈ body.getLast?, instr.isPopOrTerminator = false := by
      intro instr isLast
      have member : instr ∈ original.instrs := by
        rw [instrsEq]
        exact List.mem_append_left _ (List.mem_of_getLast? isLast)
      exact Bool.or_eq_false_iff.mpr
        ⟨beq_eq_false_iff_ne.mpr (lowerable.each instr member).noPop, single instr isLast⟩
    rw [returning, framedInstrs_of_returning _ _ isReturn
      (fun instr member => noPush instr (List.mem_append_left _ member)) bodySingle,
      List.append_assoc, List.append_assoc, ← List.append_assoc body] at swept
    obtain ⟨lowered, restSwept, rfl⟩ := exists_body_of_entry swept
    obtain ⟨code, adjustment, leavingCode, bodySwept, returnLowered, rfl⟩ :=
      exists_body_of_exit restSwept
    exact .returns goesOn isReturn bodySwept returnLowered

/-- A sweep that succeeds has come to every item by the sweep over the items before it. -/
theorem Sweep.run_split_eq_done {item state : Type} {step : state → item → Sweep item state}
    {current last : state} {before after items : List item} {head : item}
    (ran : run step current (before ++ head :: after) = done items last) :
    ∃ swept made remaining reached next, run step current before = done swept reached ∧
      step reached head = done made next ∧ items = swept ++ (made ++ remaining) := by
  obtain ⟨reached, swept, _, beforeSwept, restSwept, rfl⟩ := run_append_eq_done ran
  obtain ⟨next, made, remaining, stepped, -, rfl⟩ := run_cons_eq_done restSwept
  exact ⟨swept, made, remaining, reached, next, beforeSwept, stepped, rfl⟩

/-- The code of an instruction that goes on stands behind the code of what precedes it. -/
theorem BlockCode.split {lower : Int64 → Instr → Sweep Instr Int64}
    {entering exiting before after items : List Instr} {instr : Instr}
    (blockCode : BlockCode lower entering exiting (before ++ instr :: after) items)
    (goesOn : instr.isReturn = false) :
    ∃ swept code back adjustment next,
      (∀ other ∈ before, other.isReturn = false) ∧
      Sweep.run lower 0 before = .done swept adjustment ∧
      lower adjustment instr = .done code next ∧ items = entering ++ swept ++ (code ++ back) := by
  generalize instrsEq : before ++ instr :: after = instrs at blockCode
  cases blockCode with
  | goesOn noReturn swept =>
      subst instrsEq
      obtain ⟨front, made, remaining, adjustment, next, frontSwept, stepped, rfl⟩ :=
        Sweep.run_split_eq_done swept
      exact ⟨front, made, remaining, adjustment, next,
        fun other member => noReturn other (List.mem_append_left _ member), frontSwept, stepped,
        (List.append_assoc _ _ _).symm⟩
  | @returns body _ leaving returning _ _ noReturn isReturn swept returned =>
      obtain ⟨inner, bodyEq⟩ : ∃ inner, body = before ++ instr :: inner := by
        rcases List.eq_nil_or_concat after with rfl | ⟨inner, last, rfl⟩
        · cases (List.append_inj' instrsEq rfl).2
          cases goesOn.symm.trans isReturn
        · rw [List.concat_eq_append, ← List.cons_append, ← List.append_assoc] at instrsEq
          exact ⟨inner, (List.append_inj' instrsEq rfl).1.symm⟩
      subst bodyEq
      obtain ⟨front, made, remaining, adjustment, next, frontSwept, stepped, rfl⟩ :=
        Sweep.run_split_eq_done swept
      refine ⟨front, made, remaining ++ (exiting ++ leaving), adjustment, next,
        fun other member => noReturn other (List.mem_append_left _ member), frontSwept, stepped, ?_⟩
      simp only [List.append_assoc]

end MachineCode
