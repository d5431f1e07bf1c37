import MachineCode.Proofs.Frame.Machine
import MachineCode.Proofs.Frame.Walk

/-!
# The body of a lowered block

The sweep replaces a call sequence pseudo by a move of the stack pointer or by nothing, and every
other instruction by one with resolved slots (`Resolves`), which may be followed by offsets of the
register that it writes. A resolved instruction branches, calls and returns where the original
did, and writes no register that the original did not write.
-/

namespace MachineCode

/-- An instruction after its slots have been resolved, and the offsets that follow it. -/
structure Resolves (original resolved : Instr) (following : List Instr) : Prop where
  opcode : resolved.opcode = original.opcode ∨
    original.opcode = .add16ri ∧ resolved.opcode = .mov16rr
  head : resolved.operands.head? = original.operands.head? ∨
    ∃ index register, original.operands.head? = some (.frameIndex index) ∧
      resolved.operands.head? = some (.use register)
  results : ∀ operand ∈ resolved.operands, operand.isDef = true → operand ∈ original.operands
  following : ∀ instr ∈ following, ∃ opcode reg amount,
    (opcode = .add16ri ∨ opcode = .sub16ri) ∧ instr = .adjust opcode reg amount ∧
      ∀ register, reg = .physical register → original.writes register.number = true

namespace Resolves

theorem refl (instr : Instr) : Resolves instr instr [] where
  opcode := .inl rfl
  head := .inl rfl
  results _ member _ := member
  following := by simp

theorem isDef_of_defines {number : Fin 16} {operand : Operand}
    (defines : operand.defines number = true) : operand.isDef = true := by
  unfold Operand.defines at defines
  split at defines
  · exact (Bool.and_eq_true_iff.mp defines).1
  · contradiction

theorem writes {original resolved : Instr} {following : List Instr} {number : Fin 16}
    (resolves : Resolves original resolved following) (written : resolved.writes number = true) :
    original.writes number = true := by
  rw [Instr.writes, Bool.or_eq_true_iff] at written ⊢
  rcases written with result | destination
  · left
    obtain ⟨operand, member, defines⟩ := List.any_eq_true.mp result
    have original := resolves.results operand member (isDef_of_defines defines)
    exact List.any_eq_true.mpr ⟨operand, original, defines⟩
  · right
    rw [Bool.and_eq_true_iff] at destination ⊢
    constructor
    · rcases resolves.opcode with same | ⟨sum, -⟩
      · rw [← same]
        exact destination.1
      · rw [sum]
        rfl
    · rcases resolves.head with same | ⟨index, register, slot, -⟩
      · rw [← same]
        exact destination.2
      · rw [slot]
        rfl

theorem branchTarget {original resolved : Instr} {following : List Instr} {target : BlockId}
    (resolves : Resolves original resolved following)
    (targets : resolved.operands[0]? = some (.block target)) :
    original.operands[0]? = some (.block target) := by
  rw [← List.head?_eq_getElem?] at targets ⊢
  rcases resolves.head with same | ⟨index, register, -, base⟩
  · rw [← same, targets]
  · cases base.symm.trans targets

/-- A sum becomes a copy, and all other instructions keep their opcode, so they keep whatever does
not tell sums from copies. -/
theorem opcode_congr {original resolved : Instr} {following : List Instr} {result : Type}
    (resolves : Resolves original resolved following) (property : Opcode → result)
    (same : property .mov16rr = property .add16ri) :
    property resolved.opcode = property original.opcode := by
  rcases resolves.opcode with opcodeEq | ⟨sum, copy⟩
  · rw [opcodeEq]
  · rw [sum, copy, same]

theorem opcode_ne {original resolved : Instr} {following : List Instr} {opcode : Opcode}
    (resolves : Resolves original resolved following) (differs : original.opcode ≠ opcode)
    (noCopy : opcode ≠ .mov16rr) : resolved.opcode ≠ opcode := by
  rcases resolves.opcode with opcodeEq | ⟨-, copy⟩
  · rwa [opcodeEq]
  · rw [copy]
    exact noCopy.symm

theorem isBranch_eq {original resolved : Instr} {following : List Instr}
    (resolves : Resolves original resolved following) : resolved.isBranch = original.isBranch :=
  resolves.opcode_congr Opcode.isBranch rfl

theorem isReturn_eq {original resolved : Instr} {following : List Instr}
    (resolves : Resolves original resolved following) : resolved.isReturn = original.isReturn :=
  resolves.opcode_congr Opcode.isReturn rfl

theorem isSkip_eq {original resolved : Instr} {following : List Instr}
    (resolves : Resolves original resolved following) : resolved.isSkip = original.isSkip := by
  rw [Instr.isSkip, Instr.isSkip, resolves.isBranch_eq, ← List.head?_eq_getElem?,
    ← List.head?_eq_getElem?]
  rcases resolves.head with same | ⟨index, register, slot, base⟩
  · rw [same]
  · rw [slot, base]
    rfl

theorem popped_eq {original resolved : Instr} {following : List Instr} (setting : Setting)
    (resolves : Resolves original resolved following) :
    resolved.popped setting = original.popped setting :=
  resolves.opcode_congr (fun opcode => if opcode = .jal then setting.pops 0 else 0#16) rfl

theorem callCount_following {original resolved : Instr} {following : List Instr}
    (resolves : Resolves original resolved following) : callCount following = 0 := by
  apply callCount_eq_zero
  intro instr member
  obtain ⟨opcode, reg, amount, rfl | rfl, rfl, -⟩ := resolves.following instr member
  · rfl
  · rfl

theorem callCount_eq {original resolved : Instr} {following : List Instr}
    (resolves : Resolves original resolved following) :
    callCount (resolved :: following) = callCount [original] := by
  rw [← List.singleton_append, callCount_append, resolves.callCount_following]
  exact resolves.opcode_congr (fun opcode => callCount [{ opcode }]) rfl

theorem trans {first second third : Instr} {followingFirst followingSecond : List Instr}
    (left : Resolves first second followingFirst) (right : Resolves second third followingSecond) :
    Resolves first third (followingSecond ++ followingFirst) where
  opcode := by
    rcases left.opcode with sameLeft | ⟨sum, copy⟩
    · rw [← sameLeft]
      exact right.opcode
    · rcases right.opcode with sameRight | ⟨sumAgain, -⟩
      · exact .inr ⟨sum, sameRight.trans copy⟩
      · cases copy.symm.trans sumAgain
  head := by
    rcases right.head with sameRight | ⟨index, register, slot, base⟩
    · rw [sameRight]
      exact left.head
    · rcases left.head with sameLeft | ⟨_, _, _, baseBefore⟩
      · exact .inr ⟨index, register, sameLeft ▸ slot, base⟩
      · cases slot.symm.trans baseBefore
  results operand member isDef := left.results operand (right.results operand member isDef) isDef
  following instr member := by
    rcases List.mem_append.mp member with inSecond | inFirst
    · obtain ⟨opcode, reg, amount, isOffset, rfl, written⟩ := right.following instr inSecond
      exact ⟨opcode, reg, amount, isOffset, rfl, fun register regEq =>
        left.writes (written register regEq)⟩
    · exact left.following instr inFirst

end Resolves

/-- Putting a base register in the place of a slot changes the first operand only if that is the
slot. -/
theorem head?_set_slot {operands : List Operand} {position : Nat} {index : FrameIndex}
    (slot : operands[position]? = some (.frameIndex index)) (register : Register) :
    (operands.set position (.use register)).head? = operands.head? ∨
      operands.head? = some (.frameIndex index) ∧
        (operands.set position (.use register)).head? = some (.use register) := by
  cases operands with
  | nil => contradiction
  | cons first rest =>
      cases position with
      | zero => exact .inr ⟨slot, rfl⟩
      | succ position => exact .inl rfl

theorem mem_of_mem_set_slot {operands : List Operand} {position : Nat} {register : Register}
    {operand : Operand} (member : operand ∈ operands.set position (.use register))
    (isDef : operand.isDef = true) : operand ∈ operands := by
  rcases List.mem_or_eq_of_mem_set member with old | rfl
  · exact old
  · contradiction

theorem resolves_of_resolveSlot {frame : Frame} {keeps : Bool} {instr : Instr} {position : Nat}
    {resolved : ResolvedSlot} (ran : resolveSlot frame keeps instr position = .ok resolved) :
    Resolves instr resolved.instr resolved.following := by
  obtain ⟨index, addend, object, slot, -, -, forms⟩ := resolveSlot_eq_ok ran
  have headSet := head?_set_slot slot (frameRegister keeps)
  rcases forms with ⟨target, flags, sum, targetFound, rfl⟩ | ⟨-, rfl⟩
  · refine ⟨.inr ⟨sum, rfl⟩, ?_, ?_, ?_⟩
    · rw [List.head?_take, if_neg (Nat.succ_ne_zero position)]
      exact headSet.imp_right fun ⟨isSlot, isBase⟩ => ⟨index, _, isSlot, isBase⟩
    · intro operand member isDef
      exact mem_of_mem_set_slot (List.mem_of_mem_take member) isDef
    · intro following member
      obtain ⟨opcode, amount, isOffset, rfl⟩ := exists_adjust_of_mem_addDisplacement member
      refine ⟨opcode, target, amount, isOffset, rfl, ?_⟩
      rintro register rfl
      rw [← List.head?_eq_getElem?] at targetFound
      simp [Instr.writes, sum, Opcode.hasDestination, targetFound, Operand.denotes]
  · refine ⟨.inl rfl, ?_, ?_, by simp⟩
    · have headKept (operands : List Operand) (operand : Operand) :
          (operands.set (position + 1) operand).head? = operands.head? := by
        cases operands <;> rfl
      rw [headKept]
      exact headSet.imp_right fun ⟨isSlot, isBase⟩ => ⟨index, _, isSlot, isBase⟩
    · intro operand member isDef
      rcases List.mem_or_eq_of_mem_set member with inSet | rfl
      · exact mem_of_mem_set_slot inSet isDef
      · contradiction

theorem exists_resolves_of_resolveSlots {frame : Frame} {keeps : Bool} {adjustment last : Int64}
    {following items : List Instr} {instr : Instr} {positions : List Nat}
    (ran : resolveSlots frame keeps adjustment following instr positions = .done items last) :
    ∃ resolved added, items = resolved :: (added ++ following) ∧ Resolves instr resolved added := by
  induction positions generalizing following instr with
  | nil =>
      cases ran
      exact ⟨instr, [], rfl, .refl instr⟩
  | cons position rest ih =>
      obtain ⟨first, firstRan, restRan⟩ := resolveSlots_cons_eq_done ran
      obtain ⟨resolved, added, rfl, resolves⟩ := ih restRan
      refine ⟨resolved, added ++ first.following, by rw [List.append_assoc], ?_⟩
      exact (resolves_of_resolveSlot firstRan).trans resolves

theorem expandCallPseudo_eq_ok {options : Options} {isReserved : Bool} {instr : Instr}
    {items : List Instr} (ran : expandCallPseudo options isReserved instr = .ok items) :
    (instr.opcode = .adjCallStackDown ∧ ∃ amount,
        instr.operands[0]? = some (.immediate amount) ∧
        items = callSetup options.alignment isReserved amount) ∨
      (instr.opcode = .adjCallStackUp ∧ ∃ amount popped,
        instr.operands[0]? = some (.immediate amount) ∧
        instr.operands[1]? = some (.immediate popped) ∧
        items = callCleanup options.alignment isReserved amount popped) := by
  unfold expandCallPseudo at ran
  split at ran
  next down =>
    left
    cases amountRead : instr.immediateOperand 0 with
    | error reason => simp [amountRead, bind, Except.bind] at ran
    | ok amount =>
        simp only [amountRead, bind, Except.bind, pure, Except.pure, Except.ok.injEq] at ran
        exact ⟨down, amount, Instr.immediateOperand_eq_ok amountRead, ran.symm⟩
  next up =>
    right
    cases amountRead : instr.immediateOperand 0 with
    | error reason => simp [amountRead, bind, Except.bind] at ran
    | ok amount =>
        cases poppedRead : instr.immediateOperand 1 with
        | error reason => simp [amountRead, poppedRead, bind, Except.bind] at ran
        | ok popped =>
            simp only [amountRead, poppedRead, bind, Except.bind, pure, Except.pure,
              Except.ok.injEq] at ran
            exact ⟨up, amount, popped, Instr.immediateOperand_eq_ok amountRead,
              Instr.immediateOperand_eq_ok poppedRead, ran.symm⟩
  next => contradiction

/-- A call sequence pseudo becomes moves of the stack pointer. -/
theorem exists_adjust_of_mem_expansion {options : Options} {isReserved : Bool} {instr item : Instr}
    {items : List Instr} (ran : expandCallPseudo options isReserved instr = .ok items)
    (member : item ∈ items) :
    ∃ opcode amount, (opcode = .add16ri ∨ opcode = .sub16ri) ∧
      item = .adjust opcode (.physical .sp) amount := by
  rcases expandCallPseudo_eq_ok ran with ⟨-, amount, -, rfl⟩ | ⟨-, amount, popped, -, -, rfl⟩
  · unfold callSetup at member
    split at member
    · contradiction
    · exact ⟨_, _, .inr rfl, List.mem_singleton.mp member⟩
  · unfold callCleanup at member
    split at member
    · split at member
      · contradiction
      · exact ⟨_, _, .inr rfl, List.mem_singleton.mp member⟩
    · split at member
      · contradiction
      · dsimp only at member
        split at member
        · exact ⟨_, _, .inl rfl, List.mem_singleton.mp member⟩
        · contradiction

/-- What the sweep makes of an instruction. -/
theorem lowerInstr_eq_done {options : Options} {frame : Frame} {keeps : Bool}
    {adjustment last : Int64} {instr : Instr} {items : List Instr}
    (ran : lowerInstr options frame keeps adjustment instr = .done items last) :
    (instr.isCallPseudo = true ∧
        expandCallPseudo options frame.hasReservedCallFrame instr = .ok items) ∨
      (instr.isCallPseudo = false ∧ ∃ resolved following, items = resolved :: following ∧
        Resolves instr resolved following) := by
  unfold lowerInstr at ran
  split at ran
  next isPseudo =>
    left
    refine ⟨isPseudo, ?_⟩
    dsimp only at ran
    cases adjusted : callAdjustment options instr with
    | error reason =>
        simp only [adjusted, bind, Except.bind] at ran
        cases ran
    | ok amount =>
        cases expanded : expandCallPseudo options frame.hasReservedCallFrame instr with
        | error reason =>
            simp only [adjusted, expanded, bind, Except.bind] at ran
            cases ran
        | ok expansion =>
            simp only [adjusted, expanded, bind, Except.bind, pure, Except.pure] at ran
            cases ran
            rfl
  next noPseudo =>
    right
    obtain ⟨resolved, added, rfl, resolves⟩ := exists_resolves_of_resolveSlots ran
    exact ⟨Bool.eq_false_iff.mpr noPseudo, resolved, added ++ [], rfl,
      (List.append_nil added).symm ▸ resolves⟩

/-! ## The calls of a body -/

theorem callCount_expansion {options : Options} {isReserved : Bool} {instr : Instr}
    {items : List Instr} (ran : expandCallPseudo options isReserved instr = .ok items) :
    callCount items = 0 := by
  apply callCount_eq_zero
  intro item member
  obtain ⟨opcode, amount, rfl | rfl, rfl⟩ := exists_adjust_of_mem_expansion ran member
  · rfl
  · rfl

theorem callCount_lowerInstr {options : Options} {frame : Frame} {keeps : Bool}
    {adjustment last : Int64} {instr : Instr} {items : List Instr}
    (ran : lowerInstr options frame keeps adjustment instr = .done items last) :
    callCount items = callCount [instr] := by
  rcases lowerInstr_eq_done ran with ⟨isPseudo, expanded⟩ | ⟨-, resolved, following, rfl, resolves⟩
  · have noCall : instr.isCall = false := by
      rw [Instr.isCallPseudo, Bool.or_eq_true, beq_iff_eq, beq_iff_eq] at isPseudo
      rcases isPseudo with down | up
      · rw [Instr.isCall, down]
        rfl
      · rw [Instr.isCall, up]
        rfl
    rw [callCount_expansion expanded, callCount_cons_of_not_isCall noCall]
    rfl
  · exact resolves.callCount_eq

/-- The sweep neither adds nor removes calls. -/
theorem callCount_run {options : Options} {frame : Frame} {keeps : Bool}
    {adjustment last : Int64} {instrs items : List Instr}
    (swept : Sweep.run (lowerInstr options frame keeps) adjustment instrs = .done items last) :
    callCount items = callCount instrs := by
  induction instrs generalizing adjustment items with
  | nil =>
      cases swept
      rfl
  | cons instr rest ih =>
      obtain ⟨next, made, remaining, stepped, restSwept, rfl⟩ := Sweep.run_cons_eq_done swept
      rw [← List.singleton_append, callCount_append, callCount_append, callCount_lowerInstr stepped,
        ih restSwept]

end MachineCode
