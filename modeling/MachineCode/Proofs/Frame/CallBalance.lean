import MachineCode.Proofs.Frame.Nesting
import MachineCode.Proofs.Frame.Preservation

/-!
# Balanced call sequences

Lowering replaces the two pseudos of a call sequence by moves of the stack pointer, and while it
walks over a block it tracks by how much the sequences that are open have lowered the stack pointer.
Here we follow this walk (`Walks`). The number that it tracks is the sum of the bytes of the open
sequences, each rounded up to the stack alignment. The moves that it inserts and the pops of the
callees have lowered the stack pointer by this sum, or by nothing if the frame reserves the bytes,
less what has been popped inside sequences that are still open (`lowerFrame_callsBalanced`).
-/

namespace MachineCode

/-! ## Moves of the stack pointer -/

/-- The bytes by which an offset of the stack pointer raises it. -/
def Instr.stackMove (instr : Instr) : Int :=
  match instr.opcode, instr.operands with
  | .add16ri, [.register (.physical target) _, .register (.physical source) _, .immediate amount,
      _] =>
      if target = .sp ∧ source = .sp then amount.toInt else 0
  | .sub16ri, [.register (.physical target) _, .register (.physical source) _, .immediate amount,
      _] =>
      if target = .sp ∧ source = .sp then -amount.toInt else 0
  | _, _ => 0

def stackMoves : List Instr → Int
  | [] => 0
  | instr :: rest => instr.stackMove + stackMoves rest

@[simp] theorem stackMoves_lowerStack (amount : Int64) :
    stackMoves [.lowerStack amount] = -amount.toInt :=
  Int.add_zero _

@[simp] theorem stackMoves_raiseStack (amount : Int64) :
    stackMoves [.raiseStack amount] = amount.toInt :=
  Int.add_zero _

section

variable {alignment : UInt64} {amount : Int64} {bytes : Nat} (positive : 0 < alignment.toNat)
  (amountEq : amount.toInt = bytes) (fits : bytes + alignment.toNat < byteLimit)

include positive amountEq fits

theorem stackMoves_callSetup (isReserved : Bool) :
    stackMoves (callSetup alignment isReserved amount) =
      -(if isReserved then 0 else leastMultiple alignment.toNat bytes : Nat) := by
  cases isReserved with
  | true => rfl
  | false =>
      rw [callSetup, Bool.false_or, if_neg Bool.false_ne_true]
      split
      next isZero =>
        rw [eq_zero_of_toInt amountEq (beq_iff_eq.mp isZero), leastMultiple_zero positive]
        rfl
      next => rw [stackMoves_lowerStack, toInt_roundUp positive amountEq fits]

theorem stackMoves_callCleanup {popped : Int64} {poppedBytes : Nat}
    (poppedEq : popped.toInt = poppedBytes) {isReserved : Bool}
    (bounded : isReserved = false → poppedBytes ≤ leastMultiple alignment.toNat bytes) :
    stackMoves (callCleanup alignment isReserved amount popped) =
      (if isReserved then 0 else leastMultiple alignment.toNat bytes : Nat) -
        (poppedBytes : Int) := by
  cases isReserved with
  | true =>
      rw [callCleanup, if_pos rfl, if_pos rfl]
      split
      next isZero =>
        rw [eq_zero_of_toInt poppedEq isZero]
        rfl
      next => rw [stackMoves_lowerStack, poppedEq, Int.natCast_zero, Int.zero_sub]
  | false =>
      have enough := bounded rfl
      have below := leastMultiple_lt positive bytes
      rw [callCleanup, if_neg Bool.false_ne_true, if_neg Bool.false_ne_true]
      split
      next isZero =>
        rw [eq_zero_of_toInt amountEq isZero, leastMultiple_zero positive] at enough ⊢
        rw [Nat.le_zero.mp enough]
        rfl
      next =>
        have remainingEq : ((roundUp alignment amount.toUInt64).toInt64 - popped).toInt =
            leastMultiple alignment.toNat bytes - (poppedBytes : Int) := by
          rw [Int64.toInt_sub, toInt_roundUp positive amountEq fits, poppedEq]
          rw [byteLimit] at fits
          exact bmod_of_fits (by omega) (by omega)
        dsimp only
        split
        next => rw [stackMoves_raiseStack, remainingEq]
        next notAbove =>
          rw [Int64.lt_iff_toInt_lt, remainingEq] at notAbove
          have zeroEq : (0 : Int64).toInt = 0 := rfl
          change (0 : Int) = _
          omega

end

/-! ## The walk over a block -/

/-- The bytes by which the code for a pseudo or the callee of a call raises the stack pointer. -/
def CallStep.stackMove (step : CallStep) (code : List Instr) : Int :=
  if step.instr.isCallPseudo then
    stackMoves code
  else if step.instr.opcode = .jal then
    step.popped
  else
    0

/-- What the walk does at an instruction: the number that it has tracked so far, and the code that
it puts in place of the instruction. -/
structure Visit where
  step : CallStep
  origin : Origin
  adjustment : Int64
  code : List Instr

def Visit.item (visit : Visit) : Traced :=
  { instr := visit.step.instr, origin := visit.origin }

/-- Whether the walk visits one of the function's own instructions. -/
def Visit.isOwn (visit : Visit) : Bool :=
  visit.item.isOwn

/-- The bytes by which call sequences and callees raise the stack pointer. -/
def callMoves : List Visit → Int
  | [] => 0
  | visit :: rest => visit.step.stackMove visit.code + callMoves rest

/-- A walk over instructions, from a tracked number to another. -/
inductive Walks (options : Options) (frame : Frame) (keeps : Bool) :
    Int64 → List Visit → Int64 → Prop
  | nil (adjustment : Int64) : Walks options frame keeps adjustment [] adjustment
  | cons {step : CallStep} {origin : Origin} {adjustment next last : Int64} {code : List Instr}
      {rest : List Visit}
      (lowered : lowerInstr options frame keeps adjustment step.instr = .done code next)
      (remaining : Walks options frame keeps next rest last) :
      Walks options frame keeps adjustment ({ step, origin, adjustment, code } :: rest) last

/-- What holds between the open sequences, the number that the walk tracks and the bytes by which
it has raised the stack pointer. -/
structure Balanced (alignment : Nat) (isReserved : Bool) (opened : List OpenSequence)
    (adjustment : Int64) (raised : Int) : Prop where
  tracked : adjustment.toInt = openBytes alignment opened
  raised : raised =
    poppedBytes opened - ((if isReserved then 0 else openBytes alignment opened : Nat) : Int)
  fits : ∀ sequence ∈ opened, sequence.amount + alignment < byteLimit

theorem balanced_nil (alignment : Nat) (isReserved : Bool) :
    Balanced alignment isReserved [] 0 0 where
  tracked := rfl
  raised := by simp [poppedBytes, openBytes]
  fits := by simp

section

variable {options : Options} {frame : Frame} {keeps : Bool} {adjustment : Int64} {instr : Instr}
  {amount popped : Int64}

theorem immediateOperand_of_getElem? {index : Nat} {value : Int64}
    (found : instr.operands[index]? = some (.immediate value)) :
    instr.immediateOperand index = .ok value := by
  rw [Instr.immediateOperand, Instr.operand, found]
  rfl

theorem lowerInstr_of_down (down : instr.opcode = .adjCallStackDown)
    (amountFound : instr.operands[0]? = some (.immediate amount)) :
    lowerInstr options frame keeps adjustment instr =
      .done (callSetup options.alignment frame.hasReservedCallFrame amount)
        (adjustment + (amount + options.alignment.toInt64 - 1) / options.alignment.toInt64 *
          options.alignment.toInt64) := by
  have isPseudo : instr.isCallPseudo = true := by simp [Instr.isCallPseudo, down]
  have amountRead := immediateOperand_of_getElem? amountFound
  simp only [lowerInstr, if_pos isPseudo, callAdjustment, expandCallPseudo, down, amountRead]
  rfl

theorem lowerInstr_of_up (up : instr.opcode = .adjCallStackUp)
    (amountFound : instr.operands[0]? = some (.immediate amount))
    (poppedFound : instr.operands[1]? = some (.immediate popped)) :
    lowerInstr options frame keeps adjustment instr =
      .done (callCleanup options.alignment frame.hasReservedCallFrame amount popped)
        (adjustment + -((amount + options.alignment.toInt64 - 1) / options.alignment.toInt64 *
          options.alignment.toInt64)) := by
  have isPseudo : instr.isCallPseudo = true := by simp [Instr.isCallPseudo, up]
  have amountRead := immediateOperand_of_getElem? amountFound
  have poppedRead := immediateOperand_of_getElem? poppedFound
  simp only [lowerInstr, if_pos isPseudo, callAdjustment, expandCallPseudo, up, amountRead,
    poppedRead]
  rfl

/-- Only the pseudos of call sequences change the number that the walk tracks. -/
theorem adjustment_of_resolveSlots {last : Int64} {following items : List Instr}
    {positions : List Nat}
    (ran : resolveSlots frame keeps adjustment following instr positions = .done items last) :
    last = adjustment := by
  induction positions generalizing instr following with
  | nil =>
      cases ran
      rfl
  | cons position rest ih =>
      obtain ⟨_, -, restRan⟩ := resolveSlots_cons_eq_done ran
      exact ih restRan

theorem adjustment_of_lowerInstr {last : Int64} {items : List Instr}
    (noPseudo : instr.isCallPseudo = false)
    (ran : lowerInstr options frame keeps adjustment instr = .done items last) :
    last = adjustment := by
  rw [lowerInstr, noPseudo, if_neg Bool.false_ne_true] at ran
  exact adjustment_of_resolveSlots ran

end

namespace Balanced

variable {alignment amount popped : Nat} {isReserved : Bool} {opened next : List OpenSequence}
  {adjustment aligned : Int64} {raised : Int}

/-- A sequence lowers the stack pointer by its bytes, unless they are reserved. -/
theorem start (balanced : Balanced alignment isReserved opened adjustment raised)
    (amountFits : amount + alignment < byteLimit)
    (sumFits : openBytes alignment ({ amount } :: opened) < byteLimit)
    (alignedEq : aligned.toInt = leastMultiple alignment amount) :
    Balanced alignment isReserved ({ amount } :: opened) (adjustment + aligned)
      (raised + -((if isReserved then 0 else leastMultiple alignment amount : Nat) : Int)) where
  tracked := by
    simp only [byteLimit, openBytes] at sumFits
    rw [Int64.toInt_add, balanced.tracked, alignedEq]
    simp only [openBytes]
    exact (bmod_of_fits (by omega) (by omega)).trans (by omega)
  raised := by
    rw [balanced.raised]
    simp only [poppedBytes, openBytes]
    split <;> omega
  fits := List.forall_mem_cons.mpr ⟨amountFits, balanced.fits⟩

/-- The end of a sequence takes back what the callee has popped and raises the stack pointer by the
bytes of the sequence, unless they are reserved. -/
theorem finish
    (balanced : Balanced alignment isReserved ({ amount, popped } :: next) adjustment raised)
    (alignedEq : aligned.toInt = leastMultiple alignment amount) :
    Balanced alignment isReserved next (adjustment + -aligned)
      (raised + ((if isReserved then 0 else leastMultiple alignment amount : Nat) -
        (popped : Int))) where
  tracked := by
    have inRange := adjustment.toInt_lt
    rw [balanced.tracked] at inRange
    simp only [openBytes] at inRange
    rw [← Int64.sub_eq_add_neg, Int64.toInt_sub, balanced.tracked, alignedEq]
    simp only [openBytes]
    exact (bmod_of_fits (by omega) (by omega)).trans (by omega)
  raised := by
    rw [balanced.raised]
    simp only [poppedBytes, openBytes]
    split <;> omega
  fits := (List.forall_mem_cons.mp balanced.fits).2

/-- A call pops bytes of the innermost sequence. -/
theorem call (balanced : Balanced alignment isReserved opened adjustment raised)
    (called : callInside opened popped = some next) :
    Balanced alignment isReserved next adjustment (raised + popped) := by
  cases opened with
  | nil =>
      obtain ⟨rfl, rfl⟩ : popped = 0 ∧ next = [] := by
        simpa [callInside, eq_comm] using called
      rwa [Int.natCast_zero, Int.add_zero]
  | cons sequence outer =>
      cases called
      refine ⟨balanced.tracked, ?_, ?_⟩
      · rw [balanced.raised]
        simp only [poppedBytes, openBytes]
        omega
      · exact List.forall_mem_cons.mpr (List.forall_mem_cons.mp balanced.fits)

/-- One step of the walk keeps the balance. -/
theorem step {options : Options} {frame : Frame} {keeps : Bool} {step : CallStep}
    {code : List Instr} {last : Int64}
    (balanced : Balanced options.alignment.toNat frame.hasReservedCallFrame opened adjustment
      raised)
    (advanced : advance options.alignment.toNat frame.hasReservedCallFrame opened step =
      some next)
    (lowered : lowerInstr options frame keeps adjustment step.instr = .done code last) :
    Balanced options.alignment.toNat frame.hasReservedCallFrame next last
      (raised + step.stackMove code) := by
  have positive : 0 < options.alignment.toNat := by
    rw [toNat_alignment]
    omega
  rcases advance_eq_some advanced with ⟨down, amount, amountFound, amountFits, sumFits, rfl⟩ |
    ⟨up, amount, popped, amountFound, poppedFound, bounded, rfl⟩ | ⟨isCall, called⟩ |
    ⟨noPart, rfl⟩
  · obtain ⟨value, operand, valueEq⟩ := exists_of_bytes? amountFound
    have isPseudo : step.instr.isCallPseudo = true := by simp [Instr.isCallPseudo, down]
    rw [lowerInstr_of_down down operand] at lowered
    cases lowered
    rw [CallStep.stackMove, if_pos isPseudo, stackMoves_callSetup positive valueEq amountFits]
    exact balanced.start amountFits sumFits (toInt_alignedAmount positive valueEq amountFits)
  · obtain ⟨value, operand, valueEq⟩ := exists_of_bytes? amountFound
    obtain ⟨poppedValue, poppedOperand, poppedEq⟩ := exists_of_bytes? poppedFound
    have amountFits : amount + options.alignment.toNat < byteLimit :=
      balanced.fits _ (List.mem_cons_self ..)
    have isPseudo : step.instr.isCallPseudo = true := by simp [Instr.isCallPseudo, up]
    rw [lowerInstr_of_up up operand poppedOperand] at lowered
    cases lowered
    rw [CallStep.stackMove, if_pos isPseudo,
      stackMoves_callCleanup positive valueEq amountFits poppedEq bounded]
    exact balanced.finish (toInt_alignedAmount positive valueEq amountFits)
  · have noPseudo : step.instr.isCallPseudo = false := by simp [Instr.isCallPseudo, isCall]
    rw [adjustment_of_lowerInstr noPseudo lowered, CallStep.stackMove, noPseudo,
      if_neg Bool.false_ne_true, if_pos isCall]
    exact balanced.call called
  · rw [Instr.isCallPart, Bool.or_eq_false_iff] at noPart
    have noCall : step.instr.opcode ≠ .jal := beq_eq_false_iff_ne.mp noPart.2
    rwa [adjustment_of_lowerInstr noPart.1 lowered, CallStep.stackMove, noPart.1,
      if_neg Bool.false_ne_true, if_neg noCall, Int.add_zero]

end Balanced

section

variable {options : Options} {frame : Frame} {keeps : Bool}

/-- A walk keeps the balance, so it holds wherever the walk is interrupted. -/
theorem Walks.split {adjustment last : Int64} {front back : List Visit}
    {opened final : List OpenSequence} {raised : Int}
    (walks : Walks options frame keeps adjustment (front ++ back) last)
    (balanced : Balanced options.alignment.toNat frame.hasReservedCallFrame opened adjustment
      raised)
    (opens : openSequences? options.alignment.toNat frame.hasReservedCallFrame opened
      ((front ++ back).map Visit.step) = some final) :
    ∃ reached between,
      openSequences? options.alignment.toNat frame.hasReservedCallFrame opened
        (front.map Visit.step) = some reached ∧
      openSequences? options.alignment.toNat frame.hasReservedCallFrame reached
        (back.map Visit.step) = some final ∧
      Balanced options.alignment.toNat frame.hasReservedCallFrame reached between
        (raised + callMoves front) ∧
      Walks options frame keeps between back last := by
  induction front generalizing adjustment opened raised with
  | nil =>
      rw [callMoves, Int.add_zero]
      exact ⟨opened, adjustment, rfl, opens, balanced, walks⟩
  | cons visit front ih =>
      cases walks with
      | cons lowered remaining =>
          obtain ⟨next, advanced, rest⟩ := openSequences?_cons_eq_some.mp opens
          obtain ⟨reached, between, frontOpens, backOpens, reachedBalanced, backWalks⟩ :=
            ih remaining (balanced.step advanced lowered) rest
          rw [Int.add_assoc, ← callMoves] at reachedBalanced
          exact ⟨reached, between, openSequences?_cons_eq_some.mpr ⟨next, advanced, frontOpens⟩,
            backOpens, reachedBalanced, backWalks⟩

/-- A sweep over traced code is a walk. The steps say what is popped at the function's own
instructions. -/
theorem exists_walk {adjustment last : Int64} {code result : List Traced} {steps : List CallStep}
    (ran : Sweep.run (lowerTraced options frame keeps) adjustment code = .done result last)
    (own : steps.map CallStep.instr = untraced (code.filter Traced.isOwn)) :
    ∃ log, Walks options frame keeps adjustment log last ∧ log.map Visit.item = code ∧
      log.flatMap Visit.code = untraced result ∧
      (log.filter Visit.isOwn).map Visit.step = steps := by
  induction code generalizing adjustment result steps with
  | nil =>
      cases ran
      cases List.map_eq_nil_iff.mp own
      exact ⟨[], .nil _, rfl, rfl, rfl⟩
  | cons item rest ih =>
      obtain ⟨next, finished, remaining, stepped, swept, rfl⟩ := Sweep.run_cons_eq_done ran
      obtain ⟨items, lowered, rfl⟩ := lowerTraced_eq_done stepped
      rw [untraced_append, untraced_traced]
      cases isOwn : item.isOwn with
      | true =>
          rw [List.filter_cons_of_pos isOwn] at own
          obtain ⟨step, restSteps, rfl, stepEq, restOwn⟩ := List.map_eq_cons_iff.mp own
          obtain ⟨log, walks, itemsEq, codeEq, stepsEq⟩ := ih swept restOwn
          obtain ⟨instr, origin⟩ := item
          cases stepEq
          refine ⟨{ step, origin, adjustment, code := items } :: log, .cons lowered walks, ?_, ?_,
            ?_⟩
          · rw [List.map_cons, itemsEq]
            rfl
          · rw [List.flatMap_cons, codeEq]
          · simpa [Visit.isOwn, Visit.item, isOwn] using stepsEq
      | false =>
          have notOwn : ¬item.isOwn = true := by simp [isOwn]
          rw [List.filter_cons_of_neg notOwn] at own
          obtain ⟨log, walks, itemsEq, codeEq, stepsEq⟩ := ih swept own
          obtain ⟨instr, origin⟩ := item
          refine ⟨{ step := { instr }, origin, adjustment, code := items } :: log,
            .cons lowered walks, ?_, ?_, ?_⟩
          · rw [List.map_cons, itemsEq]
            rfl
          · rw [List.flatMap_cons, codeEq]
          · simpa [Visit.isOwn, Visit.item, isOwn] using stepsEq

end

/-! ## Frame code around call sequences -/

theorem IsFrameCode.not_isCallPart {registers : List Register} {instr : Instr}
    (frameCode : IsFrameCode registers instr) : instr.isCallPart = false := by
  cases frameCode <;> rfl

section

variable {alignment : Nat} {isReserved : Bool} {opened : List OpenSequence} {log : List Visit}

/-- Frame code starts and ends no sequences. -/
theorem openSequences?_filter_isOwn
    (inserted : ∀ visit ∈ log, visit.isOwn = false → visit.step.instr.isCallPart = false) :
    openSequences? alignment isReserved opened ((log.filter Visit.isOwn).map Visit.step) =
      openSequences? alignment isReserved opened (log.map Visit.step) := by
  induction log generalizing opened with
  | nil => rfl
  | cons visit rest ih =>
      rw [List.forall_mem_cons] at inserted
      cases isOwn : visit.isOwn with
      | true =>
          rw [List.filter_cons_of_pos isOwn]
          exact Option.bind_congr fun next _ => ih inserted.2
      | false =>
          rw [List.filter_cons_of_neg (by simp [isOwn]), ih inserted.2, List.map_cons,
            openSequences?, openSequences?, List.foldlM_cons,
            advance_of_not_isCallPart (inserted.1 isOwn)]
          rfl

/-- If only instructions outside of sequences stand in front of the core and behind it, then a walk
that has opened a sequence is in the core. -/
theorem origin_of_open {entering core leaving front back : List Visit} {visit : Visit}
    (outside : ∀ visit ∈ entering ++ leaving, visit.step.instr.isCallPart = false)
    (isBody : ∀ visit ∈ core, visit.origin = .body)
    (logEq : entering ++ (core ++ leaving) = front ++ visit :: back)
    (frontOpens : openSequences? alignment isReserved [] (front.map Visit.step) = some opened)
    (backOpens : openSequences? alignment isReserved opened ((visit :: back).map Visit.step) =
      some [])
    (isOpen : opened ≠ []) : visit.origin = .body := by
  rw [List.forall_mem_append] at outside
  have unchanged {visits : List Visit} {before after : List OpenSequence}
      (noParts : ∀ visit ∈ visits, visit.step.instr.isCallPart = false)
      (opens : openSequences? alignment isReserved before (visits.map Visit.step) = some after) :
      before = after := by
    rw [openSequences?_of_not_isCallPart (List.forall_mem_map.mpr noParts)] at opens
    exact Option.some.inj opens
  rcases List.append_eq_append_iff.mp logEq with ⟨entered, rfl, restEq⟩ | ⟨ahead, rfl, -⟩
  · rcases List.append_eq_append_iff.mp restEq with ⟨left, rfl, leavingEq⟩ | ⟨inCore, rfl, backEq⟩
    · exact (isOpen (unchanged (fun visit member => outside.2 visit
        (leavingEq ▸ List.mem_append_right _ member)) backOpens)).elim
    · cases inCore with
      | nil => exact (isOpen (unchanged (backEq ▸ outside.2) backOpens)).elim
      | cons first rest =>
          cases backEq
          exact isBody _ (List.mem_append_right _ (List.mem_cons_self ..))
  · exact (isOpen (unchanged (fun visit member => outside.1 visit
      (List.mem_append_left _ member)) frontOpens).symm).elim

end

theorem not_isCallPart_of_isPush {instr : Instr} (isPush : instr.isPush = true) :
    instr.isCallPart = false := by
  rw [Instr.isCallPart, Instr.isCallPseudo, beq_iff_eq.mp isPush]
  rfl

theorem not_isCallPart_of_isPopOrTerminator {instr : Instr}
    (ends : instr.isPopOrTerminator = true) : instr.isCallPart = false := by
  rw [Instr.isPopOrTerminator, Instr.isTerminator] at ends
  rw [Instr.isCallPart, Instr.isCallPseudo]
  generalize instr.opcode = opcode at ends ⊢
  revert ends
  cases opcode <;> decide

/-- The visits of framed code: sequences are in the core. -/
theorem exists_core {instrs : List Instr} {log : List Visit}
    (frames : FramesCore instrs (log.map Visit.item))
    (inserted : ∀ visit ∈ log, visit.isOwn = false → visit.step.instr.isCallPart = false) :
    ∃ entering core leaving, log = entering ++ (core ++ leaving) ∧
      (∀ visit ∈ entering ++ leaving, visit.step.instr.isCallPart = false) ∧
      ∀ visit ∈ core, visit.origin = .body := by
  generalize codeEq : log.map Visit.item = code at frames
  cases frames with
  | @intro pushes core tail entry exit entryOwn exitOwn pushesOnly tailOnly =>
      rw [List.append_assoc] at codeEq
      obtain ⟨entering, rest, rfl, rfl, restEq⟩ := List.map_eq_append_iff.mp codeEq
      obtain ⟨core, leaving, rfl, coreEq, rfl⟩ := List.map_eq_append_iff.mp restEq
      have noParts {visits : List Visit} {own : List Instr}
          (within : ∀ visit ∈ visits, visit ∈ entering ++ (core ++ leaving))
          (ownEq : (visits.map Visit.item).filter Traced.isOwn = traced .body own)
          (ownParts : ∀ instr ∈ own, instr.isCallPart = false) :
          ∀ visit ∈ visits, visit.step.instr.isCallPart = false := by
        intro visit member
        cases isOwn : visit.isOwn with
        | false => exact inserted visit (within visit member) isOwn
        | true =>
            have ownMember : visit.item ∈ (visits.map Visit.item).filter Traced.isOwn :=
              List.mem_filter.mpr ⟨List.mem_map_of_mem member, isOwn⟩
            rw [ownEq] at ownMember
            exact ownParts _ (mem_traced.mp ownMember).1
      refine ⟨entering, core, leaving, rfl, List.forall_mem_append.mpr ⟨?_, ?_⟩, ?_⟩
      · exact noParts (fun _ => List.mem_append_left _) entryOwn fun instr member =>
          not_isCallPart_of_isPush (pushesOnly instr member)
      · exact noParts (fun _ member => List.mem_append_right _ (List.mem_append_right _ member))
          exitOwn fun instr member => not_isCallPart_of_isPopOrTerminator (tailOnly instr member)
      · intro visit member
        have bodyMember : visit.item ∈ core.map Visit.item := List.mem_map_of_mem member
        rw [coreEq] at bodyMember
        exact (mem_traced.mp bodyMember).2

/-! ## Balance -/

/-- A walk over matched sequences is balanced. Where it visits an instruction, the number that it
tracks is the sum of the open sequences' bytes, and the stack pointer has been lowered by this sum,
or not at all if the bytes are reserved, less what has been popped inside the open sequences. No
frame code stands inside a sequence. Over instructions whose sequences are matched, all moves
cancel. -/
structure BalancedWalk (alignment : Nat) (isReserved : Bool) (log : List Visit) : Prop where
  tracks : ∀ (front : List Visit) (visit : Visit) back, log = front ++ visit :: back →
    ∃ opened, openSequences? alignment isReserved [] (front.map Visit.step) = some opened ∧
      visit.adjustment.toInt = openBytes alignment opened ∧
      callMoves front =
        poppedBytes opened - ((if isReserved then 0 else openBytes alignment opened : Nat) : Int) ∧
      (opened ≠ [] → visit.origin = .body)
  cancels : ∀ front sequence back, log = front ++ sequence ++ back →
    openSequences? alignment isReserved [] (sequence.map Visit.step) = some [] →
      callMoves sequence = 0

theorem Walks.balanced {options : Options} {frame : Frame} {keeps : Bool} {last : Int64}
    {log : List Visit} {instrs : List Instr} (walks : Walks options frame keeps 0 log last)
    (frames : FramesCore instrs (log.map Visit.item))
    (inserted : ∀ visit ∈ log, visit.isOwn = false → visit.step.instr.isCallPart = false)
    (opens : openSequences? options.alignment.toNat frame.hasReservedCallFrame []
      (log.map Visit.step) = some []) :
    BalancedWalk options.alignment.toNat frame.hasReservedCallFrame log where
  tracks := by
    rintro front visit back rfl
    obtain ⟨opened, between, frontOpens, backOpens, balanced, backWalks⟩ :=
      walks.split (balanced_nil ..) opens
    obtain ⟨entering, core, leaving, logEq, outside, isBody⟩ := exists_core frames inserted
    rw [Int.zero_add] at balanced
    refine ⟨opened, frontOpens, ?_, balanced.raised,
      origin_of_open outside isBody logEq.symm frontOpens backOpens⟩
    cases backWalks
    exact balanced.tracked
  cancels := by
    rintro front sequence back rfl isMatched
    rw [List.append_assoc] at walks opens
    obtain ⟨opened, between, frontOpens, restOpens, balanced, restWalks⟩ :=
      walks.split (balanced_nil ..) opens
    obtain ⟨reached, _, sequenceOpens, -, balancedBehind, -⟩ :=
      restWalks.split balanced restOpens
    obtain rfl : reached = opened := openSequences?_around isMatched sequenceOpens
    have raisedEq := balancedBehind.raised.trans balanced.raised.symm
    omega

/-- Call sequences stay balanced. Give each call the bytes that its callee pops, such that the
sequences of a block are matched: the end of a sequence repeats its bytes and the bytes popped by
its calls. If lowering goes through, its walk over the framed block leaves the lowered block, and
it is balanced. Bytes are rounded up to the least multiple of the alignment. -/
theorem lowerFrame_callsBalanced {options : Options} {function lowered : Function} {id : BlockId}
    {original : Block} {steps : List CallStep}
    (ran : (lowerFrame options).run function = .ok () lowered)
    (found : function.block? id = some original)
    (stepsEq : steps.map CallStep.instr = original.instrs)
    (isMatched : openSequences? (max 1 options.stackAlignment.toNat)
      function.frame.hasReservedCallFrame [] steps = some []) :
    (∃ block log last, lowered.block? id = some block ∧
      Walks options lowered.frame (function.frame.hasFramePointer options) 0 log last ∧
      log.map Visit.item = tracedFrame options function id original ∧
      log.flatMap Visit.code = block.instrs ∧
      (log.filter Visit.isOwn).map Visit.step = steps ∧
      BalancedWalk (max 1 options.stackAlignment.toNat) function.frame.hasReservedCallFrame log) ∧
    ∀ amount, IsLeast {bytes | max 1 options.stackAlignment.toNat ∣ bytes ∧ amount ≤ bytes}
      (leastMultiple (max 1 options.stackAlignment.toNat) amount) := by
  refine ⟨?_, isLeast_leastMultiple (by omega)⟩
  have nonempty : function.blocks ≠ [] := List.ne_nil_of_mem (List.mem_of_getElem? found)
  obtain ⟨localArea, lowers⟩ := exists_lowersTo ran nonempty rfl
  obtain ⟨block, loweredFound, -⟩ := lowers.exists_block found
  obtain ⟨last, traceRan, blockEq⟩ := exists_tracedBlock ran found loweredFound
  have frames := framesCore_tracedFrame options function id original
  have own : steps.map CallStep.instr =
      untraced ((tracedFrame options function id original).filter Traced.isOwn) := by
    rw [frames.filter_isOwn, untraced_traced, stepsEq]
  obtain ⟨log, walks, itemsEq, codeEq, ownSteps⟩ := exists_walk traceRan own
  have inserted : ∀ visit ∈ log, visit.isOwn = false → visit.step.instr.isCallPart = false := by
    intro visit member notOwn
    have itemMember : visit.item ∈ tracedFrame options function id original := by
      rw [← itemsEq]
      exact List.mem_map_of_mem member
    exact (isFrameCode_of_inserted itemMember (beq_eq_false_iff_ne.mp notOwn)).not_isCallPart
  rw [← toNat_alignment, ← ownSteps, openSequences?_filter_isOwn inserted] at isMatched
  refine ⟨block, log, last, loweredFound, walks, itemsEq, codeEq.trans blockEq, ownSteps, ?_⟩
  rw [← itemsEq] at frames
  rw [← toNat_alignment]
  have reserved : lowered.frame.hasReservedCallFrame = function.frame.hasReservedCallFrame := by
    rw [lowers.frame]
    rfl
  rw [← reserved] at isMatched ⊢
  exact walks.balanced frames inserted isMatched

/-- A sequence that is still open after its callee has popped everything, with another one behind
the call. -/
def chainedSteps : List CallStep := [
  { instr := { opcode := .adjCallStackDown, operands := [.immediate 3] } },
  { instr := { opcode := .jal, operands := [.symbol "outer"] }, popped := 4 },
  { instr := { opcode := .adjCallStackDown, operands := [.immediate 6] } },
  { instr := { opcode := .jal, operands := [.symbol "inner"] }, popped := 2 },
  { instr := { opcode := .adjCallStackUp, operands := [.immediate 6, .immediate 2] } },
  { instr := { opcode := .adjCallStackUp, operands := [.immediate 3, .immediate 4] } },
  { instr := { opcode := .ret } }]

/-- A function that consists of these sequences. It has no local area. -/
def chained (hasVarSizedObjects : Bool) : Function where
  name := "chained"
  frame := { stackSize := if hasVarSizedObjects then 2 else 0, hasVarSizedObjects }
  blocks := [{ name := "start", instrs := chainedSteps.map CallStep.instr }]

/-- The lowered function in front of its inner call. -/
def beforeInner (hasVarSizedObjects : Bool) : List Instr :=
  if hasVarSizedObjects then
    [.push .fp, .copy .fp .sp, .lowerStack 4, { opcode := .jal, operands := [.symbol "outer"] },
      .lowerStack 6]
  else
    [{ opcode := .jal, operands := [.symbol "outer"] }]

/-- The lowered function behind its inner call. -/
def behindInner (hasVarSizedObjects : Bool) : List Instr :=
  if hasVarSizedObjects then
    [.raiseStack 4, .copy .sp .fp, .pop .fp, { opcode := .ret }]
  else
    [.lowerStack 2, .lowerStack 4, { opcode := .ret }]

def chainedLowered (hasVarSizedObjects : Bool) : Function where
  name := "chained"
  frame :=
    { (chained hasVarSizedObjects).frame with
      fixedObjects := if hasVarSizedObjects then [{ size := 2, offset := -4 }] else []
      framePointer? := some hasVarSizedObjects }
  blocks := [
    { name := "start"
      instrs := beforeInner hasVarSizedObjects ++
        { opcode := .jal, operands := [.symbol "inner"] } :: behindInner hasVarSizedObjects }]

theorem run_lowerFrame_chained (hasVarSizedObjects : Bool) :
    (lowerFrame {}).run (chained hasVarSizedObjects) =
      .ok () (chainedLowered hasVarSizedObjects) := by
  cases hasVarSizedObjects <;> decide +kernel

theorem lowerFrame_callsBalanced_chained :
    (lowerFrame {}).run (chained true) = .ok () (chainedLowered true) ∧
      openSequences? 2 false [] chainedSteps = some [] ∧
      ∃ block log last, (chainedLowered true).block? 0 = some block ∧
        Walks {} (chainedLowered true).frame true 0 log last ∧
        log.flatMap Visit.code = block.instrs ∧
        (log.filter Visit.isOwn).map Visit.step = chainedSteps ∧ BalancedWalk 2 false log := by
  have ran := run_lowerFrame_chained true
  have isMatched : openSequences? 2 false [] chainedSteps = some [] := by decide
  obtain ⟨⟨block, log, last, loweredFound, walks, -, codeEq, stepsEq, balanced⟩, -⟩ :=
    @lowerFrame_callsBalanced {} _ _ 0 _ chainedSteps ran rfl rfl isMatched
  exact ⟨ran, isMatched, block, log, last, loweredFound, walks, codeEq, stepsEq, balanced⟩

/-- At a call, the stack pointer need not be lower by the bytes of the open sequences, nor be where
it was if they are reserved: what an earlier call has popped is missing until its sequence ends. -/
theorem stackMoves_beforeInner :
    (lowerFrame {}).run (chained true) = .ok () (chainedLowered true) ∧
      (lowerFrame {}).run (chained false) = .ok () (chainedLowered false) ∧
      openSequences? 2 false [] (chainedSteps.take 3) =
        some [{ amount := 6 }, { amount := 3, popped := 4 }] ∧
      openBytes 2 [{ amount := 6 }, { amount := 3, popped := 4 }] = 10 ∧
      stackMoves (beforeInner true) + 4 = -6 ∧
      stackMoves (beforeInner false) + 4 = 4 :=
  ⟨run_lowerFrame_chained true, run_lowerFrame_chained false, by decide, by decide, by decide,
    by decide⟩

end MachineCode
