import MachineCode.Proofs.Frame.Code
import MachineCode.Proofs.Walking

/-!
# The walk over the body

After the frame code has been inserted, lowering walks through every block to expand call sequence
pseudos and to resolve slots. An instruction that takes the address of a slot gets one more
instruction behind it, which the walk then meets as well. Here the walk is described as a sweep over
the instructions, without positions (`lowerInstr`, `lowerBlock`), and the two are shown to be the
same (`run_visitBlocks_lowerBody`).
-/

namespace MachineCode

/-! ## The sweep -/

/-- Resolve the slots at the given operand positions, one after the other. -/
def resolveSlots (frame : Frame) (keepsFramePointer : Bool) (stackAdjustment : Int64)
    (following : List Instr) (instr : Instr) : List Nat → Sweep Instr Int64
  | [] => .done (instr :: following) stackAdjustment
  | position :: rest =>
      if stackAdjustment ≠ 0 then
        .stopped (instr :: following) (.unexpectedSpAdjustment stackAdjustment)
      else
        match resolveSlot frame keepsFramePointer instr position with
        | .ok resolved =>
            resolveSlots frame keepsFramePointer stackAdjustment
              (resolved.following ++ following) resolved.instr rest
        | .error reason => .stopped (instr :: following) reason

/-- Lower one instruction of a block's body. The state is the number of bytes by which the
surrounding call sequence has moved the stack pointer. -/
def lowerInstr (options : Options) (frame : Frame) (keepsFramePointer : Bool)
    (stackAdjustment : Int64) (instr : Instr) : Sweep Instr Int64 :=
  if instr.isCallPseudo then
    let expanded : Except CodeError (List Instr × Int64) := do
      let adjustment ← callAdjustment options instr
      let expansion ← expandCallPseudo options frame.hasReservedCallFrame instr
      pure (expansion, stackAdjustment + adjustment)
    match expanded with
    | .ok (expansion, adjusted) => .done expansion adjusted
    | .error reason => .stopped [instr] reason
  else
    resolveSlots frame keepsFramePointer stackAdjustment [] instr instr.slotPositions

def lowerBlock (options : Options) (frame : Frame) (keepsFramePointer : Bool) (block : Block) :
    Sweep Block Unit :=
  let body := Sweep.run (lowerInstr options frame keepsFramePointer) 0 block.instrs
  { items := [{ block with instrs := body.items }]
    outcome := body.outcome.map fun _ => () }


/-- Slots are resolved one after the other. -/
theorem resolveSlots_cons_eq_done {frame : Frame} {keeps : Bool} {adjustment last : Int64}
    {following items : List Instr} {instr : Instr} {position : Nat} {rest : List Nat}
    (ran : resolveSlots frame keeps adjustment following instr (position :: rest) =
      .done items last) :
    ∃ resolved, resolveSlot frame keeps instr position = .ok resolved ∧
      resolveSlots frame keeps adjustment (resolved.following ++ following) resolved.instr rest =
        .done items last := by
  rw [resolveSlots] at ran
  split at ran
  · cases ran
  · split at ran
    next resolved resolvedRan => exact ⟨resolved, resolvedRan, ran⟩
    next => cases ran

/-! ## The steps of the walk -/

/-- An instruction that the walk leaves alone. -/
theorem lowerInstr_of_plain {instr : Instr} (noPseudo : instr.isCallPseudo = false)
    (noSlot : instr.slotPositions = []) (options : Options) (frame : Frame) (keeps : Bool)
    (adjustment : Int64) :
    lowerInstr options frame keeps adjustment instr = .done [instr] adjustment := by
  rw [lowerInstr, noPseudo, noSlot]
  rfl

theorem plain_adjust {opcode : Opcode} (isOffset : opcode = .add16ri ∨ opcode = .sub16ri)
    (reg : Reg) (amount : Int64) :
    (Instr.adjust opcode reg amount).isCallPseudo = false ∧
      (Instr.adjust opcode reg amount).slotPositions = [] := by
  rcases isOffset with rfl | rfl <;> exact ⟨rfl, rfl⟩

/-- A slot leaves at most one instruction behind the resolved one, and that has no slot. -/
theorem following_of_resolveSlot {frame : Frame} {keeps : Bool} {instr : Instr} {position : Nat}
    {resolved : ResolvedSlot} (ran : resolveSlot frame keeps instr position = .ok resolved) :
    resolved.following.length ≤ 1 ∧
      ∀ behind ∈ resolved.following, behind.isCallPseudo = false ∧ behind.slotPositions = [] := by
  obtain ⟨_, _, _, -, -, -, ⟨target, _, -, -, rfl⟩ | ⟨-, rfl⟩⟩ := resolveSlot_eq_ok ran
  · refine ⟨length_addDisplacement_le .., fun behind member => ?_⟩
    obtain ⟨opcode, amount, isOffset, rfl⟩ := exists_adjust_of_mem_addDisplacement member
    exact plain_adjust isOffset target amount
  · exact ⟨Nat.zero_le 1, nofun⟩

theorem exists_of_resolveSlots_eq_done {frame : Frame} {keeps : Bool} {adjustment last : Int64}
    {following items : List Instr} {instr : Instr} {positions : List Nat}
    (ran : resolveSlots frame keeps adjustment following instr positions = .done items last) :
    last = adjustment ∧ ∃ resolved added, items = resolved :: (added ++ following) ∧
      added.length ≤ positions.length ∧
      ∀ behind ∈ added, behind.isCallPseudo = false ∧ behind.slotPositions = [] := by
  induction positions generalizing following instr with
  | nil =>
      cases ran
      exact ⟨rfl, instr, [], rfl, Nat.le_refl 0, nofun⟩
  | cons position rest ih =>
      obtain ⟨first, firstRan, restRan⟩ := resolveSlots_cons_eq_done ran
      obtain ⟨same, resolved, added, rfl, few, plain⟩ := ih restRan
      refine ⟨same, resolved, added ++ first.following, by rw [List.append_assoc], ?_, ?_⟩
      · obtain ⟨one, -⟩ := following_of_resolveSlot firstRan
        rw [List.length_append, List.length_cons]
        exact Nat.add_le_add few one
      · exact List.forall_mem_append.mpr ⟨plain, (following_of_resolveSlot firstRan).2⟩

/-- The slots of an instruction are resolved one after the other. -/
theorem run_forM_eliminateSlot (options : Options) {function : Function} {id : BlockId}
    {block : Block} {keeps : Bool} (decided : function.frame.framePointer? = some keeps)
    (found : function.block? id = some block) (front back : List Instr) (adjustment : Int64)
    (following : List Instr) (instr : Instr) (positions : List Nat) :
    (positions.forM fun position =>
        eliminateSlot options id front.length position adjustment).run
        (function.withInstrs id (front ++ instr :: (following ++ back))) =
      (Pass.ofExcept ((resolveSlots function.frame keeps adjustment following instr
        positions).outcome.map fun _ => ())).run
        (function.withInstrs id (front ++ ((resolveSlots function.frame keeps adjustment following
          instr positions).items ++ back))) := by
  obtain ⟨keepsEq, same⟩ := Function.decided_of_decided decided options
  induction positions generalizing following instr with
  | nil => rfl
  | cons position rest ih =>
      rw [resolveSlots]
      by_cases moved : adjustment ≠ 0
      · rw [if_pos moved]
        exact Pass.run_bind_of_error (run_eliminateSlot_of_moved moved ..) _
      · obtain rfl : adjustment = 0 := not_not.mp moved
        have ran := run_eliminateSlot options found front instr (following ++ back) position
        rw [keepsEq, same] at ran
        rw [if_neg moved]
        cases slot : resolveSlot function.frame keeps instr position with
        | error reason =>
            rw [slot] at ran
            exact Pass.run_bind_of_error ran _
        | ok resolved =>
            have later := ih (resolved.following ++ following) resolved.instr
            rw [List.append_assoc] at later
            rw [slot] at ran
            exact (Pass.run_bind_of_ok ran _).trans later

section

variable {options : Options} {function : Function} {id : BlockId} {block : Block} {keeps : Bool}

/-- A pseudo is expanded, and the walk goes on behind the expansion. -/
theorem run_lowerAt_of_pseudo {instr : Instr} (isPseudo : instr.isCallPseudo = true)
    (found : function.block? id = some block) (front back : List Instr) (adjustment : Int64) :
    (lowerAt options id front.length instr adjustment).run
        (function.withInstrs id (front ++ instr :: back)) =
      (Pass.ofExcept ((lowerInstr options function.frame keeps adjustment instr).outcome.map
        fun next => (front.length +
          (lowerInstr options function.frame keeps adjustment instr).items.length, next))).run
        (function.withInstrs id
          (front ++
            ((lowerInstr options function.frame keeps adjustment instr).items ++ back))) := by
  have eliminated := run_eliminateCallPseudo options found front instr back
  rw [lowerAt, lowerInstr, if_pos isPseudo, if_pos isPseudo]
  cases callAdjustment options instr with
  | error reason => rfl
  | ok amount =>
      refine (Pass.run_bind_of_ok (Pass.run_ofExcept_ok ..) _).trans ?_
      cases expanded : expandCallPseudo options function.frame.hasReservedCallFrame instr with
      | error reason =>
          rw [expanded] at eliminated
          exact Pass.run_bind_of_error eliminated _
      | ok expansion =>
          rw [expanded] at eliminated
          exact Pass.run_bind_of_ok eliminated _

/-- The slots of an instruction are resolved, and the walk goes on behind the instruction. -/
theorem run_lowerAt_of_plain {instr : Instr} (noPseudo : instr.isCallPseudo = false)
    (decided : function.frame.framePointer? = some keeps)
    (found : function.block? id = some block) (front back : List Instr) (adjustment : Int64) :
    (lowerAt options id front.length instr adjustment).run
        (function.withInstrs id (front ++ instr :: back)) =
      (Pass.ofExcept ((lowerInstr options function.frame keeps adjustment instr).outcome.map
        fun _ => (front.length + 1, adjustment))).run
        (function.withInstrs id
          (front ++
            ((lowerInstr options function.frame keeps adjustment instr).items ++ back))) := by
  have resolved := run_forM_eliminateSlot options decided found front back adjustment [] instr
    instr.slotPositions
  rw [lowerAt, lowerInstr, noPseudo, if_neg Bool.false_ne_true, if_neg Bool.false_ne_true]
  cases swept : resolveSlots function.frame keeps adjustment [] instr instr.slotPositions with
  | mk items outcome =>
      rw [swept] at resolved
      cases outcome with
      | error reason => exact Pass.run_bind_of_error resolved _
      | ok last => exact Pass.run_bind_of_ok resolved _

/-- The steps of the walk follow those of the sweep. An instruction costs a step, and so does each
of its slots. -/
theorem lowerAt_follows (options : Options) (decided : function.frame.framePointer? = some keeps)
    (found : function.block? id = some block) :
    Pass.Follows function id (lowerAt options id) (lowerInstr options function.frame keeps)
      (fun instr => 1 + instr.slotPositions.length) fun _ => True where
  stops front instr back adjustment items reason _ swept := by
    cases isPseudo : instr.isCallPseudo with
    | true =>
        rw [run_lowerAt_of_pseudo isPseudo found front back, swept]
        rfl
    | false =>
        rw [run_lowerAt_of_plain isPseudo decided found front back, swept]
        rfl
  advances front instr back adjustment items next _ swept := by
    refine ⟨trivial, ?_⟩
    cases isPseudo : instr.isCallPseudo with
    | true =>
        refine ⟨items, [], (List.append_nil items).symm, nofun, Nat.lt_of_lt_of_le Nat.zero_lt_one
          (Nat.le_add_right 1 _), ?_⟩
        rw [run_lowerAt_of_pseudo isPseudo found front back, swept]
        rfl
    | false =>
        have ran := swept
        rw [lowerInstr, isPseudo] at ran
        obtain ⟨rfl, resolved, added, rfl, few, plain⟩ := exists_of_resolveSlots_eq_done ran
        rw [List.append_nil] at swept ⊢
        refine ⟨[resolved], added, rfl, ?_, ?_, ?_⟩
        · intro left member
          obtain ⟨noPseudo, noSlot⟩ := plain left member
          exact lowerInstr_of_plain noPseudo noSlot ..
        · rw [totalSize_map_eq_length fun left member => by rw [(plain left member).2]; rfl]
          omega
        · rw [run_lowerAt_of_plain isPseudo decided found front back, swept]
          rfl

/-- Walking through the body of a block is the sweep over its instructions. -/
theorem run_lowerBody (options : Options) (decided : function.frame.framePointer? = some keeps)
    (found : function.block? id = some block) :
    (lowerBody options id).run function =
      (Pass.ofExcept (lowerBlock options function.frame keeps block).outcome).run
        (function.withInstrs id
          (Sweep.run (lowerInstr options function.frame keeps) 0 block.instrs).items) := by
  have walked := Pass.run_walk_block found (lowerAt_follows options decided found) 0 trivial
    (Nat.lt_succ_self (totalSize (block.instrs.map fun instr => 1 + instr.slotPositions.length)))
  refine (Pass.run_bind_of_ok (Pass.run_block_of_some found) _).trans ?_
  rw [lowerBlock]
  cases swept : Sweep.run (lowerInstr options function.frame keeps) 0 block.instrs with
  | mk items outcome =>
      rw [swept] at walked
      cases outcome with
      | error reason => exact Pass.run_bind_of_error walked _
      | ok last => exact Pass.run_bind_of_ok walked _

/-- The walk over the body of a function is the sweep over its blocks. -/
theorem run_visitBlocks_lowerBody (options : Options)
    (decided : function.frame.framePointer? = some keeps) :
    (Pass.visitBlocks (fun id _ => lowerBody options id) ()).run function =
      (Pass.sweepBlocks
        (Sweep.run (fun _ => lowerBlock options function.frame keeps) ())).run function := by
  have follows : Pass.VisitsFollow function (fun id (_ : Unit) => lowerBody options id)
      (fun _ => lowerBlock options function.frame keeps) (fun _ => id) id fun _ => True := by
    refine ⟨fun _ _ => rfl, fun front block rest _ _ _ => ?_⟩
    have lowered := run_lowerBody options (by exact decided)
      (function.block?_append front block rest)
    refine ⟨_, (lowerBlock options function.frame keeps block).outcome, ?_, fun _ _ => trivial,
      lowered.trans (congrArg _ (function.modifyBlock_append front block rest _))⟩
    rw [Except.map_id]
    rfl
  have visited := Pass.run_visitBlocks follows () trivial
  rw [Except.map_id] at visited
  exact visited

end

end MachineCode
