import MachineCode.Proofs.Frame.Body
import MachineCode.Proofs.Frame.Order
import MachineCode.Proofs.Frame.Stopping

/-!
# Branches and exit code

The exit code of a returning block undoes the frame: it releases the local area, restores registers
and pops the frame pointer. A branch that leaves the block behind exit code leaves without a frame.
Restores go in front of all terminators that end the block, and the local area is released in front
of all pops and terminators, so this happens exactly where a branch stands among them
(`lowerFrame_branchesAhead_iff`).
-/

namespace MachineCode

/-! ## Cutting from the end -/

section

variable {item : Type} {predicate : item → Bool} {left right : List item}

theorem rtakeWhile_append_of_pos (pass : ∀ value ∈ right, predicate value = true) :
    (left ++ right).rtakeWhile predicate = left.rtakeWhile predicate ++ right ∧
      (left ++ right).rdropWhile predicate = left.rdropWhile predicate := by
  have passReverse : ∀ value ∈ right.reverse, predicate value = true := by simpa using pass
  constructor
  · rw [List.rtakeWhile, List.reverse_append, List.takeWhile_append_of_pos passReverse,
      List.reverse_append, List.reverse_reverse, List.rtakeWhile]
  · rw [List.rdropWhile, List.reverse_append, List.dropWhile_append_of_pos passReverse,
      List.rdropWhile]

theorem takeWhile_append_of_neg (fail : ∀ value ∈ right, predicate value = false) :
    (left ++ right).takeWhile predicate = left.takeWhile predicate ∧
      (left ++ right).dropWhile predicate = left.dropWhile predicate ++ right := by
  induction left with
  | nil =>
      cases right with
      | nil => exact ⟨rfl, rfl⟩
      | cons value rest => simp [fail value (List.mem_cons_self ..)]
  | cons value rest ih =>
      cases passes : predicate value with
      | false => simp [passes]
      | true => simp [passes, ih]

theorem rtakeWhile_append_of_neg (fail : ∀ value ∈ left, predicate value = false) :
    (left ++ right).rtakeWhile predicate = right.rtakeWhile predicate ∧
      (left ++ right).rdropWhile predicate = left ++ right.rdropWhile predicate := by
  have failReverse : ∀ value ∈ left.reverse, predicate value = false := by simpa using fail
  obtain ⟨takeEq, dropEq⟩ := @takeWhile_append_of_neg _ _ right.reverse _ failReverse
  constructor
  · rw [List.rtakeWhile, List.reverse_append, takeEq, List.rtakeWhile]
  · rw [List.rdropWhile, List.reverse_append, dropEq, List.reverse_append, List.reverse_reverse,
      List.rdropWhile]

end

theorem traced_takeWhile (origin : Origin) (predicate : Instr → Bool) (instrs : List Instr) :
    (traced origin instrs).takeWhile (predicate ·.instr) =
        traced origin (instrs.takeWhile predicate) ∧
      (traced origin instrs).dropWhile (predicate ·.instr) =
        traced origin (instrs.dropWhile predicate) := by
  constructor
  · rw [traced, traced, List.takeWhile_map]
    rfl
  · rw [traced, traced, List.dropWhile_map]
    rfl

theorem traced_rtakeWhile (origin : Origin) (predicate : Instr → Bool) (instrs : List Instr) :
    (traced origin instrs).rtakeWhile (predicate ·.instr) =
        traced origin (instrs.rtakeWhile predicate) ∧
      (traced origin instrs).rdropWhile (predicate ·.instr) =
        traced origin (instrs.rdropWhile predicate) := by
  have reversed (list : List Instr) : (traced origin list).reverse = traced origin list.reverse :=
    List.map_reverse.symm
  obtain ⟨takeEq, dropEq⟩ := traced_takeWhile origin predicate instrs.reverse
  constructor
  · rw [List.rtakeWhile, List.rtakeWhile, reversed, takeEq, reversed]
  · rw [List.rdropWhile, List.rdropWhile, reversed, dropEq, reversed]

/-! ## Where the exit code of a returning block stands -/

theorem traceRestores_eq {registers : List Register} {front : List Traced} {body : List Instr}
    {last : Instr} (noTerminator : ∀ item ∈ front, item.instr.isTerminator = false)
    (ends : last.isTerminator = true) :
    traceRestores registers (front ++ traced .body (body ++ [last])) =
      front ++ traced .body (body.rdropWhile Instr.isTerminator) ++
        (traced .restore (restoreInstrs registers) ++
          traced .body (body.rtakeWhile Instr.isTerminator) ++ traced .body [last]) := by
  obtain ⟨takeEq, dropEq⟩ :=
    @rtakeWhile_append_of_neg _ _ _ (traced .body (body ++ [last])) noTerminator
  obtain ⟨ownTakeEq, ownDropEq⟩ := traced_rtakeWhile .body Instr.isTerminator (body ++ [last])
  rw [traceRestores, takeEq, dropEq, ownTakeEq, ownDropEq, List.rtakeWhile_concat_pos _ _ _ ends,
    List.rdropWhile_concat_pos _ _ _ ends, traced_append]
  simp only [List.append_assoc]

theorem tracePrologue_eq {keeps : Bool} {localArea : UInt64} {front back : List Traced}
    {own : List Instr} (pushes : ∀ item ∈ front, item.instr.isPush = true)
    (noPush : ∀ item ∈ back, item.instr.isPush = false) :
    tracePrologue keeps localArea (front ++ traced .body own ++ back) =
      traced .prologue (if keeps then framePointerSetup else []) ++ front ++
        traced .body (own.takeWhile Instr.isPush) ++ traced .prologue (allocation localArea) ++
        traced .body (own.dropWhile Instr.isPush) ++ back := by
  obtain ⟨takeEq, dropEq⟩ := @takeWhile_append_of_neg _ _ (traced .body own) _ noPush
  obtain ⟨ownTakeEq, ownDropEq⟩ := traced_takeWhile .body Instr.isPush own
  rw [tracePrologue, List.append_assoc front, List.takeWhile_append_of_pos pushes,
    List.dropWhile_append_of_pos pushes, takeEq, dropEq, ownTakeEq, ownDropEq]
  simp only [List.append_assoc]

theorem traceEpilogue_eq {keeps : Bool} {releasing own : List Instr} {front middle : List Traced}
    {last : Traced} (stops : ∀ item ∈ front, item.instr.isPopOrTerminator = false)
    (passes : ∀ item ∈ middle, item.instr.isPopOrTerminator = true) :
    traceEpilogue keeps releasing (front ++ traced .body own ++ (middle ++ [last])) =
      front ++ traced .body (own.rdropWhile Instr.isPopOrTerminator) ++
        traced .epilogue releasing ++ traced .body (own.rtakeWhile Instr.isPopOrTerminator) ++
        middle ++ traced .epilogue (if keeps then [.pop .fp] else []) ++ [last] := by
  have tailPasses : ∀ item ∈ middle ++ traced .epilogue (if keeps then [.pop .fp] else []),
      item.instr.isPopOrTerminator = true := by
    intro item member
    rcases List.mem_append.mp member with inMiddle | popped
    · exact passes item inMiddle
    · have isPop := (mem_traced.mp popped).1
      cases keeps with
      | false => contradiction
      | true =>
          rw [List.mem_singleton.mp isPop]
          rfl
  obtain ⟨takeTail, dropTail⟩ :=
    @rtakeWhile_append_of_pos _ _ (front ++ traced .body own) _ tailPasses
  obtain ⟨takeFront, dropFront⟩ := @rtakeWhile_append_of_neg _ _ _ (traced .body own) stops
  obtain ⟨takeOwn, dropOwn⟩ := traced_rtakeWhile .body Instr.isPopOrTerminator own
  rw [traceEpilogue, ← List.append_assoc, List.dropLast_concat, List.getLast?_concat,
    List.append_assoc _ middle, takeTail, dropTail, takeFront, dropFront, takeOwn, dropOwn]
  simp only [List.append_assoc, Option.toList_some]

/-- The entry code of a function, and the pushes of its own that stand before its local area is
allocated. -/
def traceEntry (keeps : Bool) (registers : List Register) (localArea : UInt64)
    (pushes : List Instr) : List Traced :=
  traced .prologue (if keeps then framePointerSetup else []) ++
    traced .save (saveInstrs registers) ++ traced .body pushes ++
    traced .prologue (allocation localArea)

theorem isPopOrTerminator_of_isPush {instr : Instr} (push : instr.isPush = true) :
    instr.isPopOrTerminator = false := by
  rw [Instr.isPopOrTerminator, Instr.isTerminator, eq_of_beq push]
  rfl

theorem isPush_of_mem_saveInstrs {registers : List Register} {instr : Instr}
    (member : instr ∈ saveInstrs registers) : instr.isPush = true := by
  obtain ⟨register, -, rfl⟩ := List.mem_map.mp member
  rfl

/-- The search for the end of a body stops at entry code. -/
theorem isPopOrTerminator_of_mem_traceEntry {keeps : Bool} {registers : List Register}
    {localArea : UInt64} {pushes : List Instr}
    (pushesOnly : ∀ instr ∈ pushes, instr.isPush = true) :
    ∀ item ∈ traceEntry keeps registers localArea pushes,
      item.instr.isPopOrTerminator = false := by
  have inserted : ∀ instr ∈ entryCode keeps registers localArea,
      instr.isPopOrTerminator = false :=
    forall_mem_entryCode (fun _ => rfl) (fun _ _ => rfl) (fun _ => rfl) _ _ _
  rw [entryCode, List.forall_mem_append, List.forall_mem_append] at inserted
  intro item member
  simp only [traceEntry, List.mem_append, mem_traced] at member
  rcases member with ((⟨setup, -⟩ | ⟨saves, -⟩) | ⟨own, -⟩) | ⟨allocates, -⟩
  · exact inserted.1.1 _ setup
  · exact inserted.1.2 _ saves
  · exact isPopOrTerminator_of_isPush (pushesOnly _ own)
  · exact inserted.2 _ allocates

/-- What becomes of a block that does not return: in the entry block, the local area is allocated
behind the pushes that start it. -/
theorem traceFramed_of_not_returning (keeps : Bool) (registers : List Register)
    (localArea : UInt64) (releasing : List Instr) (isEntry : Bool) (instrs : List Instr) :
    traceFramed keeps registers localArea releasing isEntry false instrs =
      (if isEntry then traceEntry keeps registers localArea (instrs.takeWhile Instr.isPush)
        else []) ++
        traced .body (if isEntry then instrs.dropWhile Instr.isPush else instrs) := by
  cases isEntry with
  | false => rfl
  | true =>
      have entered := @tracePrologue_eq keeps localArea (traced .save (saveInstrs registers)) []
        instrs (fun item member => isPush_of_mem_saveInstrs (mem_traced.mp member).1) (by simp)
      rw [List.append_nil, List.append_nil] at entered
      exact entered

/-- What becomes of a returning block: restores stand in front of all terminators that end it, the
local area is released in front of all pops and terminators that end it, and the frame pointer is
restored right before the return. -/
theorem traceFramed_of_returning (keeps : Bool) (registers : List Register) (localArea : UInt64)
    (releasing : List Instr) (isEntry : Bool) (body : List Instr) {last : Instr}
    (returns : last.isReturn = true) :
    traceFramed keeps registers localArea releasing isEntry true (body ++ [last]) =
      let own := body.rdropWhile Instr.isTerminator
      let rest := if isEntry then own.dropWhile Instr.isPush else own
      (if isEntry then traceEntry keeps registers localArea (own.takeWhile Instr.isPush) else []) ++
        traced .body (rest.rdropWhile Instr.isPopOrTerminator) ++ traced .epilogue releasing ++
        traced .body (rest.rtakeWhile Instr.isPopOrTerminator) ++
        (traced .restore (restoreInstrs registers) ++
          traced .body (body.rtakeWhile Instr.isTerminator)) ++
        traced .epilogue (if keeps then [.pop .fp] else []) ++ traced .body [last] := by
  have ends := isTerminator_of_isReturn returns
  have passes : ∀ item ∈ traced .restore (restoreInstrs registers) ++
      traced .body (body.rtakeWhile Instr.isTerminator), item.instr.isPopOrTerminator = true := by
    intro item member
    rcases List.mem_append.mp member with restores | terminators
    · obtain ⟨register, -, instrEq⟩ := List.mem_map.mp (mem_traced.mp restores).1
      rw [← instrEq]
      rfl
    · have terminates := List.mem_rtakeWhile_imp (mem_traced.mp terminators).1
      exact Bool.or_eq_true_iff.mpr (.inr terminates)
  cases isEntry with
  | false =>
      have restored := @traceRestores_eq registers [] body last (by simp) ends
      have left := @traceEpilogue_eq keeps releasing (body.rdropWhile Instr.isTerminator) []
        _ ⟨last, .body⟩ (by simp) passes
      rw [List.nil_append] at restored
      simp only [traceFramed, Bool.false_eq_true, if_false, if_true, restored]
      exact left
  | true =>
      have noTerminator : ∀ item ∈ traced .save (saveInstrs registers),
          item.instr.isTerminator = false := by
        intro item member
        have push := isPush_of_mem_saveInstrs (mem_traced.mp member).1
        exact (Bool.or_eq_false_iff.mp (isPopOrTerminator_of_isPush push)).2
      have noPush : ∀ item ∈ traced .restore (restoreInstrs registers) ++
          traced .body (body.rtakeWhile Instr.isTerminator) ++ traced .body [last],
          item.instr.isPush = false := by
        intro item member
        rcases List.mem_append.mp member with tail | returning
        · by_contra push
          have stops := isPopOrTerminator_of_isPush (Bool.not_eq_false _ ▸ push)
          rw [passes item tail] at stops
          contradiction
        · rw [List.mem_singleton.mp (mem_traced.mp returning).1]
          exact isPush_of_isReturn returns
      have restored := @traceRestores_eq registers _ body last noTerminator ends
      have entered := @tracePrologue_eq keeps localArea (traced .save (saveInstrs registers)) _
        (body.rdropWhile Instr.isTerminator)
        (fun item member => isPush_of_mem_saveInstrs (mem_traced.mp member).1) noPush
      have left := @traceEpilogue_eq keeps releasing
        ((body.rdropWhile Instr.isTerminator).dropWhile Instr.isPush)
        (traceEntry keeps registers localArea
          ((body.rdropWhile Instr.isTerminator).takeWhile Instr.isPush))
        _ ⟨last, .body⟩
        (isPopOrTerminator_of_mem_traceEntry fun _ taken => List.mem_takeWhile_imp taken) passes
      simp only [traceFramed, if_true, restored, entered]
      exact left

/-- What ends a block splits where its restores go. -/
theorem rtakeWhile_isPopOrTerminator_eq (body : List Instr) :
    body.rtakeWhile Instr.isPopOrTerminator =
      (body.rdropWhile Instr.isTerminator).rtakeWhile Instr.isPopOrTerminator ++
        body.rtakeWhile Instr.isTerminator := by
  conv_lhs => rw [← @List.rdropWhile_append_rtakeWhile _ Instr.isTerminator body]
  refine (rtakeWhile_append_of_pos ?_).1
  intro instr member
  exact Bool.or_eq_true_iff.mpr (.inr (List.mem_rtakeWhile_imp member))

/-- The prologue takes pushes only, and the search for the end of a body stops at them. -/
theorem rtakeWhile_dropWhile_isPush (isEntry : Bool) (own : List Instr) :
    (if isEntry then own.dropWhile Instr.isPush else own).rtakeWhile Instr.isPopOrTerminator =
      own.rtakeWhile Instr.isPopOrTerminator := by
  cases isEntry with
  | false => rfl
  | true =>
      conv_rhs => rw [← @List.takeWhile_append_dropWhile _ Instr.isPush own]
      refine (rtakeWhile_append_of_neg ?_).1.symm
      intro instr member
      exact isPopOrTerminator_of_isPush (List.mem_takeWhile_imp member)

/-- What lowering inserts into a block is entry or exit code. -/
theorem mem_frameCode_of_inserted {keeps isEntry : Bool} {registers : List Register}
    {localArea : UInt64} {releasing : List Instr} {original : Block} {item : Traced}
    (member : item ∈ traceFramed keeps registers localArea releasing isEntry original.isReturning
      original.instrs)
    (inserted : item.origin ≠ .body) :
    item.instr ∈ entryCode keeps registers localArea ++ exitCode keeps registers releasing := by
  have ofOwn {instrs : List Instr} (own : item ∈ traced .body instrs) :
      item.instr ∈ entryCode keeps registers localArea ++ exitCode keeps registers releasing :=
    (inserted (mem_traced.mp own).2).elim
  have ofEntry {pushes : List Instr}
      (entering : item ∈ if isEntry then traceEntry keeps registers localArea pushes else []) :
      item.instr ∈ entryCode keeps registers localArea ++ exitCode keeps registers releasing := by
    cases isEntry with
    | false => contradiction
    | true =>
        rw [if_pos rfl, traceEntry, List.mem_append, List.mem_append, List.mem_append] at entering
        rcases entering with ((setup | saves) | own) | allocates
        · exact List.mem_append_left _
            (List.mem_append_left _ (List.mem_append_left _ (mem_traced.mp setup).1))
        · exact List.mem_append_left _
            (List.mem_append_left _ (List.mem_append_right _ (mem_traced.mp saves).1))
        · exact ofOwn own
        · exact List.mem_append_left _ (List.mem_append_right _ (mem_traced.mp allocates).1)
  cases returning : original.isReturning with
  | false =>
      rw [returning, traceFramed_of_not_returning, List.mem_append] at member
      exact member.elim ofEntry ofOwn
  | true =>
      obtain ⟨last, isLast, returns⟩ := Block.isReturning_iff.mp returning
      obtain ⟨body, instrsEq⟩ := List.getLast?_eq_some_iff.mp isLast
      rw [returning, instrsEq, traceFramed_of_returning _ _ _ _ _ _ returns] at member
      simp only [List.mem_append] at member
      rcases member with
        (((((entering | own) | released) | own) | restored | own) | popped) | own
      · exact ofEntry entering
      · exact ofOwn own
      · exact List.mem_append_right _ (List.mem_append_left _ (mem_traced.mp released).1)
      · exact ofOwn own
      · exact List.mem_append_right _
          (List.mem_append_right _ (List.mem_append_left _ (mem_traced.mp restored).1))
      · exact ofOwn own
      · exact List.mem_append_right _
          (List.mem_append_right _ (List.mem_append_right _ (mem_traced.mp popped).1))
      · exact ofOwn own

/-- The sweep leaves what lowering has inserted into a block as it is. -/
theorem isPlain_of_inserted {options : Options} {function : Function} {id : BlockId}
    {original : Block} :
    ∀ item ∈ tracedFrame options function id original,
      item.origin ≠ .body → item.instr.isPlain = true := by
  intro item member inserted
  have entryPlain : ∀ instr ∈ entryCode (function.frame.hasFramePointer options)
      function.calleeSaved (function.loweredArea (function.frame.hasFramePointer options)),
      instr.isPlain = true :=
    forall_mem_entryCode (fun _ => rfl) (fun _ _ => rfl) (fun _ => rfl) _ _ _
  have exitPlain : ∀ instr ∈ exitCode (function.frame.hasFramePointer options)
      function.calleeSaved (function.releasing (function.frame.hasFramePointer options)),
      instr.isPlain = true :=
    forall_mem_exitCode (fun _ => rfl) (fun _ _ => rfl) (fun _ => rfl) (fun _ => rfl) _ _ _ _ _
  exact List.forall_mem_append.mpr ⟨entryPlain, exitPlain⟩ _
    (mem_frameCode_of_inserted member inserted)

/-! ## Branches and exit code -/

/-- Whether a step of lowering takes part of the frame down. -/
def Origin.isExit : Origin → Bool
  | .restore | .epilogue => true
  | .body | .save | .prologue => false

/-- Whether the instruction branches to a block. -/
def Instr.leadsToBlock (instr : Instr) : Bool :=
  instr.isBranch && (instr.operands.head?.bind Operand.block?).isSome

theorem any_leadsToBlock_eq_false {instrs : List Instr} :
    instrs.any Instr.leadsToBlock = false ↔ ∀ instr ∈ instrs, instr.leadsToBlock = false := by
  simp [List.any_eq_false]

namespace Traced

def isExit (item : Traced) : Bool :=
  item.origin.isExit

def leadsToBlock (item : Traced) : Bool :=
  item.instr.leadsToBlock

end Traced

theorem any_isExit_traced (origin : Origin) (instrs : List Instr) :
    (traced origin instrs).any Traced.isExit = (origin.isExit && !instrs.isEmpty) := by
  cases exits : origin.isExit with
  | false => exact any_traced_eq_false fun _ _ => exits
  | true => exact any_traced_of_forall fun _ _ => exits

/-! ## The sweep keeps the order -/

theorem Resolves.leadsToBlock_eq {original resolved : Instr} {following : List Instr}
    (resolves : Resolves original resolved following) :
    resolved.leadsToBlock = original.leadsToBlock := by
  rw [Instr.leadsToBlock, Instr.leadsToBlock, resolves.isBranch_eq]
  rcases resolves.head with same | ⟨index, register, slot, base⟩
  · rw [same]
  · rw [slot, base]
    rfl

theorem leadsToBlock_adjust {opcode : Opcode} (isOffset : opcode = .add16ri ∨ opcode = .sub16ri)
    (reg : Reg) (amount : Int64) : (Instr.adjust opcode reg amount).leadsToBlock = false := by
  rcases isOffset with rfl | rfl
  · rfl
  · rfl

/-- The sweep makes a branch of a branch, and of nothing else. -/
theorem any_leadsToBlock_of_lowerInstr {options : Options} {frame : Frame} {keeps : Bool}
    {adjustment last : Int64} {instr : Instr} {items : List Instr}
    (ran : lowerInstr options frame keeps adjustment instr = .done items last) :
    items.any Instr.leadsToBlock = instr.leadsToBlock := by
  rcases lowerInstr_eq_done ran with
    ⟨isPseudo, expanded⟩ | ⟨-, resolved, following, rfl, resolves⟩
  · have pseudoStays : instr.leadsToBlock = false := by
      rw [Instr.isCallPseudo, Bool.or_eq_true, beq_iff_eq, beq_iff_eq] at isPseudo
      rw [Instr.leadsToBlock, Instr.isBranch]
      rcases isPseudo with down | up
      · rw [down]
        rfl
      · rw [up]
        rfl
    rw [pseudoStays, any_leadsToBlock_eq_false]
    intro item member
    obtain ⟨opcode, amount, isOffset, rfl⟩ := exists_adjust_of_mem_expansion expanded member
    exact leadsToBlock_adjust isOffset _ amount
  · have offsetsStay : following.any Instr.leadsToBlock = false := by
      rw [any_leadsToBlock_eq_false]
      intro item member
      obtain ⟨opcode, reg, amount, isOffset, rfl, -⟩ := resolves.following item member
      exact leadsToBlock_adjust isOffset reg amount
    rw [List.any_cons, offsetsStay, Bool.or_false, resolves.leadsToBlock_eq]

section

variable {options : Options} {frame : Frame} {keeps : Bool}

theorem any_leadsToBlock_of_lowerTraced {adjustment next : Int64} {item : Traced}
    {finished : List Traced}
    (stepped : lowerTraced options frame keeps adjustment item = .done finished next) :
    finished.any Traced.leadsToBlock = item.leadsToBlock := by
  obtain ⟨items, lowered, rfl⟩ := lowerTraced_eq_done stepped
  rw [any_traced]
  exact any_leadsToBlock_of_lowerInstr lowered

/-- The sweep does not change the order of branches and exit code, because it leaves exit code as it
is. -/
theorem neverBefore_exit_run_iff {adjustment last : Int64} {code items : List Traced}
    (plain : ∀ item ∈ code, item.origin ≠ .body → item.instr.isPlain = true)
    (ran : Sweep.run (lowerTraced options frame keeps) adjustment code = .done items last) :
    NeverBefore Traced.isExit Traced.leadsToBlock items ↔
      NeverBefore Traced.isExit Traced.leadsToBlock code := by
  have exitsEq {item : Traced} (member : item ∈ code) {current next : Int64}
      {finished : List Traced}
      (stepped : lowerTraced options frame keeps current item = .done finished next) :
      finished.any Traced.isExit = item.isExit :=
    any_of_lowerTraced_inserted (fun _ => rfl) (plain item member) stepped
  constructor
  · intro ordered
    refine ordered.of_sweep (fun item member current next finished stepped => ⟨?_, ?_⟩) ran
    · intro exits
      rwa [exitsEq member stepped]
    · intro leads
      rwa [any_leadsToBlock_of_lowerTraced stepped]
  · intro ordered
    refine ordered.sweep (fun item member current next finished stepped => ?_) ran
    refine ⟨fun exits => exitsEq member stepped ▸ exits,
      fun leads => any_leadsToBlock_of_lowerTraced stepped ▸ leads, ?_⟩
    by_cases own : item.origin = .body
    · apply neverBefore_of_none_first
      rw [exitsEq member stepped, Traced.isExit, own]
      rfl
    · rw [lowerTraced_of_isPlain (plain item member own) stepped]
      exact neverBefore_singleton item

end

/-! ## Blocks -/

section

variable {keeps isEntry : Bool} {registers : List Register} {localArea : UInt64}
  {releasing body instrs : List Instr} {last : Instr}

theorem any_isExit_traceEntry (pushes : List Instr) :
    (if isEntry then traceEntry keeps registers localArea pushes else []).any Traced.isExit =
      false := by
  cases isEntry with
  | false => rfl
  | true =>
      simp only [if_true, traceEntry, List.any_append, any_isExit_traced, Origin.isExit,
        Bool.false_and, Bool.or_false]

theorem any_isExit_traceFramed_of_not_returning :
    (traceFramed keeps registers localArea releasing isEntry false instrs).any Traced.isExit =
      false := by
  rw [traceFramed_of_not_returning, List.any_append, any_isExit_traceEntry, any_isExit_traced]
  rfl

theorem leadsToBlock_of_isReturn (returns : last.isReturn = true) : last.leadsToBlock = false := by
  have noBranch : last.isBranch = false := by
    rw [Instr.isReturn] at returns
    rw [Instr.isBranch]
    cases opcode : last.opcode <;> simp_all [Opcode.isReturn, Opcode.isBranch]
  rw [Instr.leadsToBlock, noBranch, Bool.false_and]

/-- No branch stands among the instructions of a kind that end a block if none stands among those
before its return. -/
theorem forall_mem_rtakeWhile_concat {kind : Instr → Bool} (returns : last.isReturn = true)
    (isKind : kind last = true) :
    (∀ instr ∈ (body ++ [last]).rtakeWhile kind, instr.leadsToBlock = false) ↔
      (body.rtakeWhile kind).any Instr.leadsToBlock = false := by
  rw [List.rtakeWhile_concat_pos _ _ _ isKind, List.forall_mem_append, List.forall_mem_singleton,
    leadsToBlock_of_isReturn returns, any_leadsToBlock_eq_false, eq_self, and_true]

/-- In a returning block, branches come before the exit code unless one of them stands among the
terminators, or the pops and terminators, that end the block. -/
theorem neverBefore_exit_traceFramed_iff (returns : last.isReturn = true)
    (noBranch : ∀ instr ∈ exitCode keeps registers releasing, instr.leadsToBlock = false) :
    NeverBefore Traced.isExit Traced.leadsToBlock
        (traceFramed keeps registers localArea releasing isEntry true (body ++ [last])) ↔
      (registers ≠ [] → ∀ instr ∈ (body ++ [last]).rtakeWhile Instr.isTerminator,
        instr.leadsToBlock = false) ∧
      (releasing ≠ [] → ∀ instr ∈ (body ++ [last]).rtakeWhile Instr.isPopOrTerminator,
        instr.leadsToBlock = false) := by
  have ends := isTerminator_of_isReturn returns
  rw [forall_mem_rtakeWhile_concat returns ends,
    forall_mem_rtakeWhile_concat returns (Bool.or_eq_true_iff.mpr (.inr ends))]
  have free {origin : Origin} {instrs : List Instr}
      (stays : ∀ instr ∈ instrs, instr.leadsToBlock = false) :
      (traced origin instrs).any Traced.leadsToBlock = false :=
    any_traced_eq_false stays
  have branchesEq (instrs : List Instr) :
      (traced .body instrs).any Traced.leadsToBlock = instrs.any Instr.leadsToBlock :=
    any_traced _ _ _
  rw [exitCode, List.forall_mem_append, List.forall_mem_append] at noBranch
  obtain ⟨releaseStays, restoreStays, popStays⟩ := noBranch
  rw [traceFramed_of_returning _ _ _ _ _ _ returns, List.append_assoc _ (traced .epilogue _),
    neverBefore_interleaved_iff ?_ ?_ ?_ (free releaseStays) (free restoreStays) ?_,
    rtakeWhile_dropWhile_isPush, any_isExit_traced, any_isExit_traced, ← traced_append, branchesEq,
    branchesEq, ← rtakeWhile_isPopOrTerminator_eq]
  · simp [Origin.isExit, restoreInstrs]
  · rw [List.any_append, any_isExit_traceEntry, any_isExit_traced]
    rfl
  · exact any_isExit_traced .body _
  · exact any_isExit_traced .body _
  · rw [List.any_append, free popStays, branchesEq, List.any_cons, List.any_nil,
      leadsToBlock_of_isReturn returns]
    rfl

end

/-- Where the branches of a lowered block stand. They come before all exit code, unless the block
returns and a branch stands among the terminators that end it, while registers are restored, or
among the pops and terminators that end it, while the local area is released. -/
theorem lowerFrame_branchesAhead_iff {options : Options} {function lowered : Function}
    {id : BlockId} {original block : Block}
    (ran : (lowerFrame options).run function = .ok () lowered)
    (found : function.block? id = some original) (loweredFound : lowered.block? id = some block) :
    untraced (tracedBlock options function lowered id original) = block.instrs ∧
      (NeverBefore Traced.isExit Traced.leadsToBlock
          (tracedBlock options function lowered id original) ↔
        (original.isReturning = true →
          (function.calleeSaved ≠ [] →
            ∀ instr ∈ original.instrs.rtakeWhile Instr.isTerminator,
              instr.leadsToBlock = false) ∧
          (function.releasing (function.frame.hasFramePointer options) ≠ [] →
            ∀ instr ∈ original.instrs.rtakeWhile Instr.isPopOrTerminator,
              instr.leadsToBlock = false))) := by
  obtain ⟨last, swept, same⟩ := exists_tracedBlock ran found loweredFound
  refine ⟨same, ?_⟩
  rw [neverBefore_exit_run_iff isPlain_of_inserted swept, tracedFrame]
  cases returning : original.isReturning with
  | false =>
      have ahead := fun keeps registers localArea releasing isEntry =>
        @neverBefore_of_none_first _ _ Traced.leadsToBlock _
          (@any_isExit_traceFramed_of_not_returning keeps isEntry registers localArea releasing
            original.instrs)
      simp [ahead]
  | true =>
      obtain ⟨last, isLast, returns⟩ := Block.isReturning_iff.mp returning
      obtain ⟨body, instrsEq⟩ := List.getLast?_eq_some_iff.mp isLast
      rw [instrsEq, neverBefore_exit_traceFramed_iff returns]
      · simp
      · exact forall_mem_exitCode (fun _ => rfl) (fun _ _ => rfl) (fun _ => rfl) (fun _ => rfl)
          _ _ _ _ _

/-- A function whose first block branches right before its return, and whose second block does so
with an instruction of its own in between. -/
def leaving : Function where
  name := "leaving"
  frame := { stackSize := 4 }
  calleeSaved := [.r7]
  blocks := [
    { name := "start"
      instrs := [
        { opcode := .jcc, operands := [.block 2, .immediate 5] },
        { opcode := .ret }] },
    { name := "middle"
      instrs := [
        { opcode := .jcc, operands := [.block 2, .immediate 5] },
        { opcode := .mov16ri, operands := [.define .cg, .immediate 7] },
        { opcode := .ret }] },
    { name := "done", instrs := [{ opcode := .ret }] }]

/-- The same function with its frame. The branch of the first block stands behind all of the exit
code, which the block that it leads to repeats. -/
def leavingLowered : Function where
  name := "leaving"
  frame := { stackSize := 4, framePointer? := some false }
  calleeSaved := [.r7]
  calleeSavedSize := 2
  blocks := [
    { name := "start"
      instrs := [
        .push .r7, .lowerStack 2,
        .raiseStack 2, .pop .r7,
        { opcode := .jcc, operands := [.block 2, .immediate 5] },
        { opcode := .ret }]
      liveIns := .ofList [.r7] },
    { name := "middle"
      instrs := [
        { opcode := .jcc, operands := [.block 2, .immediate 5] },
        { opcode := .mov16ri, operands := [.define .cg, .immediate 7] },
        .raiseStack 2, .pop .r7,
        { opcode := .ret }] },
    { name := "done"
      instrs := [
        .raiseStack 2, .pop .r7,
        { opcode := .ret }] }]

theorem run_lowerFrame_leaving : (lowerFrame {}).run leaving = .ok () leavingLowered := by
  decide +kernel

theorem lowerFrame_branchesAhead_iff_leaving :
    (lowerFrame {}).run leaving = .ok () leavingLowered ∧
      ∃ original, leaving.block? 1 = some original ∧ original.isReturning = true ∧
        NeverBefore Traced.isExit Traced.leadsToBlock
          (tracedBlock {} leaving leavingLowered 1 original) := by
  refine ⟨run_lowerFrame_leaving, _, rfl, by decide, ?_⟩
  refine (lowerFrame_branchesAhead_iff run_lowerFrame_leaving rfl rfl).2.mpr
    fun _ => ⟨fun _ => ?_, fun _ => ?_⟩
  · decide
  · decide

/-- A branch right before a return leaves without the frame. -/
theorem lowerFrame_not_branchesAhead_leaving :
    (lowerFrame {}).run leaving = .ok () leavingLowered ∧
      ∃ original, leaving.block? 0 = some original ∧
        ¬NeverBefore Traced.isExit Traced.leadsToBlock
          (tracedBlock {} leaving leavingLowered 0 original) :=
  ⟨run_lowerFrame_leaving, _, rfl, by decide +kernel⟩

end MachineCode
