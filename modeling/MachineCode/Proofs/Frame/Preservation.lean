import MachineCode.Proofs.Frame.LocalArea
import MachineCode.Proofs.Frame.Outline

/-!
# The body of a function is preserved

Lowering inserts, deletes and replaces instructions in several stages, and each of them finds its
place anew. All the same, the function's own instructions come out in their order, each of them
once. An instruction without slots is not touched, the slots of the others are rewritten in place,
and only the pseudos of call sequences are gone. What is new is frame code: pushes and pops of
preserved registers and of the frame pointer, copies between the stack pointer and the frame
pointer, and moves of the stack pointer (`lowerFrame_keepsBody`).
-/

namespace MachineCode

/-- The instructions of which frame code consists, in a function that preserves some registers. -/
inductive IsFrameCode (registers : List Register) : Instr → Prop
  | push {register : Register} (preserved : register = .fp ∨ register ∈ registers) :
      IsFrameCode registers (.push register)
  | pop {register : Register} (preserved : register = .fp ∨ register ∈ registers) :
      IsFrameCode registers (.pop register)
  | setFramePointer : IsFrameCode registers (.copy .fp .sp)
  | resetStackPointer : IsFrameCode registers (.copy .sp .fp)
  | lowerStack (amount : Int64) : IsFrameCode registers (.lowerStack amount)
  | raiseStack (amount : Int64) : IsFrameCode registers (.raiseStack amount)

/-- The slot and the addend at a position have become the frame register and the displacement of
the object. -/
def SlotResolved (frame : Frame) (keeps : Bool) (original resolved : Instr) (position : Nat) :
    Prop :=
  ∃ index addend object,
    original.operands[position]? = some (.frameIndex index) ∧
    original.operands[position + 1]? = some (.immediate addend) ∧
    frame.object index = .ok object ∧
    resolved.operands[position]? = some (.use (frameRegister keeps)) ∧
    resolved.operands[position + 1]? = some (.immediate (frame.displacement keeps object addend))

/-- The slots at some positions have been resolved, and nothing else has changed. -/
structure ResolvedAt (frame : Frame) (keeps : Bool) (positions : List Nat)
    (original resolved : Instr) : Prop where
  opcode : resolved.opcode = original.opcode
  length : resolved.operands.length = original.operands.length
  slots : ∀ position ∈ positions, SlotResolved frame keeps original resolved position
  others : ∀ place, (∀ position ∈ positions, place ≠ position ∧ place ≠ position + 1) →
    resolved.operands[place]? = original.operands[place]?

/-- The code that takes the place of an instruction with slots: the same instruction with resolved
slots, or, where the address of a slot is taken, a copy of the frame register, followed by at most
one addition or subtraction. -/
inductive Rewrites (frame : Frame) (keeps : Bool) (instr : Instr) : List Instr → Prop
  | inPlace {resolved : Instr} (noSum : instr.opcode ≠ .add16ri)
      (resolvedAt : ResolvedAt frame keeps instr.slotPositions instr resolved) :
      Rewrites frame keeps instr [resolved]
  | address {position : Nat} {target : Reg} {flags : RegisterFlags} {following : List Instr}
      (sum : instr.opcode = .add16ri) (slot : instr.slotPositions = [position])
      (targets : instr.operands[0]? = some (.register target flags))
      (offset : following = [] ∨ ∃ opcode amount, (opcode = .add16ri ∨ opcode = .sub16ri) ∧
        following = [.adjust opcode target amount]) :
      Rewrites frame keeps instr
        ({ opcode := .mov16rr
           operands := instr.operands.take position ++ [.use (frameRegister keeps)] } :: following)

/-- Lowered code keeps a body: it consists of the instructions of the body, in their order, without
the pseudos of call sequences and with resolved slots, and of frame code. -/
inductive KeepsBody (registers : List Register) (frame : Frame) (keeps : Bool) :
    List Instr → List Instr → Prop
  | nil : KeepsBody registers frame keeps [] []
  | insert {instr : Instr} {body lowered : List Instr} (frameCode : IsFrameCode registers instr)
      (rest : KeepsBody registers frame keeps body lowered) :
      KeepsBody registers frame keeps body (instr :: lowered)
  | drop {instr : Instr} {body lowered : List Instr} (pseudo : instr.isCallPseudo = true)
      (rest : KeepsBody registers frame keeps body lowered) :
      KeepsBody registers frame keeps (instr :: body) lowered
  | keep {instr : Instr} {body lowered : List Instr} (plain : instr.isPlain = true)
      (rest : KeepsBody registers frame keeps body lowered) :
      KeepsBody registers frame keeps (instr :: body) (instr :: lowered)
  | rewrite {instr : Instr} {code body lowered : List Instr}
      (hasSlot : instr.slotPositions ≠ []) (noPseudo : instr.isCallPseudo = false)
      (rewrites : Rewrites frame keeps instr code)
      (rest : KeepsBody registers frame keeps body lowered) :
      KeepsBody registers frame keeps (instr :: body) (code ++ lowered)

/-! ## Frame code -/

theorem isFrameCode_of_mem_entryCode {keeps : Bool} {registers : List Register}
    {localArea : UInt64} {instr : Instr} (member : instr ∈ entryCode keeps registers localArea) :
    IsFrameCode registers instr := by
  rw [entryCode, List.mem_append, List.mem_append] at member
  rcases member with (setup | saves) | allocates
  · cases keeps with
    | false => contradiction
    | true =>
        rcases List.mem_pair.mp setup with rfl | rfl
        · exact .push (.inl rfl)
        · exact .setFramePointer
  · obtain ⟨register, isSaved, rfl⟩ := List.mem_map.mp saves
    exact .push (.inr (List.mem_reverse.mp isSaved))
  · unfold allocation at allocates
    split at allocates
    · contradiction
    · cases List.mem_singleton.mp allocates
      exact .lowerStack _

theorem isFrameCode_of_mem_exitCode {keeps hasVarSizedObjects : Bool} {registers : List Register}
    {savedBytes localArea : UInt64} {instr : Instr}
    (member : instr ∈ exitCode keeps registers (release hasVarSizedObjects savedBytes localArea)) :
    IsFrameCode registers instr := by
  rw [exitCode, List.mem_append, List.mem_append] at member
  rcases member with releases | restores | framePointer
  · unfold release at releases
    split at releases
    · rcases List.mem_cons.mp releases with rfl | lowers
      · exact .resetStackPointer
      · split at lowers
        · contradiction
        · cases List.mem_singleton.mp lowers
          exact .lowerStack _
    · split at releases
      · contradiction
      · cases List.mem_singleton.mp releases
        exact .raiseStack _
  · obtain ⟨register, isRestored, rfl⟩ := List.mem_map.mp restores
    exact .pop (.inr isRestored)
  · cases keeps with
    | false => contradiction
    | true =>
        cases List.mem_singleton.mp framePointer
        exact .pop (.inl rfl)

/-- Whatever lowering inserts into a block is frame code. -/
theorem isFrameCode_of_inserted {options : Options} {function : Function} {id : BlockId}
    {original : Block} {item : Traced} (member : item ∈ tracedFrame options function id original)
    (inserted : item.origin ≠ .body) : IsFrameCode function.calleeSaved item.instr := by
  rcases List.mem_append.mp (mem_frameCode_of_inserted member inserted) with entering | leaving
  · exact isFrameCode_of_mem_entryCode entering
  · exact isFrameCode_of_mem_exitCode leaving

theorem isFrameCode_of_mem_expansion {options : Options} {isReserved : Bool} {instr item : Instr}
    {items : List Instr} (ran : expandCallPseudo options isReserved instr = .ok items)
    (member : item ∈ items) (registers : List Register) : IsFrameCode registers item := by
  obtain ⟨opcode, amount, rfl | rfl, rfl⟩ := exists_adjust_of_mem_expansion ran member
  · exact .raiseStack amount
  · exact .lowerStack amount

/-! ## The function's own instructions in framed code -/

theorem filter_isOwn_body (instrs : List Instr) :
    (traced .body instrs).filter Traced.isOwn = traced .body instrs := by
  apply List.filter_eq_self.mpr
  intro item member
  rw [Traced.isOwn, (mem_traced.mp member).2]
  rfl

theorem filter_isOwn_inserted {origin : Origin} (inserted : origin ≠ .body)
    (instrs : List Instr) : (traced origin instrs).filter Traced.isOwn = [] := by
  apply List.filter_eq_nil_iff.mpr
  intro item member
  rw [Traced.isOwn, (mem_traced.mp member).2, beq_iff_eq]
  exact inserted

theorem filter_isOwn_traceEntry (keeps : Bool) (registers : List Register) (localArea : UInt64)
    (pushes : List Instr) :
    (traceEntry keeps registers localArea pushes).filter Traced.isOwn = traced .body pushes := by
  simp only [traceEntry, List.filter_append, filter_isOwn_body]
  simp [filter_isOwn_inserted]

/-- Framed code: entry code stands among the pushes that start a block, exit code among the pops and
terminators that end it, and nothing is inserted into the core between them. -/
inductive FramesCore : List Instr → List Traced → Prop
  | intro {pushes core tail : List Instr} {entry exit : List Traced}
      (entryOwn : entry.filter Traced.isOwn = traced .body pushes)
      (exitOwn : exit.filter Traced.isOwn = traced .body tail)
      (pushesOnly : ∀ instr ∈ pushes, instr.isPush = true)
      (tailOnly : ∀ instr ∈ tail, instr.isPopOrTerminator = true) :
      FramesCore (pushes ++ core ++ tail) (entry ++ traced .body core ++ exit)

/-- The stages change neither the function's own instructions nor their order. -/
theorem FramesCore.filter_isOwn {instrs : List Instr} {code : List Traced}
    (frames : FramesCore instrs code) : code.filter Traced.isOwn = traced .body instrs := by
  cases frames with
  | intro entryOwn exitOwn =>
      rw [List.filter_append, List.filter_append, entryOwn, exitOwn, filter_isOwn_body,
        ← traced_append, ← traced_append]

/-- In the entry block, entry code stands behind the pushes that start it. -/
theorem exists_entry (keeps : Bool) (registers : List Register) (localArea : UInt64)
    (isEntry : Bool) (own : List Instr) :
    ∃ pushes,
      (if isEntry then traceEntry keeps registers localArea (own.takeWhile Instr.isPush)
        else []).filter Traced.isOwn = traced .body pushes ∧
      pushes ++ (if isEntry then own.dropWhile Instr.isPush else own) = own ∧
      ∀ instr ∈ pushes, instr.isPush = true := by
  cases isEntry with
  | false => exact ⟨[], rfl, rfl, by simp⟩
  | true =>
      exact ⟨own.takeWhile Instr.isPush, filter_isOwn_traceEntry ..,
        List.takeWhile_append_dropWhile, fun _ => List.mem_takeWhile_imp⟩

/-- What stands behind the core of a returning block. -/
theorem isPopOrTerminator_of_mem_tail (rest body : List Instr) {last : Instr}
    (returns : last.isReturn = true) :
    ∀ instr ∈ rest.rtakeWhile Instr.isPopOrTerminator ++ body.rtakeWhile Instr.isTerminator ++
      [last], instr.isPopOrTerminator = true := by
  have ends {instr : Instr} (terminates : instr.isTerminator = true) :
      instr.isPopOrTerminator = true :=
    Bool.or_eq_true_iff.mpr (.inr terminates)
  simp only [List.forall_mem_append, List.forall_mem_singleton]
  refine ⟨⟨fun _ => List.mem_rtakeWhile_imp, ?_⟩, ends (isTerminator_of_isReturn returns)⟩
  exact fun _ member => ends (List.mem_rtakeWhile_imp member)

theorem framesCore_traceFramed (keeps : Bool) (registers : List Register) (localArea : UInt64)
    (releasing : List Instr) (isEntry : Bool) (original : Block) :
    FramesCore original.instrs (traceFramed keeps registers localArea releasing isEntry
      original.isReturning original.instrs) := by
  cases returning : original.isReturning with
  | false =>
      obtain ⟨pushes, entryOwn, ownEq, pushesOnly⟩ :=
        exists_entry keeps registers localArea isEntry original.instrs
      have framed := @FramesCore.intro pushes
        (if isEntry then original.instrs.dropWhile Instr.isPush else original.instrs) [] _ []
        entryOwn rfl pushesOnly (by simp)
      rwa [List.append_nil, List.append_nil, ownEq, ← traceFramed_of_not_returning _ _ _ releasing]
        at framed
  | true =>
      obtain ⟨last, isLast, returns⟩ := Block.isReturning_iff.mp returning
      obtain ⟨body, instrsEq⟩ := List.getLast?_eq_some_iff.mp isLast
      obtain ⟨pushes, entryOwn, ownEq, pushesOnly⟩ :=
        exists_entry keeps registers localArea isEntry (body.rdropWhile Instr.isTerminator)
      rw [instrsEq, traceFramed_of_returning _ _ _ _ _ _ returns]
      dsimp only
      generalize (if isEntry then (body.rdropWhile Instr.isTerminator).dropWhile Instr.isPush
        else body.rdropWhile Instr.isTerminator) = rest at ownEq ⊢
      have bodyEq : body ++ [last] = pushes ++ rest.rdropWhile Instr.isPopOrTerminator ++
          (rest.rtakeWhile Instr.isPopOrTerminator ++ body.rtakeWhile Instr.isTerminator ++
            [last]) :=
        calc body ++ [last]
          _ = pushes ++ (rest.rdropWhile Instr.isPopOrTerminator ++
                rest.rtakeWhile Instr.isPopOrTerminator) ++
                body.rtakeWhile Instr.isTerminator ++ [last] := by
              rw [List.rdropWhile_append_rtakeWhile, ownEq, List.rdropWhile_append_rtakeWhile]
          _ = _ := by simp only [List.append_assoc]
      have exitOwn : (traced .epilogue releasing ++
          traced .body (rest.rtakeWhile Instr.isPopOrTerminator) ++
          (traced .restore (restoreInstrs registers) ++
            traced .body (body.rtakeWhile Instr.isTerminator)) ++
          traced .epilogue (if keeps then [.pop .fp] else []) ++
          traced .body [last]).filter Traced.isOwn =
            traced .body (rest.rtakeWhile Instr.isPopOrTerminator ++
              body.rtakeWhile Instr.isTerminator ++ [last]) := by
        simp only [List.filter_append, filter_isOwn_body, ne_eq, reduceCtorEq, not_false_eq_true,
          filter_isOwn_inserted, List.append_nil, List.nil_append, traced_append]
      have framed := @FramesCore.intro pushes (rest.rdropWhile Instr.isPopOrTerminator) _ _ _
        entryOwn exitOwn pushesOnly (isPopOrTerminator_of_mem_tail rest body returns)
      rw [bodyEq]
      simp only [List.append_assoc] at framed ⊢
      exact framed

theorem framesCore_tracedFrame (options : Options) (function : Function) (id : BlockId)
    (original : Block) :
    FramesCore original.instrs (tracedFrame options function id original) :=
  framesCore_traceFramed ..

/-! ## Resolved slots -/

theorem ResolvedAt.refl (frame : Frame) (keeps : Bool) (instr : Instr) :
    ResolvedAt frame keeps [] instr instr where
  opcode := rfl
  length := rfl
  slots := by simp
  others _ _ := rfl

/-- A slot is resolved in front of slots that are resolved afterwards. -/
theorem ResolvedAt.cons {frame : Frame} {keeps : Bool} {instr last : Instr} {position : Nat}
    {positions : List Nat} {resolved : ResolvedSlot} (noSum : instr.opcode ≠ .add16ri)
    (greater : ∀ later ∈ positions, position < later)
    (ran : resolveSlot frame keeps instr position = .ok resolved)
    (rest : ResolvedAt frame keeps positions resolved.instr last) :
    ResolvedAt frame keeps (position :: positions) instr last := by
  obtain ⟨index, addend, object, slot, addendFound, objectFound, ⟨_, _, isSum, -⟩ | ⟨-, rfl⟩⟩ :=
    resolveSlot_eq_ok ran
  · exact (noSum isSum).elim
  have addendBound := (List.getElem?_eq_some_iff.mp addendFound).1
  have apart : ∀ later ∈ positions, position + 2 ≤ later := by
    intro later member
    obtain ⟨_, _, _, laterSlot, -⟩ := rest.slots later member
    have next : later ≠ position + 1 := by
      rintro rfl
      rw [List.getElem?_set_self (by simpa using addendBound)] at laterSlot
      cases laterSlot
    have above := greater later member
    omega
  have ahead {place : Nat} (near : place ≤ position + 1) :
      ∀ later ∈ positions, place ≠ later ∧ place ≠ later + 1 := by
    intro later member
    have above := apart later member
    omega
  have untouched {place : Nat} (other : place ≠ position ∧ place ≠ position + 1) :
      ((instr.operands.set position (.use (frameRegister keeps))).set (position + 1)
        (.immediate (frame.displacement keeps object addend)))[place]? =
          instr.operands[place]? := by
    rw [List.getElem?_set_ne (by omega), List.getElem?_set_ne (by omega)]
  refine ⟨rest.opcode, by simpa using rest.length, ?_, ?_⟩
  · intro place member
    rcases List.mem_cons.mp member with rfl | later
    · refine ⟨index, addend, object, slot, addendFound, objectFound, ?_, ?_⟩
      · rw [rest.others place (ahead (Nat.le_succ place)), List.getElem?_set_ne (by omega),
          List.getElem?_set_self (by omega)]
      · rw [rest.others (place + 1) (ahead (Nat.le_refl _)),
          List.getElem?_set_self (by simpa using addendBound)]
    · have above := apart place later
      obtain ⟨index, addend, object, slot, addendFound, found, base, displaced⟩ :=
        rest.slots place later
      rw [untouched (by omega)] at slot addendFound
      exact ⟨index, addend, object, slot, addendFound, found, base, displaced⟩
  · intro place other
    rw [List.forall_mem_cons] at other
    rw [rest.others place other.2, untouched other.1]

theorem resolvedAt_of_resolveSlots {frame : Frame} {keeps : Bool} {adjustment last : Int64}
    {following items : List Instr} {instr : Instr} {positions : List Nat}
    (noSum : instr.opcode ≠ .add16ri) (sorted : positions.Pairwise (· < ·))
    (ran : resolveSlots frame keeps adjustment following instr positions = .done items last) :
    ∃ resolved, items = resolved :: following ∧
      ResolvedAt frame keeps positions instr resolved := by
  induction positions generalizing instr following with
  | nil =>
      cases ran
      exact ⟨instr, rfl, .refl frame keeps instr⟩
  | cons position rest ih =>
      rw [List.pairwise_cons] at sorted
      obtain ⟨first, firstRan, restRan⟩ := resolveSlots_cons_eq_done ran
      obtain ⟨_, _, _, -, -, -, ⟨_, _, isSum, -⟩ | ⟨-, firstEq⟩⟩ := resolveSlot_eq_ok firstRan
      · exact (noSum isSum).elim
      have firstNoSum : first.instr.opcode ≠ .add16ri := by rwa [firstEq]
      obtain ⟨resolved, rfl, resolvedAt⟩ := ih firstNoSum sorted.2 restRan
      refine ⟨resolved, by rw [firstEq, List.nil_append], ?_⟩
      exact resolvedAt.cons noSum sorted.1 firstRan

theorem offset_addDisplacement (target : Reg) (displacement : Int64) :
    addDisplacement target displacement = [] ∨
      ∃ opcode amount, (opcode = .add16ri ∨ opcode = .sub16ri) ∧
        addDisplacement target displacement = [.adjust opcode target amount] := by
  unfold addDisplacement
  split
  · exact .inl rfl
  · split
    · exact .inr ⟨_, _, .inr rfl, rfl⟩
    · exact .inr ⟨_, _, .inl rfl, rfl⟩

theorem sorted_slotPositions (instr : Instr) : instr.slotPositions.Pairwise (· < ·) :=
  List.pairwise_lt_range.filter _

/-- Taking the address of a slot cuts off what stands behind the slot, so there is only one. -/
theorem rewrites_of_resolveSlots_sum {frame : Frame} {keeps : Bool} {adjustment last : Int64}
    {items : List Instr} {instr : Instr} (sum : instr.opcode = .add16ri)
    (hasSlot : instr.slotPositions ≠ [])
    (ran : resolveSlots frame keeps adjustment [] instr instr.slotPositions = .done items last) :
    Rewrites frame keeps instr items := by
  obtain ⟨position, rest, positionsEq⟩ := List.exists_cons_of_ne_nil hasSlot
  have sorted := sorted_slotPositions instr
  rw [positionsEq] at ran sorted
  obtain ⟨first, firstRan, restRan⟩ := resolveSlots_cons_eq_done ran
  obtain ⟨_, _, _, slot, -, -, ⟨target, flags, -, targets, rfl⟩ | ⟨noSum, -⟩⟩ :=
    resolveSlot_eq_ok firstRan
  swap
  · exact (noSum sum).elim
  have bound := (List.getElem?_eq_some_iff.mp slot).1
  have operandsEq : (instr.operands.set position (.use (frameRegister keeps))).take (position + 1) =
      instr.operands.take position ++ [.use (frameRegister keeps)] := by
    rw [List.take_add_one, List.take_set_of_le (Nat.le_refl position),
      List.getElem?_set_self bound]
    rfl
  rw [operandsEq] at restRan
  cases rest with
  | nil =>
      cases restRan
      rw [List.append_nil]
      exact .address sum positionsEq targets (offset_addDisplacement _ _)
  | cons later rest =>
      obtain ⟨_, laterRan, -⟩ := resolveSlots_cons_eq_done restRan
      obtain ⟨_, _, _, found, -⟩ := resolveSlot_eq_ok laterRan
      have behind := (List.pairwise_cons.mp sorted).1 later (List.mem_cons_self ..)
      rw [List.getElem?_eq_none (by simp; omega)] at found
      contradiction

theorem rewrites_of_lowerInstr {options : Options} {frame : Frame} {keeps : Bool}
    {adjustment last : Int64} {instr : Instr} {items : List Instr}
    (noPseudo : instr.isCallPseudo = false) (hasSlot : instr.slotPositions ≠ [])
    (ran : lowerInstr options frame keeps adjustment instr = .done items last) :
    Rewrites frame keeps instr items := by
  rw [lowerInstr, noPseudo, if_neg Bool.false_ne_true] at ran
  by_cases sum : instr.opcode = .add16ri
  · exact rewrites_of_resolveSlots_sum sum hasSlot ran
  · obtain ⟨resolved, rfl, resolvedAt⟩ :=
      resolvedAt_of_resolveSlots sum (sorted_slotPositions instr) ran
    exact .inPlace sum resolvedAt

theorem isPlain_of_slotPositions {instr : Instr} (noPseudo : instr.isCallPseudo = false)
    (noSlot : instr.slotPositions = []) : instr.isPlain = true := by
  rw [Instr.isPlain, noPseudo, Bool.not_false, Bool.true_and, List.all_eq_true]
  intro operand member
  obtain ⟨position, found⟩ := List.getElem?_of_mem member
  cases operand with
  | frameIndex index =>
      have isSlot := mem_slotPositions.mpr ⟨index, found⟩
      rw [noSlot] at isSlot
      contradiction
  | _ => rfl

/-! ## The sweep over framed code -/

theorem KeepsBody.inserted {registers : List Register} {frame : Frame} {keeps : Bool}
    {body lowered added : List Instr} (frameCode : ∀ instr ∈ added, IsFrameCode registers instr)
    (rest : KeepsBody registers frame keeps body lowered) :
    KeepsBody registers frame keeps body (added ++ lowered) := by
  induction added with
  | nil => exact rest
  | cons instr added ih =>
      rw [List.forall_mem_cons] at frameCode
      exact .insert frameCode.1 (ih frameCode.2)

/-- What the sweep makes of one of the function's own instructions. -/
theorem KeepsBody.lowered {options : Options} {frame : Frame} {keeps : Bool}
    {adjustment next : Int64} {instr : Instr} {items body lowered : List Instr}
    {registers : List Register}
    (ran : lowerInstr options frame keeps adjustment instr = .done items next)
    (rest : KeepsBody registers frame keeps body lowered) :
    KeepsBody registers frame keeps (instr :: body) (items ++ lowered) := by
  rcases lowerInstr_eq_done ran with ⟨isPseudo, expanded⟩ | ⟨noPseudo, -⟩
  · apply KeepsBody.drop isPseudo
    exact rest.inserted fun item member => isFrameCode_of_mem_expansion expanded member registers
  · by_cases hasSlot : instr.slotPositions = []
    · rw [lowerInstr, noPseudo, if_neg Bool.false_ne_true, hasSlot] at ran
      cases ran
      exact .keep (isPlain_of_slotPositions noPseudo hasSlot) rest
    · exact .rewrite hasSlot noPseudo (rewrites_of_lowerInstr noPseudo hasSlot ran) rest

/-- The sweep keeps the function's own instructions and leaves the frame code among them as it
is. -/
theorem keepsBody_of_run_lowerTraced {options : Options} {frame : Frame} {keeps : Bool}
    {adjustment last : Int64} {code result : List Traced} {registers : List Register}
    (frameCode : ∀ item ∈ code, item.origin ≠ .body → IsFrameCode registers item.instr)
    (plain : ∀ item ∈ code, item.origin ≠ .body → item.instr.isPlain = true)
    (ran : Sweep.run (lowerTraced options frame keeps) adjustment code = .done result last) :
    KeepsBody registers frame keeps (untraced (code.filter Traced.isOwn)) (untraced result) := by
  induction code generalizing adjustment result with
  | nil =>
      cases ran
      exact .nil
  | cons item rest ih =>
      rw [List.forall_mem_cons] at frameCode plain
      obtain ⟨next, finished, remaining, stepped, swept, rfl⟩ := Sweep.run_cons_eq_done ran
      have kept := ih frameCode.2 plain.2 swept
      by_cases own : item.origin = .body
      · have isOwn : item.isOwn = true := beq_iff_eq.mpr own
        obtain ⟨items, lowered, rfl⟩ := lowerTraced_eq_done stepped
        rw [List.filter_cons_of_pos isOwn, untraced_append, untraced_traced]
        exact kept.lowered lowered
      · have notOwn : ¬item.isOwn = true := fun isOwn => own (beq_iff_eq.mp isOwn)
        rw [lowerTraced_of_isPlain (plain.1 own) stepped, List.filter_cons_of_neg notOwn]
        exact .insert (frameCode.1 own) kept

/-- In a block without frame code, pseudos and slots, nothing changes. -/
theorem instrs_eq_of_isPlain {options : Options} {function lowered : Function} {id : BlockId}
    {original block : Block} (ran : (lowerFrame options).run function = .ok () lowered)
    (found : function.block? id = some original) (loweredFound : lowered.block? id = some block)
    (notEntry : id ≠ 0) (stays : original.isReturning = false)
    (plain : ∀ instr ∈ original.instrs, instr.isPlain = true) :
    block.instrs = original.instrs := by
  have nonempty : function.blocks ≠ [] := List.ne_nil_of_mem (List.mem_of_getElem? found)
  obtain ⟨localArea, lowers⟩ := exists_lowersTo ran nonempty rfl
  obtain ⟨_, sameFound, last, swept⟩ := lowers.exists_block found
  cases loweredFound.symm.trans sameFound
  have unframed (registers : List Register) (releasing : List Instr) :
      framedInstrs (function.frame.hasFramePointer options) registers localArea releasing
        (decide (id = 0)) original.isReturning original.instrs = original.instrs := by
    rw [decide_eq_false notEntry, stays]
    rfl
  rw [unframed, run_lowerInstr_of_isPlain plain] at swept
  exact (congrArg Sweep.items swept).symm

/-- Lowering keeps the body of a function. Its own instructions are there in their order, each of
them once: those without slots as they were, those with slots rewritten in place, and only the
pseudos of call sequences are gone. All other instructions are frame code. A block without frame
code, pseudos and slots does not change, and neither do the blocks' order and names, the size of the
frame and the objects that it had. -/
theorem lowerFrame_keepsBody {options : Options} {function lowered : Function}
    (ran : (lowerFrame options).run function = .ok () lowered) :
    (∀ id original, function.block? id = some original →
      ∃ block, lowered.block? id = some block ∧
        KeepsBody function.calleeSaved lowered.frame (function.frame.hasFramePointer options)
          original.instrs block.instrs ∧
        (id ≠ 0 → original.isReturning = false →
          (∀ instr ∈ original.instrs, instr.isPlain = true) →
            block.instrs = original.instrs)) ∧
    lowered.blocks.map Block.name = function.blocks.map Block.name ∧
    lowered.frame.stackSize = function.frame.stackSize ∧
    ∀ index object, function.frame.object? index = some object →
      lowered.frame.object? index = some object := by
  have outline : KeepsOutline function lowered := by
    have left := lowerFrame_preserves options function (.refl function)
    rwa [Pass.leaves_of_ok ran] at left
  refine ⟨?_, outline.names, outline.stackSize, fun _ _ => outline.object?⟩
  intro id original found
  obtain ⟨block, loweredFound, -⟩ := outline.exists_block found
  refine ⟨block, loweredFound, ?_, instrs_eq_of_isPlain ran found loweredFound⟩
  obtain ⟨last, traceRan, blockEq⟩ := exists_tracedBlock ran found loweredFound
  have kept := keepsBody_of_run_lowerTraced (fun _ => isFrameCode_of_inserted)
    isPlain_of_inserted traceRan
  rwa [blockEq, (framesCore_tracedFrame ..).filter_isOwn, untraced_traced] at kept

/-- A function with a call sequence, an address and an access in its entry, and a block in between
that needs no frame. -/
def addressed : Function where
  name := "addressed"
  frame := { stackSize := 8, hasVarSizedObjects := true, objects := [{ size := 2, offset := -8 }] }
  calleeSaved := [.r10]
  blocks := [
    { name := "start"
      instrs := [
        { opcode := .adjCallStackDown, operands := [.immediate 3] },
        { opcode := .jal, operands := [.symbol "callee"] },
        { opcode := .adjCallStackUp, operands := [.immediate 3, .immediate 0] },
        { opcode := .add16ri, operands := [.define .r11, .frameIndex 0, .immediate 2] },
        { opcode := .mov16mr, operands := [.frameIndex 0, .immediate 0, .use .r11] }] },
    { name := "middle"
      instrs := [{ opcode := .mov16ri, operands := [.define .r10, .immediate 7] }] },
    { name := "done", instrs := [{ opcode := .ret }] }]

def addressedLowered : Function where
  name := "addressed"
  frame :=
    { stackSize := 8, hasVarSizedObjects := true, offsetAdjustment := -4
      objects := [{ size := 2, offset := -8 }]
      fixedObjects := [{ size := 2, offset := -4 }]
      framePointer? := some true }
  calleeSaved := [.r10]
  calleeSavedSize := 2
  blocks := [
    { name := "start"
      instrs := [
        .push .fp, .copy .fp .sp, .push .r10, .lowerStack 4,
        .lowerStack 4,
        { opcode := .jal, operands := [.symbol "callee"] },
        .raiseStack 4,
        .copy .r11 .fp, .adjust .sub16ri (.physical .r11) 2,
        { opcode := .mov16mr, operands := [.use .fp, .immediate (-4), .use .r11] }]
      liveIns := .ofList [.r10] },
    { name := "middle"
      instrs := [{ opcode := .mov16ri, operands := [.define .r10, .immediate 7] }]
      liveIns := .ofList [.fp] },
    { name := "done"
      instrs := [
        .copy .sp .fp, .lowerStack 2, .pop .r10, .pop .fp,
        { opcode := .ret }]
      liveIns := .ofList [.fp] }]

theorem lowerFrame_keepsBody_addressed :
    (lowerFrame {}).run addressed = .ok () addressedLowered ∧
      (∃ block, addressedLowered.block? 0 = some block ∧
        KeepsBody [.r10] addressedLowered.frame true
          [{ opcode := .adjCallStackDown, operands := [.immediate 3] },
            { opcode := .jal, operands := [.symbol "callee"] },
            { opcode := .adjCallStackUp, operands := [.immediate 3, .immediate 0] },
            { opcode := .add16ri, operands := [.define .r11, .frameIndex 0, .immediate 2] },
            { opcode := .mov16mr, operands := [.frameIndex 0, .immediate 0, .use .r11] }]
          block.instrs) ∧
      ∃ block, addressedLowered.block? 1 = some block ∧
        block.instrs = [{ opcode := .mov16ri, operands := [.define .r10, .immediate 7] }] := by
  have ran : (lowerFrame {}).run addressed = .ok () addressedLowered := by decide +kernel
  obtain ⟨blocks, -⟩ := lowerFrame_keepsBody ran
  obtain ⟨start, startFound, kept, -⟩ := blocks 0 _ rfl
  obtain ⟨middle, middleFound, -, unchanged⟩ := blocks 1 _ rfl
  exact ⟨ran, ⟨start, startFound, kept⟩, middle, middleFound,
    unchanged (by decide) (by decide) (by decide)⟩

end MachineCode
