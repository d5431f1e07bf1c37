import MachineCode.Proofs.Frame.Exits
import MachineCode.Proofs.Frame.Slot

/-!
# The local area and the function's own code

A function's own instructions may use its local area, so the area has to be there while they run:
allocated before all of them and, in a block that returns, released behind them. Lowering allocates
behind the pushes that start the entry block and releases in front of the pops that end a returning
one, and it does not tell the pushes and pops of saved registers from the function's own. The area
is in its place exactly where the function has none of its own there
(`lowerFrame_holdsLocalArea_iff`).
-/

namespace MachineCode

/-! ## The local area -/

namespace Traced

/-- Whether the instruction comes from the function itself. -/
def isOwn (item : Traced) : Bool :=
  item.origin == .body

/-- Whether the instruction comes from the function itself and does not end a block. -/
def isWork (item : Traced) : Bool :=
  item.isOwn && !item.instr.isTerminator

def allocates (item : Traced) : Bool :=
  item.origin == .prologue && item.instr.opcode == .sub16ri

/-- Whether the instruction takes part in the release of the local area. The other instruction of
an epilogue is the pop of the frame pointer. -/
def releases (item : Traced) : Bool :=
  item.origin == .epilogue && item.instr.opcode != .pop16r

/-- Whether the instruction is a push of the function itself. -/
def isOwnPush (item : Traced) : Bool :=
  item.isOwn && item.instr.isPush

/-- Whether the instruction is a pop of the function itself. -/
def isOwnPop (item : Traced) : Bool :=
  item.isOwn && item.instr.opcode == .pop16r

end Traced

/-- The function's own instructions find the local area: it is allocated before all of them, and
released behind all but terminators. -/
structure HoldsLocalArea (code : List Traced) : Prop where
  allocated : NeverBefore Traced.isOwn Traced.allocates code
  released : NeverBefore Traced.releases Traced.isWork code

theorem Traced.isWork_of_isOwnPop {item : Traced} (isPop : item.isOwnPop = true) :
    item.isWork = true := by
  obtain ⟨own, pop⟩ := Bool.and_eq_true_iff.mp isPop
  rw [isWork, own, Instr.isTerminator, eq_of_beq pop]
  rfl

/-! ## The sweep -/

/-- The sweep makes one instruction, of the same opcode, of an instruction that is neither a call
sequence pseudo nor a sum. -/
theorem exists_of_lowerInstr {options : Options} {frame : Frame} {keeps : Bool}
    {adjustment last : Int64} {instr : Instr} {items : List Instr}
    (noPseudo : instr.isCallPseudo = false) (noSum : instr.opcode ≠ .add16ri)
    (ran : lowerInstr options frame keeps adjustment instr = .done items last) :
    ∃ resolved, items = [resolved] ∧ resolved.opcode = instr.opcode := by
  rw [lowerInstr, noPseudo, if_neg Bool.false_ne_true] at ran
  obtain ⟨resolved, rfl, opcodeEq, -⟩ :=
    resolveSlots_keeps noSum (fun _ _ => Nat.zero_le _) ran
  exact ⟨resolved, rfl, opcodeEq⟩

theorem isOwn_of_lowerTraced {options : Options} {frame : Frame} {keeps : Bool}
    {adjustment next : Int64} {item : Traced} {finished : List Traced}
    (stepped : lowerTraced options frame keeps adjustment item = .done finished next)
    (hasOwn : finished.any Traced.isOwn = true) : item.isOwn = true := by
  obtain ⟨items, -, rfl⟩ := lowerTraced_eq_done stepped
  rw [any_traced, List.any_eq_true] at hasOwn
  obtain ⟨_, -, isOwn⟩ := hasOwn
  exact isOwn

theorem isCallPseudo_of_isTerminator {instr : Instr} (terminates : instr.isTerminator = true) :
    instr.isCallPseudo = false ∧ instr.opcode ≠ .add16ri := by
  rw [Instr.isTerminator] at terminates
  rw [Instr.isCallPseudo]
  cases opcode : instr.opcode <;> simp_all [Opcode.isTerminator, Opcode.isBranch, Opcode.isReturn]

/-- The sweep makes terminators of terminators. -/
theorem isWork_of_lowerTraced {options : Options} {frame : Frame} {keeps : Bool}
    {adjustment next : Int64} {item : Traced} {finished : List Traced}
    (stepped : lowerTraced options frame keeps adjustment item = .done finished next)
    (hasWork : finished.any Traced.isWork = true) : item.isWork = true := by
  obtain ⟨items, lowered, rfl⟩ := lowerTraced_eq_done stepped
  rw [any_traced, List.any_eq_true] at hasWork
  obtain ⟨made, member, isWork⟩ := hasWork
  obtain ⟨isOwn, notTerminator⟩ := Bool.and_eq_true_iff.mp isWork
  refine Bool.and_eq_true_iff.mpr ⟨isOwn, ?_⟩
  by_contra terminates
  rw [Bool.not_eq_true, Bool.not_eq_false'] at terminates
  obtain ⟨noPseudo, noSum⟩ := isCallPseudo_of_isTerminator terminates
  obtain ⟨resolved, rfl, opcodeEq⟩ := exists_of_lowerInstr noPseudo noSum lowered
  rw [List.mem_singleton.mp member, Instr.isTerminator, opcodeEq, ← Instr.isTerminator,
    terminates] at notTerminator
  contradiction

/-- The sweep keeps pushes and pops. -/
theorem exists_of_lowerTraced {options : Options} {frame : Frame} {keeps : Bool}
    {adjustment next : Int64} {item : Traced} {finished : List Traced}
    (stack : item.instr.opcode = .push16r ∨ item.instr.opcode = .pop16r)
    (stepped : lowerTraced options frame keeps adjustment item = .done finished next) :
    ∃ resolved, finished = [{ instr := resolved, origin := item.origin }] ∧
      resolved.opcode = item.instr.opcode := by
  obtain ⟨items, lowered, rfl⟩ := lowerTraced_eq_done stepped
  have noPseudo : item.instr.isCallPseudo = false := by
    rw [Instr.isCallPseudo]
    rcases stack with push | pop
    · rw [push]
      rfl
    · rw [pop]
      rfl
  have noSum : item.instr.opcode ≠ .add16ri := by
    rcases stack with push | pop
    · simp [push]
    · simp [pop]
  obtain ⟨resolved, rfl, opcodeEq⟩ := exists_of_lowerInstr noPseudo noSum lowered
  exact ⟨resolved, rfl, opcodeEq⟩

/-! ## Framed blocks -/

theorem any_traced_inserted {kind : Traced → Bool} {origin : Origin}
    (own : ∀ item, kind item = true → item.isOwn = true) (inserted : origin ≠ .body)
    (instrs : List Instr) : (traced origin instrs).any kind = false := by
  refine any_traced_eq_false fun instr _ => ?_
  by_contra isKind
  exact inserted (eq_of_beq (own _ (eq_true_of_ne_false isKind)))

/-- Of the pops and terminators of a function, only the pops are work. -/
theorem any_traced_tail_iff {kind : Traced → Bool} {instrs : List Instr}
    (work : ∀ item, kind item = true → item.isWork = true)
    (ownPops : ∀ instr, instr.opcode = .pop16r → kind { instr, origin := .body } = true)
    (tail : ∀ instr ∈ instrs, instr.isPopOrTerminator = true) :
    (traced .body instrs).any kind = false ↔ ∀ instr ∈ instrs, instr.isTerminator = true := by
  rw [any_traced, List.any_eq_false]
  refine forall₂_congr fun instr member => ⟨fun notKind => ?_, fun terminates isKind => ?_⟩
  · rcases Bool.or_eq_true_iff.mp (tail instr member) with isPop | terminates
    · exact (notKind (ownPops instr (eq_of_beq isPop))).elim
    · exact terminates
  · have isWork := work _ isKind
    rw [Traced.isWork, terminates, Bool.not_true, Bool.and_false] at isWork
    contradiction

section

variable {keeps isEntry : Bool} {registers : List Register} {localArea : UInt64}
  {releasing body : List Instr} {last : Instr} {kind : Traced → Bool}

/-- In entry code, the local area is allocated behind the function's own pushes. -/
theorem neverBefore_allocates_traceEntry_iff {pushes : List Instr} {rest : List Traced}
    (own : ∀ item, kind item = true → item.isOwn = true)
    (ownPushes : ∀ instr ∈ pushes, kind { instr, origin := .body } = true)
    (noneBehind : rest.any Traced.allocates = false) :
    NeverBefore kind Traced.allocates
        ((if isEntry then traceEntry keeps registers localArea pushes else []) ++ rest) ↔
      (isEntry = true → localArea ≠ 0 → pushes = []) := by
  have frontFree : (traced .prologue (if keeps then framePointerSetup else []) ++
      traced .save (saveInstrs registers) ++ traced .body pushes).any Traced.allocates = false := by
    rw [List.any_append, List.any_append, any_traced_eq_false, any_traced_eq_false,
      any_traced_eq_false]
    · rfl
    · exact fun _ _ => rfl
    · exact fun _ _ => rfl
    · cases keeps <;> decide
  have frontOwn : (traced .prologue (if keeps then framePointerSetup else []) ++
      traced .save (saveInstrs registers) ++ traced .body pushes).any kind =
        !pushes.isEmpty := by
    rw [List.any_append, List.any_append, any_traced_inserted own (by decide),
      any_traced_inserted own (by decide), any_traced_of_forall ownPushes]
    rfl
  have allocated : (traced .prologue (allocation localArea)).any Traced.allocates =
      decide (localArea ≠ 0) := by
    by_cases empty : localArea = 0
    · simp [allocation, empty, traced]
    · simp [allocation, empty, traced, Traced.allocates, Instr.lowerStack, Instr.adjust]
  cases isEntry with
  | false => simpa using neverBefore_of_none_second noneBehind
  | true =>
      rw [if_pos rfl, traceEntry,
        neverBefore_second_iff frontFree (any_traced_inserted own (by decide) _) noneBehind,
        frontOwn, allocated]
      cases pushes <;> simp

/-- In the entry block, the local area is allocated behind the pushes that start it. -/
theorem neverBefore_allocates_traceFramed_iff {original : Block}
    (own : ∀ item, kind item = true → item.isOwn = true)
    (ownPushes : ∀ instr, instr.isPush = true → kind { instr, origin := .body } = true) :
    NeverBefore kind Traced.allocates
        (traceFramed keeps registers localArea releasing isEntry original.isReturning
          original.instrs) ↔
      (isEntry = true → localArea ≠ 0 → original.instrs.takeWhile Instr.isPush = []) := by
  have bodyFree (instrs : List Instr) : (traced .body instrs).any Traced.allocates = false :=
    any_traced_eq_false fun _ _ => rfl
  have epilogueFree (instrs : List Instr) :
      (traced .epilogue instrs).any Traced.allocates = false :=
    any_traced_eq_false fun _ _ => rfl
  have restoreFree : (traced .restore (restoreInstrs registers)).any Traced.allocates = false :=
    any_traced_eq_false fun _ _ => rfl
  have taken {instrs : List Instr} :
      ∀ instr ∈ instrs.takeWhile Instr.isPush, kind { instr, origin := .body } = true :=
    fun instr member => ownPushes instr (List.mem_takeWhile_imp member)
  cases returning : original.isReturning with
  | false =>
      rw [traceFramed_of_not_returning]
      exact neverBefore_allocates_traceEntry_iff own taken (bodyFree _)
  | true =>
      obtain ⟨last, isLast, returns⟩ := Block.isReturning_iff.mp returning
      obtain ⟨body, instrsEq⟩ := List.getLast?_eq_some_iff.mp isLast
      have startEq : (body.rdropWhile Instr.isTerminator).takeWhile Instr.isPush =
          (body ++ [last]).takeWhile Instr.isPush := by
        conv_rhs => rw [← @List.rdropWhile_append_rtakeWhile _ Instr.isTerminator body,
          List.append_assoc]
        refine (takeWhile_append_of_neg ?_).1.symm
        intro instr member
        by_contra push
        have stops := isPopOrTerminator_of_isPush (eq_true_of_ne_false push)
        have terminates : instr.isTerminator = true := by
          rcases List.mem_append.mp member with inTail | isLast
          · exact List.mem_rtakeWhile_imp inTail
          · rw [List.mem_singleton.mp isLast]
            exact isTerminator_of_isReturn returns
        rw [Instr.isPopOrTerminator, terminates, Bool.or_true] at stops
        contradiction
      rw [instrsEq, traceFramed_of_returning _ _ _ _ _ _ returns, ← startEq]
      simp only [List.append_assoc]
      refine neverBefore_allocates_traceEntry_iff own taken ?_
      simp only [List.any_append, bodyFree, epilogueFree, restoreFree, Bool.false_or]

theorem any_releases_traceEntry (pushes : List Instr) :
    (if isEntry then traceEntry keeps registers localArea pushes else []).any
      Traced.releases = false := by
  cases isEntry with
  | false => rfl
  | true => simp [traceEntry, any_traced, Traced.releases]

/-- In a returning block, the local area is released in front of the function's own pops. -/
theorem neverBefore_releases_returning_iff (returns : last.isReturn = true)
    (noPop : ∀ instr ∈ releasing, instr.opcode ≠ .pop16r)
    (work : ∀ item, kind item = true → item.isWork = true)
    (ownPops : ∀ instr, instr.opcode = .pop16r → kind { instr, origin := .body } = true) :
    NeverBefore Traced.releases kind
        (traceFramed keeps registers localArea releasing isEntry true (body ++ [last])) ↔
      (releasing ≠ [] → ∀ instr ∈ (body ++ [last]).rtakeWhile Instr.isPopOrTerminator,
        instr.isTerminator = true) := by
  have isTail : last.isPopOrTerminator = true :=
    Bool.or_eq_true_iff.mpr (.inr (isTerminator_of_isReturn returns))
  have own : ∀ item, kind item = true → item.isOwn = true :=
    fun item isKind => (Bool.and_eq_true_iff.mp (work item isKind)).1
  have ownFree (instrs : List Instr) : (traced .body instrs).any Traced.releases = false :=
    any_traced_eq_false fun _ _ => rfl
  have released : (traced .epilogue releasing).any Traced.releases = !releasing.isEmpty := by
    refine any_traced_of_forall fun instr member => ?_
    simpa [Traced.releases] using noPop instr member
  have restoreFree : (traced .restore (restoreInstrs registers)).any Traced.releases = false :=
    any_traced_eq_false fun _ _ => rfl
  have popFree : (traced .epilogue (if keeps then [.pop .fp] else [])).any Traced.releases =
      false := by
    cases keeps <;> rfl
  rw [traceFramed_of_returning _ _ _ _ _ _ returns]
  dsimp only
  rw [rtakeWhile_dropWhile_isPush, List.append_assoc (_ ++ traced .epilogue releasing),
    List.append_assoc (_ ++ traced .epilogue releasing),
    List.append_assoc (_ ++ traced .epilogue releasing),
    neverBefore_first_iff, released]
  · have tailEq : (traced .body
        ((body.rdropWhile Instr.isTerminator).rtakeWhile Instr.isPopOrTerminator) ++
          (traced .restore (restoreInstrs registers) ++
            traced .body (body.rtakeWhile Instr.isTerminator)) ++
          traced .epilogue (if keeps then [.pop .fp] else []) ++ traced .body [last]).any kind =
        (traced .body ((body ++ [last]).rtakeWhile Instr.isPopOrTerminator)).any kind := by
      rw [List.rtakeWhile_concat_pos _ _ _ isTail, rtakeWhile_isPopOrTerminator_eq body,
        traced_append, traced_append]
      have restoresFree := @any_traced_inserted kind .restore own (by decide)
      have epilogueFree := @any_traced_inserted kind .epilogue own (by decide)
      simp only [List.any_append, restoresFree, epilogueFree, Bool.false_or, Bool.or_false]
    rw [tailEq, any_traced_tail_iff work ownPops fun _ member => List.mem_rtakeWhile_imp member]
    simp
  · rw [List.any_append, any_releases_traceEntry, ownFree]
    rfl
  · exact any_traced_inserted own (by decide) _
  · simp only [List.any_append, ownFree, restoreFree, popFree, Bool.false_or]

/-- The local area is released in front of the pops and terminators that end a returning block. -/
theorem neverBefore_releases_traceFramed_iff {original : Block}
    (noPop : ∀ instr ∈ releasing, instr.opcode ≠ .pop16r)
    (work : ∀ item, kind item = true → item.isWork = true)
    (ownPops : ∀ instr, instr.opcode = .pop16r → kind { instr, origin := .body } = true) :
    NeverBefore Traced.releases kind
        (traceFramed keeps registers localArea releasing isEntry original.isReturning
          original.instrs) ↔
      (original.isReturning = true → releasing ≠ [] →
        ∀ instr ∈ original.instrs.rtakeWhile Instr.isPopOrTerminator,
          instr.isTerminator = true) := by
  cases returning : original.isReturning with
  | false =>
      have free : (traceFramed keeps registers localArea releasing isEntry false
          original.instrs).any Traced.releases = false := by
        rw [traceFramed_of_not_returning, List.any_append, any_releases_traceEntry,
          any_traced_eq_false fun _ _ => rfl]
        rfl
      simpa using neverBefore_of_none_first free
  | true =>
      obtain ⟨last, isLast, returns⟩ := Block.isReturning_iff.mp returning
      obtain ⟨body, instrsEq⟩ := List.getLast?_eq_some_iff.mp isLast
      rw [instrsEq, neverBefore_releases_returning_iff returns noPop work ownPops]
      exact ⟨fun ordered _ => ordered, fun ordered => ordered rfl⟩

end

/-- The release of the local area pops nothing. -/
theorem opcode_of_mem_releasing {function : Function} {keeps : Bool} {instr : Instr}
    (member : instr ∈ function.releasing keeps) : instr.opcode ≠ .pop16r := by
  rw [Function.releasing, release] at member
  split at member
  · rcases List.mem_cons.mp member with rfl | lowers
    · decide
    · split at lowers
      · contradiction
      · rw [List.mem_singleton.mp lowers]
        exact Opcode.noConfusion
  · split at member
    · contradiction
    · rw [List.mem_singleton.mp member]
      exact Opcode.noConfusion

/-! ## Lowered blocks -/

section

variable {options : Options} {frame : Frame} {keeps : Bool} {adjustment last : Int64}
  {code items : List Traced}
  (plain : ∀ item ∈ code, item.origin ≠ .body → item.instr.isPlain = true)
  (ran : Sweep.run (lowerTraced options frame keeps) adjustment code = .done items last)

include plain ran

theorem NeverBefore.allocates_of_run (ordered : NeverBefore Traced.isOwn Traced.allocates code) :
    NeverBefore Traced.isOwn Traced.allocates items := by
  refine ordered.sweep (fun item member current next finished stepped => ?_) ran
  have allocatesEq : finished.any Traced.allocates = item.allocates :=
    any_of_lowerTraced_inserted (fun _ => rfl) (plain item member) stepped
  refine ⟨isOwn_of_lowerTraced stepped, fun hasAllocation => allocatesEq ▸ hasAllocation, ?_⟩
  by_cases own : item.origin = .body
  · apply neverBefore_of_none_second
    rw [allocatesEq, Traced.allocates, own]
    rfl
  · rw [lowerTraced_of_isPlain (plain item member own) stepped]
    exact neverBefore_singleton item

theorem NeverBefore.releases_of_run (ordered : NeverBefore Traced.releases Traced.isWork code) :
    NeverBefore Traced.releases Traced.isWork items := by
  refine ordered.sweep (fun item member current next finished stepped => ?_) ran
  have releasesEq : finished.any Traced.releases = item.releases :=
    any_of_lowerTraced_inserted (fun _ => rfl) (plain item member) stepped
  refine ⟨fun hasRelease => releasesEq ▸ hasRelease, isWork_of_lowerTraced stepped, ?_⟩
  by_cases own : item.origin = .body
  · apply neverBefore_of_none_first
    rw [releasesEq, Traced.releases, own]
    rfl
  · rw [lowerTraced_of_isPlain (plain item member own) stepped]
    exact neverBefore_singleton item

/-- The sweep drops none of the function's own pushes. -/
theorem NeverBefore.allocates_of_sweep
    (ordered : NeverBefore Traced.isOwn Traced.allocates items) :
    NeverBefore Traced.isOwnPush Traced.allocates code := by
  refine ordered.of_sweep (fun item member current next finished stepped => ⟨?_, ?_⟩) ran
  · intro isPush
    obtain ⟨own, push⟩ := Bool.and_eq_true_iff.mp isPush
    obtain ⟨resolved, rfl, -⟩ := exists_of_lowerTraced (.inl (eq_of_beq push)) stepped
    simpa [Traced.isOwn] using own
  · intro allocates
    rwa [any_of_lowerTraced_inserted (fun _ => rfl) (plain item member) stepped]

/-- The sweep drops none of the function's own pops. -/
theorem NeverBefore.releases_of_sweep
    (ordered : NeverBefore Traced.releases Traced.isWork items) :
    NeverBefore Traced.releases Traced.isOwnPop code := by
  refine ordered.of_sweep (fun item member current next finished stepped => ⟨?_, ?_⟩) ran
  · intro releases
    rwa [any_of_lowerTraced_inserted (fun _ => rfl) (plain item member) stepped]
  · intro isPop
    have pop := (Bool.and_eq_true_iff.mp isPop).2
    obtain ⟨resolved, rfl, opcodeEq⟩ := exists_of_lowerTraced (.inr (eq_of_beq pop)) stepped
    have isPop : Traced.isOwnPop { instr := resolved, origin := item.origin } = true := by
      rw [Traced.isOwnPop, opcodeEq]
      exact isPop
    simpa using Traced.isWork_of_isOwnPop isPop

end

/-- Where the local area of a lowered function is allocated and released. The function's own
instructions find it, unless there is an area to allocate and the entry block starts with a push,
or one to release and a pop stands among the pops and terminators that end a returning block. -/
theorem lowerFrame_holdsLocalArea_iff {options : Options} {function lowered : Function}
    {id : BlockId} {original block : Block}
    (ran : (lowerFrame options).run function = .ok () lowered)
    (found : function.block? id = some original) (loweredFound : lowered.block? id = some block) :
    untraced (tracedBlock options function lowered id original) = block.instrs ∧
      (HoldsLocalArea (tracedBlock options function lowered id original) ↔
        (id = 0 → function.loweredArea (function.frame.hasFramePointer options) ≠ 0 →
          original.instrs.takeWhile Instr.isPush = []) ∧
        (original.isReturning = true →
          function.releasing (function.frame.hasFramePointer options) ≠ [] →
          ∀ instr ∈ original.instrs.rtakeWhile Instr.isPopOrTerminator,
            instr.isTerminator = true)) := by
  obtain ⟨last, swept, same⟩ := exists_tracedBlock ran found loweredFound
  refine ⟨same, fun holds => ⟨fun isEntry => ?_, ?_⟩, fun ends => ⟨?_, ?_⟩⟩
  · have ordered := holds.allocated.allocates_of_sweep isPlain_of_inserted swept
    refine (neverBefore_allocates_traceFramed_iff ?_ ?_).mp ordered (decide_eq_true isEntry)
    · exact fun item isPush => (Bool.and_eq_true_iff.mp isPush).1
    · exact fun instr push => push
  · have ordered := holds.released.releases_of_sweep isPlain_of_inserted swept
    refine (neverBefore_releases_traceFramed_iff (fun _ => opcode_of_mem_releasing) ?_ ?_).mp
      ordered
    · exact fun item isPop => Traced.isWork_of_isOwnPop isPop
    · exact fun instr pop => beq_iff_eq.mpr pop
  · refine NeverBefore.allocates_of_run isPlain_of_inserted swept ?_
    refine (neverBefore_allocates_traceFramed_iff (fun _ own => own) fun _ _ => rfl).mpr ?_
    exact fun isEntry => ends.1 (of_decide_eq_true isEntry)
  · refine NeverBefore.releases_of_run isPlain_of_inserted swept ?_
    refine (neverBefore_releases_traceFramed_iff (fun _ => opcode_of_mem_releasing)
      (fun _ work => work) fun instr pop => ?_).mpr ends.2
    exact Traced.isWork_of_isOwnPop (beq_iff_eq.mpr pop)

/-- A function whose first block keeps a register on the stack while it stores to the local area,
and whose second block only stores. -/
def stacking : Function where
  name := "stacking"
  frame := { stackSize := 6, isAddressTaken := true, objects := [{ size := 2, offset := -6 }] }
  blocks := [
    { name := "start"
      instrs := [
        { opcode := .push16r, operands := [.use .r10] },
        { opcode := .mov16mr, operands := [.frameIndex 0, .immediate 0, .use .r11] },
        { opcode := .pop16r, operands := [.define .r10] },
        { opcode := .ret }] },
    { name := "done"
      instrs := [
        { opcode := .mov16mr, operands := [.frameIndex 0, .immediate 0, .use .r11] },
        { opcode := .ret }] }]

/-- The same function with its frame. The push of the first block stands where the local area should
be, right below the frame pointer, and the store goes to the same place. -/
def stackingLowered : Function where
  name := "stacking"
  frame :=
    { stackSize := 6, isAddressTaken := true, offsetAdjustment := -4
      objects := [{ size := 2, offset := -6 }]
      fixedObjects := [{ size := 2, offset := -4 }]
      framePointer? := some true }
  blocks := [
    { name := "start"
      instrs := [
        .push .fp, .copy .fp .sp,
        { opcode := .push16r, operands := [.use .r10] },
        .lowerStack 4,
        { opcode := .mov16mr, operands := [.use .fp, .immediate (-2), .use .r11] },
        .raiseStack 4,
        { opcode := .pop16r, operands := [.define .r10] },
        .pop .fp,
        { opcode := .ret }] },
    { name := "done"
      instrs := [
        { opcode := .mov16mr, operands := [.use .fp, .immediate (-2), .use .r11] },
        .raiseStack 4, .pop .fp,
        { opcode := .ret }]
      liveIns := .ofList [.fp] }]

theorem run_lowerFrame_stacking : (lowerFrame {}).run stacking = .ok () stackingLowered := by
  decide +kernel

theorem lowerFrame_holdsLocalArea_iff_stacking :
    (lowerFrame {}).run stacking = .ok () stackingLowered ∧
      ∃ original, stacking.block? 1 = some original ∧ original.isReturning = true ∧
        stacking.releasing (stacking.frame.hasFramePointer {}) ≠ [] ∧
        HoldsLocalArea (tracedBlock {} stacking stackingLowered 1 original) := by
  refine ⟨run_lowerFrame_stacking, _, rfl, by decide, by decide, ?_⟩
  refine (lowerFrame_holdsLocalArea_iff run_lowerFrame_stacking rfl rfl).2.mpr
    ⟨fun isEntry => ?_, fun _ _ => ?_⟩
  · contradiction
  · decide

/-- A push at the start of a function comes before its local area, and a pop at its end comes
behind. -/
theorem lowerFrame_not_holdsLocalArea_stacking :
    (lowerFrame {}).run stacking = .ok () stackingLowered ∧
      ∃ original, stacking.block? 0 = some original ∧
        ¬NeverBefore Traced.isOwn Traced.allocates
          (tracedBlock {} stacking stackingLowered 0 original) ∧
        ¬NeverBefore Traced.releases Traced.isWork
          (tracedBlock {} stacking stackingLowered 0 original) :=
  ⟨run_lowerFrame_stacking, _, rfl, by decide +kernel, by decide +kernel⟩

end MachineCode
