import MachineCode.Proofs.Frame.Stages

/-!
# The shape of framed blocks

The stages find their places by scanning for opcodes in blocks that earlier stages have changed.
In a block that ends in at most one return, and that holds neither pushes nor pops of its own, all
scans stop where they should: the entry code stands in front of the body, and the exit code
between the body and the return. The sweep leaves both as they are.
-/

namespace MachineCode

/-- What a function does when it is entered. -/
def entryCode (keeps : Bool) (registers : List Register) (localArea : UInt64) : List Instr :=
  (if keeps then framePointerSetup else []) ++ saveInstrs registers ++ allocation localArea

/-- What a function does before it returns. -/
def exitCode (keeps : Bool) (registers : List Register) (releasing : List Instr) : List Instr :=
  releasing ++ (restoreInstrs registers ++ if keeps then [.pop .fp] else [])

theorem takeWhile_eq_nil_of_head? {predicate : Instr → Bool} {instrs : List Instr}
    (stops : ∀ instr ∈ instrs.head?, predicate instr = false) :
    instrs.takeWhile predicate = [] ∧ instrs.dropWhile predicate = instrs := by
  cases instrs with
  | nil => exact ⟨rfl, rfl⟩
  | cons instr rest =>
      have headStops := stops instr rfl
      simp [headStops]

theorem withPrologue_eq {keeps : Bool} {registers : List Register} {localArea : UInt64}
    {instrs : List Instr} (noPush : ∀ instr ∈ instrs.head?, instr.isPush = false) :
    withPrologue keeps localArea (saveInstrs registers ++ instrs) =
      entryCode keeps registers localArea ++ instrs := by
  have pushes : ∀ instr ∈ saveInstrs registers, instr.isPush = true := by
    intro instr member
    obtain ⟨register, -, rfl⟩ := List.mem_map.mp member
    rfl
  obtain ⟨takeEq, dropEq⟩ := takeWhile_eq_nil_of_head? noPush
  rw [withPrologue, List.takeWhile_append_of_pos pushes, List.dropWhile_append_of_pos pushes,
    takeEq, dropEq, List.append_nil, entryCode]

theorem withRestores_eq {registers : List Register} {body : List Instr} {last : Instr}
    (ends : last.isTerminator = true)
    (single : ∀ instr ∈ body.getLast?, instr.isTerminator = false) :
    withRestores registers (body ++ [last]) = body ++ restoreInstrs registers ++ [last] := by
  rw [← List.head?_reverse] at single
  obtain ⟨takeEq, -⟩ := takeWhile_eq_nil_of_head? single
  rw [withRestores, List.reverse_append, List.reverse_singleton, List.singleton_append,
    List.takeWhile_cons_of_pos ends, takeEq]
  simp

theorem withEpilogue_eq {keeps : Bool} {registers : List Register} {releasing body : List Instr}
    {last : Instr} (stops : ∀ instr ∈ body.getLast?, instr.isPopOrTerminator = false) :
    withEpilogue keeps releasing (body ++ restoreInstrs registers ++ [last]) =
      body ++ exitCode keeps registers releasing ++ [last] := by
  rw [← List.head?_reverse] at stops
  obtain ⟨takeEq, dropEq⟩ := takeWhile_eq_nil_of_head? stops
  let pops := restoreInstrs registers ++ if keeps then [Instr.pop .fp] else []
  have popsOnly : ∀ instr ∈ pops.reverse, instr.isPopOrTerminator = true := by
    intro instr member
    rw [List.mem_reverse, List.mem_append] at member
    rcases member with restored | framePointer
    · obtain ⟨register, -, rfl⟩ := List.mem_map.mp restored
      rfl
    · cases keeps with
      | false => contradiction
      | true =>
          cases List.mem_singleton.mp framePointer
          rfl
  have beforeReturn : (body ++ restoreInstrs registers ++ [last]).dropLast ++
      (if keeps then [Instr.pop .fp] else []) = body ++ pops := by
    rw [List.dropLast_concat, List.append_assoc]
  rw [withEpilogue, beforeReturn, List.reverse_append, List.takeWhile_append_of_pos popsOnly,
    List.dropWhile_append_of_pos popsOnly, takeEq, dropEq, List.append_nil, List.reverse_reverse,
    List.reverse_reverse, List.getLast?_concat, exitCode]
  simp [pops]

/-- Entry code consists of pushes, copies and moves of the stack pointer. -/
theorem forall_mem_entryCode {property : Instr → Prop}
    (push : ∀ register, property (.push register))
    (copy : ∀ target source, property (.copy target source))
    (lower : ∀ amount, property (.lowerStack amount)) (keeps : Bool)
    (registers : List Register) (localArea : UInt64) :
    ∀ instr ∈ entryCode keeps registers localArea, property instr := by
  intro instr member
  rw [entryCode, List.mem_append, List.mem_append] at member
  rcases member with (setup | saves) | allocates
  · cases keeps with
    | false => contradiction
    | true =>
        simp only [framePointerSetup, if_true, List.mem_cons, List.not_mem_nil, or_false] at setup
        rcases setup with rfl | rfl
        · exact push .fp
        · exact copy .fp .sp
  · obtain ⟨register, -, rfl⟩ := List.mem_map.mp saves
    exact push register
  · unfold allocation at allocates
    split at allocates
    · contradiction
    · cases List.mem_singleton.mp allocates
      exact lower localArea.toInt64

/-- Exit code consists of pops, copies and moves of the stack pointer. -/
theorem forall_mem_exitCode {property : Instr → Prop} (pop : ∀ register, property (.pop register))
    (copy : ∀ target source, property (.copy target source))
    (lower : ∀ amount, property (.lowerStack amount))
    (raise : ∀ amount, property (.raiseStack amount)) (keeps : Bool)
    (registers : List Register) (hasVarSizedObjects : Bool) (savedBytes localArea : UInt64) :
    ∀ instr ∈ exitCode keeps registers (release hasVarSizedObjects savedBytes localArea),
      property instr := by
  intro instr member
  rw [exitCode, List.mem_append, List.mem_append] at member
  rcases member with releases | restores | framePointer
  · unfold release at releases
    split at releases
    · rcases List.mem_cons.mp releases with rfl | lowers
      · exact copy .sp .fp
      · split at lowers
        · contradiction
        · cases List.mem_singleton.mp lowers
          exact lower savedBytes.toInt64
    · split at releases
      · contradiction
      · cases List.mem_singleton.mp releases
        exact raise localArea.toInt64
  · obtain ⟨register, -, rfl⟩ := List.mem_map.mp restores
    exact pop register
  · cases keeps with
    | false => contradiction
    | true =>
        cases List.mem_singleton.mp framePointer
        exact pop .fp

/-- What holds of all instructions of a list and of the last one behind it holds of the last
one of both. -/
theorem forall_getLast?_append {property : Instr → Prop} {left right : List Instr}
    (leftHolds : ∀ instr ∈ left, property instr)
    (rightHolds : ∀ instr ∈ right.getLast?, property instr) :
    ∀ instr ∈ (left ++ right).getLast?, property instr := by
  intro instr member
  rw [List.getLast?_append, Option.mem_def, Option.or_eq_some_iff] at member
  rcases member with last | ⟨-, last⟩
  · exact rightHolds instr last
  · exact leftHolds instr (List.mem_of_getLast? last)

theorem framedInstrs_of_not_returning (keeps : Bool) {registers : List Register}
    {localArea : UInt64} {releasing : List Instr} (isEntry : Bool) {instrs : List Instr}
    (noPush : ∀ instr ∈ instrs, instr.isPush = false) :
    framedInstrs keeps registers localArea releasing isEntry false instrs =
      (if isEntry then entryCode keeps registers localArea else []) ++ instrs := by
  cases isEntry with
  | false => rfl
  | true =>
      apply withPrologue_eq
      intro instr head
      exact noPush instr (List.mem_of_mem_head? head)

theorem framedInstrs_of_returning (keeps : Bool) {registers : List Register} {localArea : UInt64}
    {releasing : List Instr} (isEntry : Bool) {body : List Instr} {last : Instr}
    (returns : last.isReturn = true) (noPush : ∀ instr ∈ body, instr.isPush = false)
    (single : ∀ instr ∈ body.getLast?, instr.isPopOrTerminator = false) :
    framedInstrs keeps registers localArea releasing isEntry true (body ++ [last]) =
      (if isEntry then entryCode keeps registers localArea else []) ++ body ++
        exitCode keeps registers releasing ++ [last] := by
  have ends : last.isTerminator = true := by
    rw [Instr.isTerminator, Opcode.isTerminator]
    exact Bool.or_eq_true_iff.mpr (.inr returns)
  have bodySingle : ∀ instr ∈ body.getLast?, instr.isTerminator = false := by
    intro instr member
    exact (Bool.or_eq_false_iff.mp (single instr member)).2
  cases isEntry with
  | false =>
      rw [framedInstrs]
      simp only [Bool.false_eq_true, if_false, if_true, List.nil_append]
      rw [withRestores_eq ends bodySingle, withEpilogue_eq single]
  | true =>
      have savesSingle : ∀ instr ∈ (saveInstrs registers ++ body).getLast?,
          instr.isTerminator = false := by
        apply forall_getLast?_append _ bodySingle
        intro instr member
        obtain ⟨register, -, rfl⟩ := List.mem_map.mp member
        rfl
      have entrySingle : ∀ instr ∈ (entryCode keeps registers localArea ++ body).getLast?,
          instr.isPopOrTerminator = false :=
        forall_getLast?_append
          (forall_mem_entryCode (fun _ => rfl) (fun _ _ => rfl) (fun _ => rfl) _ _ _) single
      have nothingPushed : ∀ instr ∈ (body ++ restoreInstrs registers ++ [last]).head?,
          instr.isPush = false := by
        intro instr head
        have member := List.mem_of_mem_head? head
        rw [List.mem_append, List.mem_append, List.mem_singleton] at member
        rcases member with (inBody | restored) | rfl
        · exact noPush instr inBody
        · obtain ⟨register, -, rfl⟩ := List.mem_map.mp restored
          rfl
        · rw [Instr.isPush, beq_eq_false_iff_ne]
          intro push
          rw [Instr.isReturn, push] at returns
          contradiction
      rw [framedInstrs]
      simp only [if_true]
      rw [← List.append_assoc, withRestores_eq ends savesSingle, List.append_assoc,
        List.append_assoc, ← List.append_assoc body, withPrologue_eq nothingPushed,
        ← List.append_assoc, ← List.append_assoc, withEpilogue_eq entrySingle]

/-! ## The sweep over a framed block -/

/-- Whether the sweep leaves an instruction as it is. -/
def Instr.isPlain (instr : Instr) : Bool :=
  !instr.isCallPseudo && instr.operands.all fun operand => operand.frameIndex?.isNone

theorem slotPositions_of_isPlain {instr : Instr} (plain : instr.isPlain = true) :
    instr.slotPositions = [] := by
  rw [Instr.isPlain, Bool.and_eq_true, List.all_eq_true] at plain
  rw [Instr.slotPositions, List.filter_eq_nil_iff]
  intro position _ isSlot
  cases found : instr.operands[position]? with
  | none => simp [found] at isSlot
  | some operand =>
      have noSlot := plain.2 operand (List.mem_of_getElem? found)
      simp_all

theorem run_lowerInstr_of_isPlain {options : Options} {frame : Frame} {keeps : Bool}
    {adjustment : Int64} {instrs : List Instr}
    (plain : ∀ instr ∈ instrs, instr.isPlain = true) :
    Sweep.run (lowerInstr options frame keeps) adjustment instrs = .done instrs adjustment := by
  induction instrs with
  | nil => rfl
  | cons instr rest ih =>
      rw [List.forall_mem_cons] at plain
      have noPseudo : instr.isCallPseudo = false :=
        Bool.not_eq_true' _ ▸ (Bool.and_eq_true_iff.mp plain.1).1
      have lowered :
          lowerInstr options frame keeps adjustment instr = .done [instr] adjustment := by
        rw [lowerInstr, noPseudo, slotPositions_of_isPlain plain.1]
        rfl
      rw [Sweep.run_cons_ok lowered, ih plain.2]
      rfl

section

variable {options : Options} {frame : Frame} {keeps : Bool} {registers : List Register}
  {localArea savedBytes : UInt64} {hasVarSizedObjects isEntry : Bool} {items : List Instr}
  {last : Int64}

/-- The sweep over entry code and a body changes only the body. -/
theorem exists_body_of_entry {instrs : List Instr}
    (swept : Sweep.run (lowerInstr options frame keeps) 0
      ((if isEntry then entryCode keeps registers localArea else []) ++ instrs) =
        .done items last) :
    ∃ body, Sweep.run (lowerInstr options frame keeps) 0 instrs = .done body last ∧
      items = (if isEntry then entryCode keeps registers localArea else []) ++ body := by
  obtain ⟨middle, entry, body, entrySwept, bodySwept, rfl⟩ := Sweep.run_append_eq_done swept
  have entryPlain : ∀ instr ∈ (if isEntry then entryCode keeps registers localArea else []),
      instr.isPlain = true := by
    cases isEntry with
    | false => simp
    | true => exact forall_mem_entryCode (fun _ => rfl) (fun _ _ => rfl) (fun _ => rfl) _ _ _
  rw [run_lowerInstr_of_isPlain entryPlain] at entrySwept
  cases entrySwept
  exact ⟨body, bodySwept, rfl⟩

/-- The sweep over a body, exit code and a return changes only the body and the return. -/
theorem exists_body_of_exit {body : List Instr} {returns : Instr}
    (swept : Sweep.run (lowerInstr options frame keeps) 0
      (body ++ exitCode keeps registers (release hasVarSizedObjects savedBytes localArea) ++
        [returns]) = .done items last) :
    ∃ lowered adjustment leaving,
      Sweep.run (lowerInstr options frame keeps) 0 body = .done lowered adjustment ∧
      lowerInstr options frame keeps adjustment returns = .done leaving last ∧
      items = lowered ++
        exitCode keeps registers (release hasVarSizedObjects savedBytes localArea) ++ leaving := by
  obtain ⟨_, _, leaving, frontSwept, leavingSwept, rfl⟩ := Sweep.run_append_eq_done swept
  obtain ⟨adjustment, lowered, exit, bodySwept, exitSwept, rfl⟩ :=
    Sweep.run_append_eq_done frontSwept
  rw [run_lowerInstr_of_isPlain (forall_mem_exitCode (fun _ => rfl) (fun _ _ => rfl)
    (fun _ => rfl) (fun _ => rfl) _ _ _ _ _)] at exitSwept
  cases exitSwept
  obtain ⟨_, finished, remaining, returnLowered, restSwept, rfl⟩ :=
    Sweep.run_cons_eq_done leavingSwept
  cases restSwept
  rw [List.append_nil]
  exact ⟨lowered, _, finished, bodySwept, returnLowered, rfl⟩

end

end MachineCode
