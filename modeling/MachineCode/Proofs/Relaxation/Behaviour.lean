import MachineCode.Proofs.Control.Flow
import MachineCode.Proofs.Relaxation.Solution

/-!
# Relaxation keeps the behaviour

Expanding one short branch moves the code behind it and leaves everything else alone. A run of
the expanded code follows the run of the original: outside the branch both take the same steps at
moved places, and at the branch the expanded code takes one step or two. Since relaxation is a
run of expansions, it keeps the behaviour.

Branches by a number of bytes would not survive insertions in general. Those that relaxation
itself leaves behind skip exactly one long jump, and nothing is ever inserted inside this pair.
-/

namespace MachineCode

namespace Relaxation

open MachineCode.Flow

/-! ## Skipped long jumps -/

/-- Whether every conditional branch by a number of bytes skips exactly the long jump behind it. -/
def skipsLongJumps : List Instr → Bool
  | [] => true
  | instr :: rest =>
      (match instr.opcode, instr.operands with
        | .jcc, .immediate distance :: _ =>
            distance == skippedBytes && rest.head?.any fun next => next.opcode == .bi
        | _, _ => true) && skipsLongJumps rest

theorem skipsLongJumps_append {left right : List Instr} (leftSkips : skipsLongJumps left = true)
    (rightSkips : skipsLongJumps right = true) : skipsLongJumps (left ++ right) = true := by
  induction left with
  | nil => exact rightSkips
  | cons instr rest ih =>
      rw [skipsLongJumps, Bool.and_eq_true] at leftSkips
      rw [List.cons_append, skipsLongJumps, Bool.and_eq_true]
      refine ⟨?_, ih leftSkips.2⟩
      cases rest with
      | nil => grind
      | cons next rest => exact leftSkips.1

/-- Only a long jump can be skipped, so the code splits at any other instruction. -/
theorem skipsLongJumps_split {preceding following : List Instr} {instr : Instr}
    (skips : skipsLongJumps (preceding ++ instr :: following) = true)
    (noLongJump : instr.opcode ≠ .bi) :
    skipsLongJumps preceding = true ∧ skipsLongJumps following = true := by
  induction preceding with
  | nil =>
      rw [List.nil_append, skipsLongJumps, Bool.and_eq_true] at skips
      exact ⟨rfl, skips.2⟩
  | cons first rest ih =>
      rw [List.cons_append, skipsLongJumps, Bool.and_eq_true] at skips
      obtain ⟨restSkips, followingSkips⟩ := ih skips.2
      refine ⟨?_, followingSkips⟩
      rw [skipsLongJumps, Bool.and_eq_true]
      refine ⟨?_, restSkips⟩
      cases rest with
      | nil => grind
      | cons next rest => exact skips.1

theorem opcode_ne_bi_of_isRelaxable {instr : Instr} (relaxable : isRelaxable instr = true) :
    instr.opcode ≠ .bi := by
  rcases opcode_of_isRelaxable relaxable with conditional | jump
  · simp [conditional]
  · simp [jump]

theorem skipsLongJumps_code {blocks : List Block}
    (skips : ∀ block ∈ blocks, skipsLongJumps block.instrs = true) :
    skipsLongJumps (code blocks) = true := by
  induction blocks with
  | nil => rfl
  | cons block rest ih =>
      rw [List.forall_mem_cons] at skips
      exact skipsLongJumps_append skips.1 (ih skips.2)

theorem exists_longJump_of_skips {instrs : List Instr} (skips : skipsLongJumps instrs = true)
    {place : Nat} {instr : Instr} {distance : Int64} {operands : List Operand}
    (found : instrs[place]? = some instr) (conditional : instr.opcode = .jcc)
    (byDistance : instr.operands = .immediate distance :: operands) :
    distance = skippedBytes ∧ ∃ next, instrs[place + 1]? = some next ∧ next.opcode = .bi := by
  induction instrs generalizing place with
  | nil => simp at found
  | cons first rest ih =>
      rw [skipsLongJumps, Bool.and_eq_true] at skips
      cases place with
      | zero =>
          cases found
          rw [conditional, byDistance] at skips
          cases rest with
          | nil => simp at skips
          | cons next rest =>
              simp only [List.head?_cons, Option.any_some, Bool.and_eq_true, beq_iff_eq] at skips
              exact ⟨skips.1.1, next, rfl, skips.1.2⟩
      | succ place => exact ih skips.2 found

/-! ## The code around a site -/

/-- The place to which a place moves when that many instructions are added behind another. -/
def shift (site added place : Nat) : Nat :=
  if place ≤ site then place else place + added

theorem shift_of_le {site added place : Nat} (le : place ≤ site) : shift site added place = place :=
  if_pos le

theorem shift_of_lt {site added place : Nat} (lt : site < place) :
    shift site added place = place + added :=
  if_neg (Nat.not_le_of_lt lt)

theorem shift_succ {site added place : Nat} (elsewhere : place ≠ site) :
    shift site added (place + 1) = shift site added place + 1 := by
  rcases Nat.lt_or_gt_of_ne elsewhere with before | behind
  · rw [shift_of_le before, shift_of_le (Nat.le_of_lt before)]
  · rw [shift_of_lt (Nat.lt_succ_of_lt behind), shift_of_lt behind, Nat.add_right_comm]

/-- The place of a site in the code. -/
def sitePlace (site : Site) : Nat :=
  (code site.before ++ site.preceding).length

theorem code_fill (site : Site) (instrs : List Instr) :
    code (site.fill instrs) =
      (code site.before ++ site.preceding) ++ (instrs ++ (site.following ++ code site.after)) := by
  simp [code, Site.fill]

/-- Behind a site, the code is what it is for any other instructions there. -/
theorem code_fill_getElem?_behind (site : Site) (instrs : List Instr) (between : Nat) :
    (code (site.fill instrs))[sitePlace site + instrs.length + between]? =
      (site.following ++ code site.after)[between]? := by
  rw [code_fill, ← List.append_assoc,
    List.getElem?_append_right (by rw [List.length_append, sitePlace]; omega), List.length_append,
    sitePlace, Nat.add_sub_cancel_left]

theorem code_fill_getElem?_shift (site : Site) (instr first : Instr) (rest : List Instr)
    {place : Nat} (elsewhere : place ≠ sitePlace site) :
    (code (site.fill (first :: rest)))[shift (sitePlace site) rest.length place]? =
      (code (site.fill [instr]))[place]? := by
  rcases Nat.lt_or_gt_of_ne elsewhere with before | behind
  · rw [shift_of_le (Nat.le_of_lt before), code_fill, code_fill,
      List.getElem?_append_left before, List.getElem?_append_left before]
  · rw [shift_of_lt behind]
    obtain ⟨between, rfl⟩ := Nat.exists_eq_add_of_lt behind
    have shortBehind := code_fill_getElem?_behind site [instr] between
    have longBehind := code_fill_getElem?_behind site (first :: rest) between
    rw [List.length_singleton, Nat.add_right_comm] at shortBehind
    rw [List.length_cons, ← Nat.add_assoc, Nat.add_right_comm, Nat.add_right_comm _ _ between,
      Nat.add_right_comm _ rest.length] at longBehind
    rw [shortBehind, ← longBehind]

theorem code_fill_getElem?_site (site : Site) (first : Instr) (rest : List Instr) :
    (code (site.fill (first :: rest)))[sitePlace site]? = some first := by
  rw [code_fill, sitePlace, List.getElem?_append_right (Nat.le_refl _), Nat.sub_self]
  rfl

theorem blockStart?_fill (site : Site) (instr first : Instr) (rest : List Instr) (id : BlockId) :
    blockStart? (site.fill (first :: rest)) id =
      (blockStart? (site.fill [instr]) id).map (shift (sitePlace site) rest.length) := by
  unfold blockStart?
  rw [Site.length_fill, Site.length_fill]
  split
  next known =>
    rcases Nat.lt_or_ge site.before.length id with behind | before
    · obtain ⟨between, rfl⟩ := Nat.exists_eq_add_of_lt behind
      have lengthEq (instrs : List Instr) :
          (code ((site.fill instrs).take (site.before.length + between + 1))).length =
            sitePlace site + instrs.length + site.following.length +
              (code (site.after.take between)).length := by
        have takeEq : (site.fill instrs).take (site.before.length + between + 1) =
            { site with after := site.after.take between }.fill instrs := by
          rw [Site.fill, Nat.add_assoc, List.take_length_add_append, List.take_succ_cons]
          rfl
        rw [takeEq, code_fill, sitePlace]
        simp only [List.length_append]
        omega
      rw [lengthEq, lengthEq, Option.map_some, shift_of_lt (by simp; omega)]
      simp
      omega
    · have takeEq (instrs : List Instr) : (site.fill instrs).take id = site.before.take id := by
        rw [Site.fill, List.take_append_of_le_length before]
      have startLe : (code (site.before.take id)).length ≤ sitePlace site := by
        rw [sitePlace, ← List.take_append_drop id site.before, code, code, List.flatMap_append]
        simp only [List.length_append, List.take_append_drop]
        omega
      rw [takeEq, takeEq, Option.map_some, shift_of_le startLe]
  next unknown => rfl

/-- A conditional branch over a long jump goes behind it. -/
theorem destination?_skip {blocks : List Block} {place : Nat} {instr next : Instr}
    {operands : List Operand} (conditional : instr.opcode = .jcc)
    (byDistance : instr.operands = .immediate skippedBytes :: operands)
    (found : (code blocks)[place + 1]? = some next) (longJump : next.opcode = .bi) :
    destination? blocks place instr = some (place + 2) := by
  obtain ⟨inBounds, rfl⟩ := List.getElem?_eq_some_iff.mp found
  rw [destination?, conditional, byDistance, List.drop_eq_getElem_cons inBounds]
  have sizeEq : skippedBytes.toInt - ((code blocks)[place + 1].size : Int) = 0 := by
    rw [Instr.size, longJump]
    rfl
  have notZero : skippedBytes.toInt ≠ 0 := by decide
  simp only [landing?, if_neg notZero, sizeEq, landing?_zero, Option.map_some]

theorem destination?_shift (site : Site) {instr : Instr} (first : Instr) (rest : List Instr)
    (relaxable : isRelaxable instr = true)
    (skips : skipsLongJumps (code (site.fill [instr])) = true) {place : Nat} {other : Instr}
    (elsewhere : place ≠ sitePlace site) (found : (code (site.fill [instr]))[place]? = some other) :
    destination? (site.fill (first :: rest)) (shift (sitePlace site) rest.length place) other =
      (destination? (site.fill [instr]) place other).map (shift (sitePlace site) rest.length) := by
  rcases destination?_cases other with
    ⟨target, targets⟩ | ⟨distance, operands, conditional, byDistance⟩ | nowhere
  · rw [destination?_of_block targets, destination?_of_block targets]
    exact blockStart?_fill site instr first rest target
  · obtain ⟨rfl, next, nextFound, longJump⟩ :=
      exists_longJump_of_skips skips found conditional byDistance
    have nextElsewhere : place + 1 ≠ sitePlace site := by
      intro atSite
      rw [atSite, code_fill_getElem?_site, Option.some.injEq] at nextFound
      subst nextFound
      exact opcode_ne_bi_of_isRelaxable relaxable longJump
    have movedFound := code_fill_getElem?_shift site instr first rest nextElsewhere
    rw [nextFound, shift_succ elsewhere] at movedFound
    rw [destination?_skip conditional byDistance nextFound longJump,
      destination?_skip conditional byDistance movedFound longJump, Option.map_some,
      shift_succ nextElsewhere, shift_succ elsewhere]
  · rw [nowhere, nowhere]
    rfl

/-- Outside the site, the expanded code does what the original does. -/
theorem relocates_elsewhere {State : Type} (interpretation : Interpretation State) (site : Site)
    {instr : Instr} (first : Instr) (rest : List Instr) (relaxable : isRelaxable instr = true)
    (skips : skipsLongJumps (code (site.fill [instr])) = true) {point : Point State}
    (elsewhere : point.place ≠ sitePlace site) :
    Relocates (step interpretation (site.fill [instr]))
      (step interpretation (site.fill (first :: rest))) (shift (sitePlace site) rest.length)
      point := by
  apply Relocates.direct
  have movedFound := code_fill_getElem?_shift site instr first rest elsewhere
  cases found : (code (site.fill [instr]))[point.place]? with
  | none =>
      rw [found] at movedFound
      rw [step, step, found]
      simp only [Point.relocate, movedFound, Move.relocate]
  | some other =>
      rw [found] at movedFound
      rw [step_of_getElem? found, step_of_getElem? (by exact movedFound)]
      have destinationEq := destination?_shift site first rest relaxable skips elsewhere found
      simp only [Point.relocate, destinationEq]
      exact execute_relocate interpretation _ other (shift_succ elsewhere)

/-! ## One expansion -/

def longJump (target : BlockId) : Instr :=
  { opcode := .bi, operands := [.block target] }

/-- The conditional branch over a long jump that stands for a branch on the given condition. -/
def skipUnless (condition : Condition) : Instr :=
  { opcode := .jcc,
    operands := [.immediate skippedBytes, .immediate condition.inverse.code] }

theorem condition?_skipUnless (condition : Condition) :
    condition? (skipUnless condition) = some condition.inverse :=
  Condition.ofCode?_code condition.inverse

theorem longForm?_cases {instr : Instr} {long : List Instr}
    (hasLong : instr.longForm? = some long) :
    ∃ target, instr.operands[0]? = some (.block target) ∧
      ((instr.opcode = .jmp ∧ long = [longJump target]) ∨
        ∃ condition, instr.opcode = .jcc ∧ condition? instr = some condition ∧
          long = [skipUnless condition, longJump target]) := by
  unfold Instr.longForm? at hasLong
  split at hasLong
  next target operands opcodeEq operandsEq =>
    cases hasLong
    exact ⟨target, by rw [operandsEq]; rfl, .inl ⟨opcodeEq, rfl⟩⟩
  next target code operands opcodeEq operandsEq =>
    obtain ⟨condition, conditionEq, rfl⟩ := Option.map_eq_some_iff.mp hasLong
    refine ⟨target, by rw [operandsEq]; rfl, .inr ⟨condition, opcodeEq, ?_, rfl⟩⟩
    rw [condition?, operandsEq]
    exact conditionEq
  next => contradiction

section Expansion

variable {State : Type} (interpretation : Interpretation State) (site : Site) {instr : Instr}
  {target : BlockId} {start : Nat}

theorem relocates_jump (jump : instr.opcode = .jmp)
    (targets : instr.operands[0]? = some (.block target))
    (known : blockStart? (site.fill [instr]) target = some start) (state : State) :
    Relocates (step interpretation (site.fill [instr]))
      (step interpretation (site.fill [longJump target])) (shift (sitePlace site) 0)
      ⟨sitePlace site, state⟩ := by
  have movedStart := blockStart?_fill site instr (longJump target) [] target
  rw [known] at movedStart
  apply Relocates.direct
  rw [Point.relocate, shift_of_le (Nat.le_refl _),
    step_jump (code_fill_getElem?_site site instr []) (.inl jump)
      ((destination?_of_block targets).trans known),
    step_jump (code_fill_getElem?_site site (longJump target) []) (.inr rfl)
      ((destination?_of_block rfl).trans movedStart)]
  rfl

theorem relocates_conditional {condition : Condition} (conditional : instr.opcode = .jcc)
    (onCondition : condition? instr = some condition)
    (targets : instr.operands[0]? = some (.block target))
    (known : blockStart? (site.fill [instr]) target = some start) (state : State) :
    Relocates (step interpretation (site.fill [instr]))
      (step interpretation (site.fill [skipUnless condition, longJump target]))
      (shift (sitePlace site) 1) ⟨sitePlace site, state⟩ := by
  have movedStart := blockStart?_fill site instr (skipUnless condition) [longJump target] target
  rw [known] at movedStart
  let blocks := site.fill [skipUnless condition, longJump target]
  have jumpFound : (code blocks)[sitePlace site + 1]? = some (longJump target) := by
    rw [code_fill, sitePlace, List.getElem?_append_right (Nat.le_add_right _ 1),
      Nat.add_sub_cancel_left]
    rfl
  have branchStep : step interpretation (site.fill [instr]) ⟨sitePlace site, state⟩ =
      if interpretation.holds condition state then .goes [] ⟨start, state⟩
      else .goes [] ⟨sitePlace site + 1, state⟩ :=
    step_conditional (code_fill_getElem?_site site instr []) conditional onCondition
      ((destination?_of_block targets).trans known)
  have skipStep : step interpretation blocks ⟨sitePlace site, state⟩ =
      if interpretation.holds condition.inverse state then .goes [] ⟨sitePlace site + 2, state⟩
      else .goes [] ⟨sitePlace site + 1, state⟩ :=
    step_conditional (code_fill_getElem?_site site (skipUnless condition) [longJump target]) rfl
      (condition?_skipUnless condition) (destination?_skip rfl rfl jumpFound rfl)
  have jumpStep : step interpretation blocks ⟨sitePlace site + 1, state⟩ =
      .goes [] ⟨shift (sitePlace site) 1 start, state⟩ :=
    step_jump jumpFound (.inr rfl) ((destination?_of_block rfl).trans movedStart)
  have stays : Point.relocate (shift (sitePlace site) 1) ⟨sitePlace site, state⟩ =
      ⟨sitePlace site, state⟩ := by
    rw [Point.relocate, shift_of_le (Nat.le_refl _)]
  rw [interpretation.holds_inverse] at skipStep
  cases holds : interpretation.holds condition state with
  | true =>
      rw [holds, if_pos rfl] at branchStep
      rw [holds, Bool.not_true, if_neg Bool.false_ne_true] at skipStep
      exact .detour branchStep (by rw [stays]; exact skipStep) jumpStep rfl
  | false =>
      rw [holds, if_neg Bool.false_ne_true] at branchStep
      rw [holds, Bool.not_false, if_pos rfl] at skipStep
      apply Relocates.direct
      rw [stays, skipStep, branchStep, Move.relocate, Point.relocate,
        shift_of_lt (Nat.lt_succ_self _)]

theorem sameBehaviour_fill {first : Instr} {rest : List Instr}
    (relaxable : isRelaxable instr = true)
    (skips : skipsLongJumps (code (site.fill [instr])) = true)
    (atSite : ∀ state, Relocates (step interpretation (site.fill [instr]))
      (step interpretation (site.fill (first :: rest))) (shift (sitePlace site) rest.length)
      ⟨sitePlace site, state⟩) :
    SameBehaviour interpretation (site.fill [instr]) (site.fill (first :: rest)) := by
  apply SameBehaviour.of_relocates (shift_of_le (Nat.zero_le (sitePlace site)))
  intro ⟨place, state⟩
  by_cases here : place = sitePlace site
  · rw [here]
    exact atSite state
  · exact relocates_elsewhere interpretation site first rest relaxable skips here

end Expansion

/-- An expansion keeps the behaviour, and skips one more long jump at most. -/
theorem Expands.sameBehaviour {State : Type} (interpretation : Interpretation State)
    {start finish : List Block} (expands : Expands start finish)
    (skips : skipsLongJumps (code start) = true) :
    SameBehaviour interpretation start finish ∧ skipsLongJumps (code finish) = true := by
  cases expands with
  | @expand site instr target long relaxable known outOfReach expanded =>
      obtain ⟨targets, inBounds⟩ := branchTarget_eq_ok_iff.mp known
      obtain ⟨place, placeEq⟩ := exists_blockStart? inBounds
      have hasLong := longForm?_eq_some relaxable targets expanded
      obtain ⟨target, targetsBlock, forms⟩ := longForm?_cases hasLong
      cases targets.symm.trans targetsBlock
      have codeEq := skips
      rw [code_fill, List.singleton_append] at codeEq
      obtain ⟨precedingSkips, followingSkips⟩ :=
        skipsLongJumps_split codeEq (opcode_ne_bi_of_isRelaxable relaxable)
      have longSkips : skipsLongJumps long = true := by
        rcases forms with ⟨jump, rfl⟩ | ⟨condition, conditional, onCondition, rfl⟩
        · rfl
        · rfl
      constructor
      · rcases forms with ⟨jump, rfl⟩ | ⟨condition, conditional, onCondition, rfl⟩
        · exact sameBehaviour_fill interpretation site relaxable skips
            (relocates_jump interpretation site jump targets placeEq)
        · exact sameBehaviour_fill interpretation site relaxable skips
            (relocates_conditional interpretation site conditional onCondition targets placeEq)
      · rw [code_fill]
        exact skipsLongJumps_append precedingSkips (skipsLongJumps_append longSkips followingSkips)

theorem Expansions.sameBehaviour {State : Type} (interpretation : Interpretation State)
    {count : Nat} {start finish : List Block} (run : Expansions count start finish)
    (skips : skipsLongJumps (code start) = true) : SameBehaviour interpretation start finish := by
  induction run with
  | refl blocks => exact .refl interpretation blocks
  | head first rest ih =>
      obtain ⟨sameFirst, middleSkips⟩ := first.sameBehaviour interpretation skips
      exact sameFirst.trans (ih middleSkips)

end Relaxation

open Relaxation

/-- Relaxation preserves the behaviour of a function in which conditional branches by a number of
bytes only skip long jumps. -/
theorem relaxBranches_sameBehaviour {function result : Function} {stats : Stats}
    (ran : relaxBranches.run function = .ok stats result)
    (skips : ∀ block ∈ function.blocks, skipsLongJumps block.instrs = true) {State : Type}
    (interpretation : Flow.Interpretation State) :
    Flow.SameBehaviour interpretation function.blocks result.blocks := by
  obtain ⟨run, -, -⟩ := relaxBranches_run_ok ran
  exact run.sameBehaviour interpretation (skipsLongJumps_code skips)

/-- The code with the jump in its short form and the branch in its long form. -/
def mixedCascade : Function :=
  cascade [{ opcode := .jmp, operands := [.block 3] }]
    [skipUnless .lower, longJump 4]

/-- Conditions compare two words, and every instruction counts the first one down. -/
def countdown : Flow.Interpretation (BitVec 16 × BitVec 16) where
  act _ words := (words.1 - 1, words.2)
  holds
    | .equal, words => words.1 == words.2
    | .notEqual, words => words.1 != words.2
    | .higherOrSame, words => words.2.ule words.1
    | .lower, words => !words.2.ule words.1
    | .greaterOrEqual, words => words.2.sle words.1
    | .less, words => !words.2.sle words.1
  holds_inverse condition words := by
    cases condition <;> simp [Condition.inverse, bne]

theorem relaxBranches_sameBehaviour_cascade :
    relaxBranches.run mixedCascade = .ok { expanded := 1, iterations := 2 } longCascade ∧
      (∀ block ∈ mixedCascade.blocks, skipsLongJumps block.instrs = true) ∧
      Flow.SameBehaviour countdown mixedCascade.blocks longCascade.blocks := by
  have ran :
      relaxBranches.run mixedCascade = .ok { expanded := 1, iterations := 2 } longCascade := by
    decide +kernel
  have skips : ∀ block ∈ mixedCascade.blocks, skipsLongJumps block.instrs = true := by
    decide +kernel
  exact ⟨ran, skips, relaxBranches_sameBehaviour ran skips countdown⟩

end MachineCode
