import MachineCode.Proofs.Relaxation.Expansion
import Mathlib.Data.Finset.Insert
import Mathlib.Data.List.Forall2

/-!
# Expanding a chosen set of branches

`Choice.expandBlocks` expands the short branches at a chosen set of positions and leaves all
other instructions alone. It does not depend on an order. A short branch that is found in the
expanded code was there before, at a position that was not chosen, and expanding it too amounts
to choosing its position. A larger choice never brings a branch closer to its target.
-/

namespace MachineCode

/-- The long form of a short branch to a block. -/
def Instr.longForm? (instr : Instr) : Option (List Instr) :=
  match instr.opcode, instr.operands with
  | .jmp, .block target :: _ => some [{ opcode := .bi, operands := [.block target] }]
  | .jcc, .block target :: .immediate code :: _ =>
      (Condition.ofCode? code).map fun condition =>
        [{ opcode := .jcc, operands := [.immediate 4, .immediate condition.inverse.code] },
          { opcode := .bi, operands := [.block target] }]
  | _, _ => none

namespace Choice

/-- What stands in the place of an instruction when the chosen positions are expanded. -/
def expandInstr (chosen : Finset Position) (position : Position) (instr : Instr) : List Instr :=
  if position ∈ chosen then instr.longForm?.getD [instr] else [instr]

/-- The instructions of a block from an index on, with the chosen ones expanded. -/
def expandInstrs (chosen : Finset Position) (id : BlockId) : Nat → List Instr → List Instr
  | _, [] => []
  | index, instr :: rest =>
      expandInstr chosen ⟨id, index⟩ instr ++ expandInstrs chosen id (index + 1) rest

def expandBlock (chosen : Finset Position) (id : BlockId) (block : Block) : Block :=
  { block with instrs := expandInstrs chosen id 0 block.instrs }

/-- The code with the chosen instructions expanded. -/
def expandBlocks (chosen : Finset Position) (blocks : List Block) : List Block :=
  blocks.mapIdx (expandBlock chosen)

/-- The position to which the instruction at a position moves. -/
def moved (chosen : Finset Position) (blocks : List Block) (position : Position) : Position :=
  ⟨position.block, (expandInstrs chosen position.block 0
    ((Layout.instrsOf blocks position.block).take position.index)).length⟩

theorem expandInstrs_append (chosen : Finset Position) (id : BlockId) (index : Nat)
    (left right : List Instr) :
    expandInstrs chosen id index (left ++ right) =
      expandInstrs chosen id index left ++
        expandInstrs chosen id (index + left.length) right := by
  induction left generalizing index with
  | nil => rfl
  | cons instr rest ih =>
      rw [List.cons_append, expandInstrs, expandInstrs, ih, List.append_assoc, List.length_cons,
        Nat.add_assoc, Nat.add_comm 1]

theorem expandInstr_of_notMem {chosen : Finset Position} {position : Position}
    (notChosen : position ∉ chosen) (instr : Instr) :
    expandInstr chosen position instr = [instr] :=
  if_neg notChosen

theorem expandInstr_insert_self (chosen : Finset Position) (position : Position) {instr : Instr}
    {long : List Instr} (hasLong : instr.longForm? = some long) :
    expandInstr (insert position chosen) position instr = long := by
  simp [expandInstr, hasLong]

theorem expandInstrs_empty (id : BlockId) (index : Nat) (instrs : List Instr) :
    expandInstrs ∅ id index instrs = instrs := by
  induction instrs generalizing index with
  | nil => rfl
  | cons instr rest ih =>
      rw [expandInstrs, expandInstr_of_notMem (Finset.notMem_empty _), ih, List.singleton_append]

theorem expandBlocks_empty (blocks : List Block) : expandBlocks ∅ blocks = blocks := by
  apply List.mapIdx_eq_iff.mpr
  intro id
  cases blocks[id]? with
  | none => rfl
  | some block => simp [expandBlock, expandInstrs_empty]

/-- Expanding a stretch of a block depends on the chosen positions in that stretch only. -/
theorem expandInstrs_congr {chosen other : Finset Position} {id : BlockId} {index : Nat}
    {instrs : List Instr}
    (agree : ∀ place, index ≤ place → place < index + instrs.length →
      ((⟨id, place⟩ : Position) ∈ chosen ↔ (⟨id, place⟩ : Position) ∈ other)) :
    expandInstrs chosen id index instrs = expandInstrs other id index instrs := by
  induction instrs generalizing index with
  | nil => rfl
  | cons instr rest ih =>
      rw [List.length_cons] at agree
      have head := agree index (Nat.le_refl _) (by omega)
      rw [expandInstrs, expandInstrs, ih fun place lower upper =>
        agree place (by omega) (by omega)]
      simp only [expandInstr, head]

/-- Choosing one more position does not change a stretch in which it does not lie. -/
theorem expandInstrs_insert {chosen : Finset Position} {position : Position} {id : BlockId}
    {index : Nat} {instrs : List Instr}
    (outside : position.block = id →
      position.index < index ∨ index + instrs.length ≤ position.index) :
    expandInstrs (insert position chosen) id index instrs =
      expandInstrs chosen id index instrs := by
  apply expandInstrs_congr
  intro place lower upper
  rw [Finset.mem_insert, or_iff_right]
  rintro rfl
  rcases outside rfl with before | behind
  · exact Nat.not_lt_of_le lower before
  · exact Nat.not_lt_of_le behind upper

theorem expandBlock_insert_of_ne {chosen : Finset Position} {position : Position} {id : BlockId}
    (different : id ≠ position.block) (block : Block) :
    expandBlock (insert position chosen) id block = expandBlock chosen id block := by
  rw [expandBlock, expandBlock, expandInstrs_insert fun same => absurd same.symm different]

/-! ## Expanding around a site -/

/-- A site of the code as a site of the expanded code. -/
def expandSite (chosen : Finset Position) (site : Site) : Site where
  before := expandBlocks chosen site.before
  block := site.block
  preceding := expandInstrs chosen site.before.length 0 site.preceding
  following := expandInstrs chosen site.before.length (site.preceding.length + 1) site.following
  after := site.after.mapIdx fun offset => expandBlock chosen (offset + 1 + site.before.length)

theorem expandBlocks_fill (chosen : Finset Position) (site : Site) (instr : Instr) :
    expandBlocks chosen (site.fill [instr]) =
      (expandSite chosen site).fill (expandInstr chosen site.position instr) := by
  simp [expandBlocks, Site.fill, expandSite, List.mapIdx_append, List.mapIdx_cons, expandBlock,
    expandInstrs_append, expandInstrs, Site.position]

theorem moved_fill (chosen : Finset Position) (site : Site) (instr : Instr) :
    moved chosen (site.fill [instr]) site.position = (expandSite chosen site).position := by
  simp [moved, Site.position, expandSite, expandBlocks]

/-- Choosing a site does not change what is around it. -/
theorem expandSite_insert (chosen : Finset Position) (site : Site) :
    expandSite (insert site.position chosen) site = expandSite chosen site := by
  have preceding : expandInstrs (insert site.position chosen) site.before.length 0
      site.preceding = expandInstrs chosen site.before.length 0 site.preceding :=
    expandInstrs_insert fun _ => .inr (Nat.le_of_eq (Nat.zero_add _))
  have following : expandInstrs (insert site.position chosen) site.before.length
      (site.preceding.length + 1) site.following =
        expandInstrs chosen site.before.length (site.preceding.length + 1) site.following :=
    expandInstrs_insert fun _ => .inl (Nat.lt_succ_self _)
  have before : expandBlocks (insert site.position chosen) site.before =
      expandBlocks chosen site.before := by
    apply List.mapIdx_eq_mapIdx_iff.mpr
    intro id inBounds
    exact expandBlock_insert_of_ne (Nat.ne_of_lt inBounds) _
  have after : (fun offset =>
        expandBlock (insert site.position chosen) (offset + 1 + site.before.length)) =
      fun offset => expandBlock chosen (offset + 1 + site.before.length) := by
    funext offset block
    apply expandBlock_insert_of_ne
    exact Nat.ne_of_gt (Nat.lt_add_of_pos_left (Nat.succ_pos offset))
  simp only [expandSite, preceding, following, before, after]

/-! ## Finding a short branch in the expanded code -/

theorem isRelaxable_of_mem_longForm? {instr other : Instr} {long : List Instr}
    (hasLong : instr.longForm? = some long) (member : other ∈ long) :
    Relaxation.isRelaxable other = false := by
  unfold Instr.longForm? at hasLong
  split at hasLong
  · cases hasLong
    rw [List.mem_singleton] at member
    subst member
    rfl
  · obtain ⟨condition, -, rfl⟩ := Option.map_eq_some_iff.mp hasLong
    simp only [List.mem_cons, List.not_mem_nil, or_false] at member
    rcases member with rfl | rfl
    · rfl
    · rfl
  · contradiction

/-- Every chosen instruction has a long form. -/
def HasLongForms (chosen : Finset Position) (blocks : List Block) : Prop :=
  ∀ position ∈ chosen, ∀ instr, Layout.instr? blocks position = some instr →
    instr.longForm?.isSome

/-- An item that is not in the first part of a list is in the second. -/
theorem exists_between_of_notMem {item : Type} {left right before after : List item}
    {value : item} (split : left ++ right = before ++ value :: after) (notMem : value ∉ left) :
    ∃ between, before = left ++ between ∧ right = between ++ value :: after := by
  rcases List.append_eq_append_iff.mp split with ⟨between, beforeEq, rightEq⟩ |
    ⟨between, leftEq, afterEq⟩
  · exact ⟨between, beforeEq, rightEq⟩
  · cases between with
    | nil => exact ⟨[], by simp [leftEq], by simpa using afterEq.symm⟩
    | cons head rest =>
        obtain ⟨rfl, -⟩ := List.cons.inj afterEq
        exact absurd (by simp [leftEq]) notMem

/-- A short branch among expanded instructions was there before and was not chosen. -/
theorem exists_split_of_expandInstrs {chosen : Finset Position} {id : BlockId} {index : Nat}
    {instrs before after : List Instr} {instr : Instr}
    (hasLong : ∀ offset other, instrs[offset]? = some other →
      (⟨id, index + offset⟩ : Position) ∈ chosen → other.longForm?.isSome)
    (relaxable : Relaxation.isRelaxable instr = true)
    (split : expandInstrs chosen id index instrs = before ++ instr :: after) :
    ∃ preceding following, instrs = preceding ++ instr :: following ∧
      (⟨id, index + preceding.length⟩ : Position) ∉ chosen ∧
      expandInstrs chosen id index preceding = before ∧
      expandInstrs chosen id (index + preceding.length + 1) following = after := by
  induction instrs generalizing index before with
  | nil => simp [expandInstrs] at split
  | cons head rest ih =>
      rw [expandInstrs] at split
      have cases : (before = [] ∧ head = instr ∧ (⟨id, index⟩ : Position) ∉ chosen ∧
            expandInstrs chosen id (index + 1) rest = after) ∨
          ∃ between, before = expandInstr chosen ⟨id, index⟩ head ++ between ∧
            expandInstrs chosen id (index + 1) rest = between ++ instr :: after := by
        by_cases member : (⟨id, index⟩ : Position) ∈ chosen
        · obtain ⟨long, headLong⟩ := Option.isSome_iff_exists.mp (hasLong 0 head rfl member)
          have notMem : instr ∉ expandInstr chosen ⟨id, index⟩ head := by
            intro isHead
            rw [expandInstr, if_pos member, headLong, Option.getD_some] at isHead
            rw [isRelaxable_of_mem_longForm? headLong isHead] at relaxable
            contradiction
          exact .inr (exists_between_of_notMem split notMem)
        · rw [expandInstr_of_notMem member] at split ⊢
          cases before with
          | nil =>
              obtain ⟨headEq, restEq⟩ := List.cons.inj split
              exact .inl ⟨rfl, headEq, member, restEq⟩
          | cons first between =>
              obtain ⟨rfl, restEq⟩ := List.cons.inj split
              exact .inr ⟨between, rfl, restEq⟩
      rcases cases with ⟨rfl, rfl, notChosen, restEq⟩ | ⟨between, beforeEq, restEq⟩
      · exact ⟨[], rest, rfl, notChosen, rfl, restEq⟩
      · obtain ⟨preceding, following, rfl, notChosen, precedingEq, followingEq⟩ :=
          ih (fun offset other found member => hasLong (offset + 1) other found
            (by rwa [← Nat.add_assoc, Nat.add_right_comm])) restEq
        refine ⟨head :: preceding, following, rfl, ?_, ?_, ?_⟩
        · rwa [List.length_cons, ← Nat.add_assoc, Nat.add_right_comm]
        · rw [expandInstrs, precedingEq, beforeEq]
        · rwa [List.length_cons, ← Nat.add_assoc, Nat.add_right_comm index]

/-- A short branch at a site of the expanded code stands at a site of the code itself. -/
theorem exists_expandSite {chosen : Finset Position} {blocks : List Block} {site : Site}
    {instr : Instr} (hasLong : HasLongForms chosen blocks)
    (relaxable : Relaxation.isRelaxable instr = true)
    (expanded : expandBlocks chosen blocks = site.fill [instr]) :
    ∃ original : Site, blocks = original.fill [instr] ∧ original.position ∉ chosen ∧
      expandSite chosen original = site := by
  obtain ⟨before, rest, rfl, beforeEq, restEq⟩ := List.mapIdx_eq_append_iff.mp expanded
  obtain ⟨block, after, rfl, blockEq, afterEq⟩ := List.mapIdx_eq_cons_iff.mp restEq
  have instrsEq := congrArg Block.instrs blockEq
  simp only [expandBlock, Nat.zero_add, List.append_assoc, List.singleton_append] at instrsEq
  have found : Layout.instrsOf (before ++ block :: after) before.length = block.instrs :=
    Layout.instrsOf_of_getElem? (by simp)
  obtain ⟨preceding, following, split, notChosen, precedingEq, followingEq⟩ :=
    exists_split_of_expandInstrs
      (fun offset other otherFound member => hasLong _ member other (by
        rw [Layout.instr?, found, Nat.zero_add]
        exact otherFound))
      relaxable instrsEq
  refine ⟨⟨before, site.block, preceding, following, after⟩, ?_, ?_, ?_⟩
  · have nameEq := congrArg Block.name blockEq
    have liveInsEq := congrArg Block.liveIns blockEq
    cases block
    simp_all [Site.fill, expandBlock]
  · simpa [Site.position] using notChosen
  · rw [Nat.zero_add] at followingEq
    simp only [expandSite, expandBlocks, beforeEq, precedingEq, followingEq, afterEq]

/-! ## Larger choices -/

theorem size_le_layoutSize_expandInstr (chosen : Finset Position) (position : Position)
    (instr : Instr) : instr.size ≤ Instr.layoutSize (expandInstr chosen position instr) := by
  unfold expandInstr
  split
  · unfold Instr.longForm?
    split
    next opcodeEq _ => simp [Instr.size, opcodeEq, Opcode.size]
    next code _ opcodeEq _ =>
      cases Condition.ofCode? code with
      | none => simp
      | some condition => simp [Instr.size, opcodeEq, Opcode.size]
    next => simp
  · simp

theorem layoutSize_expandInstr_mono {chosen larger : Finset Position} (subset : chosen ⊆ larger)
    (position : Position) (instr : Instr) :
    Instr.layoutSize (expandInstr chosen position instr) ≤
      Instr.layoutSize (expandInstr larger position instr) := by
  by_cases member : position ∈ chosen
  · rw [expandInstr, expandInstr, if_pos member, if_pos (subset member)]
  · rw [expandInstr_of_notMem member]
    simpa using size_le_layoutSize_expandInstr larger position instr

theorem layoutSize_expandInstrs_mono {chosen larger : Finset Position} (subset : chosen ⊆ larger)
    (id : BlockId) (index : Nat) (instrs : List Instr) :
    Instr.layoutSize (expandInstrs chosen id index instrs) ≤
      Instr.layoutSize (expandInstrs larger id index instrs) := by
  induction instrs generalizing index with
  | nil => exact Nat.le_refl _
  | cons instr rest ih =>
      rw [expandInstrs, expandInstrs, Instr.layoutSize_append, Instr.layoutSize_append]
      exact Nat.add_le_add (layoutSize_expandInstr_mono subset _ instr) (ih (index + 1))

theorem totalSize_le_of_forall₂ {sizes larger : List Nat}
    (le : List.Forall₂ (· ≤ ·) sizes larger) : totalSize sizes ≤ totalSize larger := by
  induction le with
  | nil => exact Nat.le_refl _
  | cons head _ ih => exact Nat.add_le_add head ih

theorem forall₂_size_mapIdx {chosen larger : Finset Position} (subset : chosen ⊆ larger)
    (id : Nat → BlockId) (blocks : List Block) :
    List.Forall₂ (· ≤ ·)
      ((blocks.mapIdx fun offset => expandBlock chosen (id offset)).map Block.size)
      ((blocks.mapIdx fun offset => expandBlock larger (id offset)).map Block.size) := by
  apply List.forall₂_of_length_eq_of_get
  · simp
  · intro offset _ _
    simpa [Block.size, expandBlock] using layoutSize_expandInstrs_mono subset _ _ _

/-- A larger choice does not bring a short branch closer to its target. -/
theorem distance_expandSite_mono {chosen larger : Finset Position} (subset : chosen ⊆ larger)
    (site : Site) (instr : Instr) (target : BlockId) :
    Layout.distance ((expandSite chosen site).fill [instr]) (expandSite chosen site).position
        target ≤
      Layout.distance ((expandSite larger site).fill [instr]) (expandSite larger site).position
        target := by
  have lengthEq : ∀ choice, (expandSite choice site).before.length = site.before.length := by
    intro choice
    simp [expandSite, expandBlocks]
  rw [Site.distance_fill, Site.distance_fill, lengthEq, lengthEq]
  split
  next backward =>
    apply Nat.add_le_add
    · apply totalSize_le_of_forall₂
      rw [List.map_drop, List.map_drop]
      exact List.forall₂_drop target (forall₂_size_mapIdx subset (fun id => id) site.before)
    · exact layoutSize_expandInstrs_mono subset _ _ _
  next forward =>
    apply Nat.add_le_add
    · exact Nat.add_le_add_left (layoutSize_expandInstrs_mono subset _ _ _) _
    · apply totalSize_le_of_forall₂
      rw [List.map_take, List.map_take]
      exact List.forall₂_take _ (forall₂_size_mapIdx subset _ site.after)

end Choice

end MachineCode
