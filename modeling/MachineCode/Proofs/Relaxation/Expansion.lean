import MachineCode.Proofs.Relaxation.Address

/-!
# Relaxation as a run of expansions

`Expands` replaces one short branch that is out of reach by its long form. It says nothing about
the order in which branches are visited. `Expansions` is a run of such steps with their number.

The main statement is `relaxBranches_run_ok`: what relaxation does to the code is such a run,
the run is counted by the statistics, and at its end either the code is small or every short
branch is in reach. The invariant behind it is that the scan's table holds the sizes of the
blocks as they stand and its offset the size of the instructions that it has passed.
-/

namespace MachineCode

namespace Relaxation

/-- Replace a short branch that is out of reach by its long form. -/
inductive Expands : List Block → List Block → Prop
  | expand (site : Site) {instr : Instr} {target : BlockId} {long : List Instr}
      (relaxable : isRelaxable instr = true)
      (known : branchTarget (site.fill [instr]).length instr = .ok target)
      (outOfReach : 511 < Layout.distance (site.fill [instr]) site.position target)
      (expanded : longForm instr target = .ok long) :
      Expands (site.fill [instr]) (site.fill long)

/-- A run of expansions, with their number. -/
inductive Expansions : Nat → List Block → List Block → Prop
  | refl (blocks : List Block) : Expansions 0 blocks blocks
  | head {count : Nat} {start middle finish : List Block} (first : Expands start middle)
      (rest : Expansions count middle finish) : Expansions (count + 1) start finish

/-- Any short branch at a position has a target, which is in reach. -/
def InReachAt (blocks : List Block) (position : Position) : Prop :=
  ∀ instr, Layout.instr? blocks position = some instr → isRelaxable instr = true →
    ∃ target, branchTarget blocks.length instr = .ok target ∧
      Layout.distance blocks position target ≤ 511

/-- Every short branch has a target, which is in reach. -/
def AllInReach (blocks : List Block) : Prop :=
  ∀ position, InReachAt blocks position

theorem Expansions.trans {leftCount rightCount : Nat} {start middle finish : List Block}
    (left : Expansions leftCount start middle) (right : Expansions rightCount middle finish) :
    Expansions (leftCount + rightCount) start finish := by
  induction left with
  | refl blocks => rwa [Nat.zero_add]
  | head first rest ih =>
      rw [Nat.add_right_comm]
      exact .head first (ih right)

/-- A displacement of that many bytes fits exactly if it is at most 511. -/
theorem fitsShort_natCast (distance : Nat) :
    fitsShort (distance : Int) = decide (distance ≤ 511) := by
  rw [fitsShort, Bool.eq_iff_iff]
  simp only [Bool.and_eq_true, decide_eq_true_eq]
  omega

/-! ## One instruction -/

/-- What a scan decides for an instruction: to leave it, because it is no short branch or is in
reach, or to expand it. -/
theorem expansion?_eq_ok {sizes : List Nat} {current : BlockId} {offset : Nat} {instr : Instr}
    {decision : Option (List Instr)}
    (decided : expansion? sizes current offset instr = .ok decision) :
    (isRelaxable instr = false ∧ decision = none) ∨
      ∃ target, isRelaxable instr = true ∧ branchTarget sizes.length instr = .ok target ∧
        ((fitsShort (displacement sizes current offset target) = true ∧ decision = none) ∨
          ∃ long, fitsShort (displacement sizes current offset target) = false ∧
            longForm instr target = .ok long ∧ decision = some long) := by
  unfold expansion? at decided
  cases relaxable : isRelaxable instr with
  | false =>
      left
      simp only [relaxable, Bool.false_eq_true, if_false] at decided
      cases decided
      exact ⟨rfl, rfl⟩
  | true =>
      right
      simp only [relaxable, if_true] at decided
      cases known : branchTarget sizes.length instr with
      | error reason => simp [known, bind, Except.bind] at decided
      | ok target =>
          refine ⟨target, rfl, rfl, ?_⟩
          simp only [known, bind, Except.bind] at decided
          cases fits : fitsShort (displacement sizes current offset target) with
          | true =>
              left
              simp only [fits, if_true] at decided
              cases decided
              exact ⟨rfl, rfl⟩
          | false =>
              right
              simp only [fits, Bool.false_eq_true, if_false] at decided
              cases expanded : longForm instr target with
              | error reason => simp [expanded, Functor.map, Except.map] at decided
              | ok long =>
                  simp only [expanded, Functor.map, Except.map, Except.ok.injEq] at decided
                  exact ⟨long, rfl, rfl, decided.symm⟩

theorem opcode_of_isRelaxable {instr : Instr} (relaxable : isRelaxable instr = true) :
    instr.opcode = .jcc ∨ instr.opcode = .jmp := by
  unfold isRelaxable at relaxable
  split at relaxable
  · contradiction
  · next opcodeEq _ => exact .inl opcodeEq
  · next opcodeEq => exact .inr opcodeEq
  · contradiction

theorem size_of_isRelaxable {instr : Instr} (relaxable : isRelaxable instr = true) :
    instr.size = shortSize := by
  rcases opcode_of_isRelaxable relaxable with conditional | jump
  · rw [Instr.size, conditional, Opcode.size, shortSize]
  · rw [Instr.size, jump, Opcode.size, shortSize]

/-- What a scan adds to its offset for an instruction that stays is the size of the instruction. -/
theorem passedSize_eq (instr : Instr) :
    (if isRelaxable instr then shortSize else instr.size) = instr.size := by
  split
  next relaxable => exact (size_of_isRelaxable relaxable).symm
  next => rfl

/-- The long form of a branch has the size that is known from its kind. -/
theorem layoutSize_longForm {instr : Instr} {target : BlockId} {long : List Instr}
    (expanded : longForm instr target = .ok long) :
    Instr.layoutSize long = longSize instr.opcode := by
  unfold longForm at expanded
  unfold longSize
  split at expanded
  next jump =>
    cases expanded
    rw [if_pos jump]
    rfl
  next notJump =>
    rw [if_neg notJump]
    cases found : instr.operand 1 with
    | error reason => simp [found, bind, Except.bind] at expanded
    | ok operand =>
        simp only [found, bind, Except.bind] at expanded
        split at expanded
        · cases expanded
          rfl
        · contradiction

theorem size_le_layoutSize_longForm {instr : Instr} {target : BlockId} {long : List Instr}
    (relaxable : isRelaxable instr = true) (expanded : longForm instr target = .ok long) :
    instr.size ≤ Instr.layoutSize long := by
  rw [size_of_isRelaxable relaxable, layoutSize_longForm expanded, shortSize, longSize]
  split <;> omega

/-! ## Scanning -/

/-- How far a scan of the code has come. The table holds the sizes that the blocks have now, the
expansions so far are counted, and as long as there are none, the short branches before the
place that the scan has reached are in reach. -/
structure Progress (start : List Block) (scan : Scan) (blocks : List Block) (reached : Position) :
    Prop where
  sizes : scan.sizes = blocks.map Block.size
  run : Expansions scan.expanded start blocks
  quiet : scan.expanded = 0 → ∀ position, position.Before reached → InReachAt blocks position

/-- A table of sizes that is changed at a site agrees with the code that is changed there. -/
theorem modify_map_size_fill (site : Site) {instr : Instr} {long : List Instr}
    (grows : instr.size ≤ Instr.layoutSize long) :
    ((site.fill [instr]).map Block.size).modify site.before.length
        (fun size => size + (Instr.layoutSize long - instr.size)) =
      (site.fill long).map Block.size := by
  simp only [Site.fill, List.map_append, List.map_cons, Block.size, Instr.layoutSize_append,
    Instr.layoutSize_cons, Instr.layoutSize_nil]
  rw [← List.length_map Block.size, List.modify_eq_take_drop, List.take_left, List.drop_left,
    List.modifyHead_cons]
  congr 2
  omega

/-- Passing an instruction that stays. -/
theorem Progress.pass {start blocks : List Block} {scan : Scan} {position : Position}
    (progress : Progress start scan blocks position) (inReach : InReachAt blocks position) :
    Progress start scan blocks ⟨position.block, position.index + 1⟩ where
  sizes := progress.sizes
  run := progress.run
  quiet := by
    intro none other before
    by_cases same : other = position
    · exact same ▸ inReach
    · apply progress.quiet none other
      rcases before with earlierBlock | ⟨sameBlock, earlier⟩
      · exact .inl earlierBlock
      · have different : other.index ≠ position.index := by
          intro sameIndex
          apply same
          cases other
          cases position
          simp_all
        exact .inr ⟨sameBlock, Nat.lt_of_le_of_ne (Nat.le_of_lt_succ earlier) different⟩

/-- Expanding an instruction that is out of reach. -/
theorem Progress.expand {start : List Block} {scan : Scan} {site : Site} {instr : Instr}
    {position : Position} {target : BlockId} {long : List Instr}
    (progress : Progress start scan (site.fill [instr]) position)
    (relaxable : isRelaxable instr = true)
    (known : branchTarget (site.fill [instr]).length instr = .ok target)
    (outOfReach : 511 < Layout.distance (site.fill [instr]) site.position target)
    (expanded : longForm instr target = .ok long) (reached : Position) :
    Progress start
      { sizes := scan.sizes.modify site.before.length fun size =>
          size + (Instr.layoutSize long - instr.size)
        expanded := scan.expanded + 1 }
      (site.fill long) reached where
  sizes := by
    rw [progress.sizes]
    exact modify_map_size_fill site (size_le_layoutSize_longForm relaxable expanded)
  run := progress.run.trans (.head (.expand site relaxable known outOfReach expanded) (.refl _))
  quiet := by
    intro none
    contradiction

/-- The code and the scan after one instruction. -/
theorem scanInstr_progress {start : List Block} {site : Site} {instr : Instr}
    {cursor next : Cursor}
    (progress : Progress start cursor.scan (site.fill [instr]) site.position)
    (offsetEq : cursor.offset = Instr.layoutSize site.preceding)
    (outcome : (scanInstr site.before.length cursor instr).outcome = .ok next) :
    let items := (scanInstr site.before.length cursor instr).items
    Progress start next.scan (site.fill items)
        ⟨site.before.length, (site.preceding ++ items).length⟩ ∧
      next.offset = Instr.layoutSize (site.preceding ++ items) := by
  have inBounds : site.position.block < (site.fill [instr]).length := by simp [Site.position]
  have displacementEq : ∀ target,
      displacement cursor.scan.sizes site.before.length cursor.offset target =
        (Layout.distance (site.fill [instr]) site.position target : Int) := by
    intro target
    rw [progress.sizes, offsetEq, ← Layout.displacement_eq_distance target inBounds]
    simp [Site.position]
  have lengthEq : cursor.scan.sizes.length = (site.fill [instr]).length := by
    rw [progress.sizes, List.length_map]
  unfold scanInstr at outcome ⊢
  cases decided : expansion? cursor.scan.sizes site.before.length cursor.offset instr with
  | error reason => simp [decided, Sweep.stopped] at outcome
  | ok decision =>
      cases decision with
      | none =>
          simp only [decided, Sweep.done, Except.ok.injEq, passedSize_eq] at outcome ⊢
          subst next
          have inReach : InReachAt (site.fill [instr]) site.position := by
            intro other otherFound relaxable
            rw [site.instr?_fill_cons, Option.some.injEq] at otherFound
            subst other
            rcases expansion?_eq_ok decided with ⟨notRelaxable, -⟩ |
              ⟨target, -, known, ⟨fits, -⟩ | ⟨long, -, -, impossible⟩⟩
            · cases notRelaxable.symm.trans relaxable
            · rw [displacementEq, fitsShort_natCast, decide_eq_true_eq] at fits
              exact ⟨target, lengthEq ▸ known, fits⟩
            · contradiction
          exact ⟨by simpa [Site.position] using progress.pass inReach, by simp [offsetEq]⟩
      | some long =>
          simp only [decided, Sweep.done, Except.ok.injEq] at outcome ⊢
          subst next
          rcases expansion?_eq_ok decided with ⟨-, impossible⟩ |
            ⟨target, relaxable, known, ⟨-, impossible⟩ | ⟨_, tooFar, expanded, ⟨⟩⟩⟩
          · contradiction
          · contradiction
          · rw [displacementEq, fitsShort_natCast, decide_eq_false_iff_not, Nat.not_le] at tooFar
            rw [← layoutSize_longForm expanded, ← size_of_isRelaxable relaxable]
            exact ⟨progress.expand relaxable (lengthEq ▸ known) tooFar expanded _,
              by simp [offsetEq]⟩

/-- Moving from the end of a block to the start of the next. -/
theorem Progress.nextBlock {start blocks : List Block} {scan : Scan} {id : BlockId} {index : Nat}
    (progress : Progress start scan blocks ⟨id, index⟩)
    (atEnd : (Layout.instrsOf blocks id).length = index) :
    Progress start scan blocks ⟨id + 1, 0⟩ where
  sizes := progress.sizes
  run := progress.run
  quiet := by
    intro none position before instr found
    refine progress.quiet none position ?_ instr found
    rcases Nat.lt_or_eq_of_le (show position.block ≤ id by
      rcases before with earlier | ⟨-, impossible⟩
      · exact Nat.le_of_lt_succ earlier
      · contradiction) with earlier | same
    · exact .inl earlier
    · rw [Layout.instr?, same] at found
      exact .inr ⟨same, atEnd ▸ (List.getElem?_eq_some_iff.mp found).1⟩

/-- How far a scan has come inside a block: before it are the instructions that it has left there,
and its offset is their size. -/
def ProgressInside (start finished rest : List Block) (block : Block)
    (preceding following : List Instr) (cursor : Cursor) : Prop :=
  Progress start cursor.scan
      (finished ++ { block with instrs := preceding ++ following } :: rest)
      ⟨finished.length, preceding.length⟩ ∧
    cursor.offset = Instr.layoutSize preceding

theorem ProgressInside.step {start finished rest : List Block} {block : Block}
    {preceding following : List Instr} {instr : Instr} {cursor next : Cursor}
    (inside : ProgressInside start finished rest block preceding (instr :: following) cursor)
    (stepped : (scanInstr finished.length cursor instr).outcome = .ok next) :
    ProgressInside start finished rest block
      (preceding ++ (scanInstr finished.length cursor instr).items) following next := by
  let site : Site := ⟨finished, block, preceding, following, rest⟩
  have atSite : Progress start cursor.scan (site.fill [instr]) site.position := by
    simpa [Site.fill, Site.position, site] using inside.1
  simpa [ProgressInside, Site.fill, site] using scanInstr_progress atSite inside.2 stepped

/-- The code and the scan after one block. -/
theorem scanBlock_progress {start finished rest : List Block} {block : Block} {scan : Scan}
    {next : BlockId × Scan}
    (progress : Progress start scan (finished ++ block :: rest) ⟨finished.length, 0⟩)
    (outcome : (scanBlock (finished.length, scan) block).outcome = .ok next) :
    let items := (scanBlock (finished.length, scan) block).items
    next.1 = (finished ++ items).length ∧
      Progress start next.2 (finished ++ items ++ rest) ⟨(finished ++ items).length, 0⟩ := by
  simp only [scanBlock] at outcome ⊢
  cases scanned : (Sweep.run (scanInstr finished.length) { scan } block.instrs).outcome with
  | error reason => simp [scanned, Except.map] at outcome
  | ok cursor =>
      simp only [scanned, Except.map, Except.ok.injEq] at outcome
      subst next
      have swept := Sweep.run_invariant (ProgressInside start finished rest block)
        (fun _ _ _ _ _ inside stepped => inside.step stepped) ⟨progress, rfl⟩ scanned
      refine ⟨by simp, ?_⟩
      have atEnd := swept.1
      rw [List.append_nil] at atEnd
      simpa using atEnd.nextBlock (by simp [Layout.instrsOf])

/-- How far a scan has come when it has left some blocks and not looked at the others. -/
def ProgressBetween (start finished rest : List Block) (state : BlockId × Scan) : Prop :=
  state.1 = finished.length ∧ Progress start state.2 (finished ++ rest) ⟨finished.length, 0⟩

theorem ProgressBetween.initial (blocks : List Block) :
    ProgressBetween blocks [] blocks (0, { sizes := blocks.map Block.size }) := by
  refine ⟨rfl, rfl, .refl _, ?_⟩
  intro _ position before
  rcases before with impossible | ⟨-, impossible⟩ <;> contradiction

theorem ProgressBetween.step {start finished rest : List Block} {block : Block}
    {state next : BlockId × Scan}
    (between : ProgressBetween start finished (block :: rest) state)
    (stepped : (scanBlock state block).outcome = .ok next) :
    ProgressBetween start (finished ++ (scanBlock state block).items) rest next := by
  obtain ⟨current, scan⟩ := state
  obtain ⟨rfl, progress⟩ := between
  exact scanBlock_progress progress stepped

theorem items_scanBlocks (sizes : List Nat) (blocks : List Block) :
    (scanBlocks sizes blocks).items = (Sweep.run scanBlock (0, { sizes }) blocks).items := rfl

/-- A scan of the whole code keeps its table, counts its expansions, and expands nothing only if
every short branch is in reach. -/
theorem scanBlocks_progress {blocks : List Block} {scan : Scan}
    (outcome : (scanBlocks (blocks.map Block.size) blocks).outcome = .ok scan) :
    let finish := (scanBlocks (blocks.map Block.size) blocks).items
    scan.sizes = finish.map Block.size ∧ Expansions scan.expanded blocks finish ∧
      (scan.expanded = 0 → AllInReach finish) := by
  simp only [scanBlocks] at outcome ⊢
  let initial : BlockId × Scan := (0, { sizes := blocks.map Block.size })
  cases scanned : (Sweep.run scanBlock initial blocks).outcome with
  | error reason => simp [initial, scanned, Except.map] at outcome
  | ok last =>
      simp only [initial, scanned, Except.map, Except.ok.injEq] at outcome
      subst scan
      have swept := Sweep.run_invariant (ProgressBetween blocks)
        (fun _ _ _ _ _ between stepped => between.step stepped) (.initial blocks) scanned
      obtain ⟨-, progress⟩ := swept
      rw [List.append_nil] at progress
      refine ⟨progress.sizes, progress.run, ?_⟩
      intro none position instr found
      exact progress.quiet none position (.inl (Layout.lt_length_of_instr? found)) instr found

/-! ## Repeated scans -/

theorem scanUntilQuiet_run_ok {limit : Nat} {stats last : Stats} {function result : Function}
    (ran : (scanUntilQuiet (function.blocks.map Block.size) stats limit).run function =
      .ok last result) :
    ∃ count, last.expanded = stats.expanded + count ∧
      Expansions count function.blocks result.blocks ∧ AllInReach result.blocks ∧
      result = { function with blocks := result.blocks } := by
  induction limit generalizing stats function with
  | zero => contradiction
  | succ limit ih =>
      rw [scanUntilQuiet] at ran
      obtain ⟨scan, scanned, swept, ran⟩ := Pass.run_bind_eq_ok ran
      rw [run_visitBlocks_scanBody (List.length_map _)] at swept
      obtain ⟨outcome, scannedEq⟩ := Pass.run_sweepBlocks_eq_ok swept
      have blocksEq : scanned.blocks = (scanBlocks _ function.blocks).items :=
        congrArg Function.blocks scannedEq
      obtain ⟨sizes, run, quiet⟩ := scanBlocks_progress outcome
      rw [← blocksEq] at sizes run quiet
      by_cases none : scan.expanded = 0
      · rw [if_pos none] at ran
        cases ran
        exact ⟨scan.expanded, rfl, run, quiet none, by rw [scannedEq]⟩
      · rw [if_neg none, sizes] at ran
        obtain ⟨count, counted, rest, inReach, frame⟩ := ih ran
        refine ⟨scan.expanded + count, ?_, run.trans rest, inReach, ?_⟩
        · rw [counted, Nat.add_assoc]
        · rw [frame, scannedEq]

end Relaxation

open Relaxation in
/-- Small code is left as it is. -/
theorem run_relaxBranches (function : Function) :
    relaxBranches.run function =
      if totalSize (function.blocks.map Block.size) < reach then .ok {} function
      else (scanUntilQuiet (function.blocks.map Block.size) {}
        (candidateCount function.blocks + 1)).run function := by
  have afterGet : relaxBranches.run function =
      (if totalSize (function.blocks.map Block.size) < reach then pure {}
      else scanUntilQuiet (function.blocks.map Block.size) {}
        (candidateCount function.blocks + 1) : Pass Stats).run function := rfl
  rw [afterGet]
  split
  · rfl
  · rfl

open Relaxation in
/-- Relaxation performs a run of expansions and counts them. At its end the code is small or
every short branch is in reach, and nothing but the blocks has changed. -/
theorem relaxBranches_run_ok {stats : Stats} {function result : Function}
    (ran : relaxBranches.run function = .ok stats result) :
    Expansions stats.expanded function.blocks result.blocks ∧
      (totalSize (result.blocks.map Block.size) < reach ∨ AllInReach result.blocks) ∧
      result = { function with blocks := result.blocks } := by
  rw [run_relaxBranches] at ran
  split at ran
  next small =>
    cases ran
    exact ⟨.refl _, .inl small, rfl⟩
  next large =>
    obtain ⟨count, counted, run, inReach, frame⟩ := scanUntilQuiet_run_ok ran
    rw [Nat.zero_add] at counted
    exact ⟨counted ▸ run, .inr inReach, frame⟩

end MachineCode
