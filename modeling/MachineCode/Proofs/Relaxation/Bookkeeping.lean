import MachineCode.Proofs.Frame.Outline
import MachineCode.Proofs.Relaxation.Convergence

/-!
# The books of a scan

A scan never measures the code again. It keeps a table of block sizes and an offset in the current
block, and when it expands a branch it adds fixed amounts to both. Here we list the points of a
relaxation at which an instruction is looked at, each with the code as it stands there and with the
books of the scan, and show that the books are right at every point: the table holds the sizes of
the blocks, the offset is the size of the instructions passed, and the displacement of a branch is
its distance from its target. No entry of the table ever falls.
-/

namespace MachineCode

/-! ## Moments of a sweep -/

namespace Sweep

variable {item state : Type} {step : state → item → Sweep item state}

/-- A moment at which a sweep looks at an item: what it has left so far, its state, the item, and
the items behind it. -/
structure Moment (item state : Type) where
  finished : List item
  current : state
  head : item
  rest : List item

/-- The same moment of a sweep behind items that are finished. -/
def Moment.prepend (finished : List item) (moment : Moment item state) : Moment item state :=
  { moment with finished := finished ++ moment.finished }

/-- The moments of a sweep, up to the one at which it stops. -/
def moments (step : state → item → Sweep item state) :
    state → List item → List (Moment item state)
  | _, [] => []
  | current, head :: rest =>
      ⟨[], current, head, rest⟩ ::
        match step current head with
        | ⟨items, .ok next⟩ => (moments step next rest).map (Moment.prepend items)
        | ⟨_, .error _⟩ => []

theorem moments_cons_ok {current next : state} {head : item} {items : List item}
    (stepped : step current head = done items next) (rest : List item) :
    moments step current (head :: rest) =
      ⟨[], current, head, rest⟩ :: (moments step next rest).map (Moment.prepend items) := by
  rw [moments, stepped]
  rfl

theorem moments_cons_error {current : state} {head : item} {items : List item}
    {reason : CodeError} (stepped : step current head = stopped items reason) (rest : List item) :
    moments step current (head :: rest) = [⟨[], current, head, rest⟩] := by
  rw [moments, stepped]
  rfl

/-- What every step preserves holds at every moment. -/
theorem moments_invariant (invariant : List item → List item → state → Prop)
    (preserved : ∀ finished head rest current next, invariant finished (head :: rest) current →
      (step current head).outcome = .ok next →
        invariant (finished ++ (step current head).items) rest next)
    {items : List item} {current : state} (initially : invariant [] items current) :
    ∀ moment ∈ moments step current items,
      invariant moment.finished (moment.head :: moment.rest) moment.current := by
  suffices general : ∀ finished rest current, invariant finished rest current →
      ∀ moment ∈ moments step current rest,
        invariant (finished ++ moment.finished) (moment.head :: moment.rest) moment.current from
    general [] items current initially
  intro finished rest
  induction rest generalizing finished with
  | nil => exact fun _ _ _ impossible => nomatch impossible
  | cons head rest ih =>
      intro current holds moment member
      cases stepped : step current head with
      | mk items outcome =>
          cases outcome with
          | error reason =>
              rw [moments_cons_error stepped, List.mem_singleton] at member
              subst member
              rwa [List.append_nil]
          | ok next =>
              rw [moments_cons_ok stepped, List.mem_cons, List.mem_map] at member
              rcases member with rfl | ⟨later, isLater, rfl⟩
              · rwa [List.append_nil]
              · have advanced := preserved finished head rest current next holds (by rw [stepped])
                rw [stepped] at advanced
                have found := ih _ next advanced later isLater
                rwa [List.append_assoc] at found

/-- A sweep that stops does so at its last moment. -/
theorem exists_last_moment {items : List item} {current : state} {reason : CodeError}
    (failed : (run step current items).outcome = .error reason) :
    ∃ earlier last, moments step current items = earlier ++ [last] ∧
      (step last.current last.head).outcome = .error reason ∧
      (run step current items).items =
        last.finished ++ (step last.current last.head).items ++ last.rest := by
  induction items generalizing current with
  | nil => contradiction
  | cons head rest ih =>
      cases stepped : step current head with
      | mk items outcome =>
          cases outcome with
          | error cause =>
              rw [run_cons_error stepped] at failed ⊢
              refine ⟨[], _, moments_cons_error stepped rest, ?_, ?_⟩
              · rw [stepped]
                exact failed
              · rw [stepped]
                rfl
          | ok next =>
              rw [run_cons_ok stepped] at failed ⊢
              obtain ⟨earlier, last, momentsEq, lastFailed, itemsEq⟩ := ih failed
              refine ⟨⟨[], current, head, rest⟩ :: earlier.map (Moment.prepend items),
                last.prepend items, ?_, lastFailed, ?_⟩
              · rw [moments_cons_ok stepped, momentsEq, List.map_append]
                rfl
              · rw [prepend, itemsEq]
                simp [Moment.prepend]

/-- A preorder of states in which every step that succeeds leads upwards. -/
structure Advancing (step : state → item → Sweep item state) (advances : state → state → Prop) :
    Prop where
  refl : ∀ current, advances current current
  trans : ∀ {first second third}, advances first second → advances second third →
    advances first third
  each : ∀ {current head next}, (step current head).outcome = .ok next → advances current next

namespace Advancing

variable {advances : state → state → Prop} (advancing : Advancing step advances)

include advancing

theorem run {items : List item} {current last : state}
    (ran : (run step current items).outcome = .ok last) : advances current last :=
  run_invariant (fun _ _ reached => advances current reached)
    (fun _ _ _ _ _ reached stepped => advancing.trans reached (advancing.each stepped))
    (advancing.refl current) ran

theorem moment {items : List item} {current : state} :
    ∀ moment ∈ moments step current items, advances current moment.current :=
  moments_invariant (fun _ _ reached => advances current reached)
    (fun _ _ _ _ _ reached stepped => advancing.trans reached (advancing.each stepped))
    (advancing.refl current)

/-- The step of a moment has succeeded before every later moment. -/
theorem pairwise (items : List item) (current : state) :
    (moments step current items).Pairwise fun earlier later =>
      ∃ next, (step earlier.current earlier.head).outcome = .ok next ∧
        advances next later.current := by
  induction items generalizing current with
  | nil => exact .nil
  | cons head rest ih =>
      cases stepped : step current head with
      | mk items outcome =>
          cases outcome with
          | error reason =>
              rw [moments_cons_error stepped]
              exact List.pairwise_singleton _ _
          | ok next =>
              rw [moments_cons_ok stepped, List.pairwise_cons, List.pairwise_map]
              refine ⟨?_, ih next⟩
              intro later isLater
              obtain ⟨moment, member, rfl⟩ := List.mem_map.mp isLater
              exact ⟨next, by rw [stepped], advancing.moment moment member⟩

/-- The step of every moment has succeeded before the end of a sweep that succeeds. -/
theorem exists_next {items : List item} {current last : state}
    (ran : (Sweep.run step current items).outcome = .ok last) :
    ∀ moment ∈ moments step current items, ∃ next,
      (step moment.current moment.head).outcome = .ok next ∧ advances next last := by
  induction items generalizing current with
  | nil => exact fun _ impossible => nomatch impossible
  | cons head rest ih =>
      intro moment member
      cases stepped : step current head with
      | mk items outcome =>
          cases outcome with
          | error reason =>
              rw [run_cons_error stepped] at ran
              contradiction
          | ok next =>
              rw [run_cons_ok stepped] at ran
              rw [moments_cons_ok stepped, List.mem_cons, List.mem_map] at member
              rcases member with rfl | ⟨later, isLater, rfl⟩
              · exact ⟨next, by rw [stepped], advancing.run ran⟩
              · exact ih ran later isLater

end Advancing

end Sweep

namespace Relaxation

/-! ## The points of a relaxation -/

/-- A point at which a scan looks at an instruction: the code as it stands, the position of the
instruction, and the table and the offset of the scan. -/
structure Point where
  blocks : List Block
  position : Position
  cursor : Cursor
  deriving DecidableEq, Repr

/-- The point at a moment of the scan of a block, between blocks that the scan has left and blocks
behind. -/
def pointAt (finished rest : List Block) (current : BlockId) (block : Block)
    (moment : Sweep.Moment Instr Cursor) : Point where
  blocks := finished ++
    { block with instrs := moment.finished ++ moment.head :: moment.rest } :: rest
  position := ⟨current, moment.finished.length⟩
  cursor := moment.current

def pointsInBlock (finished rest : List Block) (current : BlockId) (scan : Scan) (block : Block) :
    List Point :=
  (Sweep.moments (scanInstr current) { scan } block.instrs).map
    (pointAt finished rest current block)

/-- The points of a scan of all blocks. -/
def pointsOfScan (sizes : List Nat) (blocks : List Block) : List Point :=
  (Sweep.moments scanBlock (0, { sizes }) blocks).flatMap fun moment =>
    pointsInBlock moment.finished moment.rest moment.current.1 moment.current.2 moment.head

/-- The points of all scans until nothing is expanded, at most `limit` of them. -/
def pointsUntilQuiet (sizes : List Nat) (blocks : List Block) : Nat → List Point
  | 0 => []
  | limit + 1 =>
      pointsOfScan sizes blocks ++
        match (scanBlocks sizes blocks).outcome with
        | .ok scan =>
            if scan.expanded = 0 then []
            else pointsUntilQuiet scan.sizes (scanBlocks sizes blocks).items limit
        | .error _ => []

def points (blocks : List Block) : List Point :=
  let sizes := blocks.map Block.size
  if totalSize sizes < reach then []
  else pointsUntilQuiet sizes blocks (candidateCount blocks + 1)

/-! ## The books are right -/

/-- The books of a scan agree with the code at a point. -/
structure Point.IsMeasured (point : Point) : Prop where
  isInstr : ∃ instr, Layout.instr? point.blocks point.position = some instr
  sizes : point.cursor.scan.sizes = point.blocks.map Block.size
  offset : point.cursor.offset = Instr.layoutSize
    ((Layout.instrsOf point.blocks point.position.block).take point.position.index)

theorem Point.IsMeasured.displacement_eq_distance {point : Point} (measured : point.IsMeasured)
    (target : BlockId) :
    displacement point.cursor.scan.sizes point.position.block point.cursor.offset target =
      (Layout.distance point.blocks point.position target : Int) := by
  obtain ⟨instr, found⟩ := measured.isInstr
  rw [measured.sizes, measured.offset]
  exact Layout.displacement_eq_distance target (Layout.lt_length_of_instr? found)

theorem isMeasured_of_mem_pointsInBlock {start finished rest : List Block} {scan : Scan}
    {block : Block} {point : Point}
    (progress : Progress start scan (finished ++ block :: rest) ⟨finished.length, 0⟩)
    (member : point ∈ pointsInBlock finished rest finished.length scan block) :
    point.IsMeasured ∧ Expansions point.cursor.scan.expanded start point.blocks := by
  obtain ⟨moment, isMoment, rfl⟩ := List.mem_map.mp member
  obtain ⟨inside, offset⟩ := Sweep.moments_invariant (ProgressInside start finished rest block)
    (fun _ _ _ _ _ inside stepped => inside.step stepped) ⟨progress, rfl⟩ moment isMoment
  have instrsEq : Layout.instrsOf (pointAt finished rest finished.length block moment).blocks
      finished.length = moment.finished ++ moment.head :: moment.rest := by
    simp [Layout.instrsOf, pointAt]
  refine ⟨⟨⟨moment.head, ?_⟩, inside.sizes, ?_⟩, inside.run⟩
  · rw [Layout.instr?]
    dsimp only [pointAt] at instrsEq ⊢
    rw [instrsEq]
    simp
  · dsimp only [pointAt] at instrsEq ⊢
    rw [instrsEq]
    simpa using offset

/-- At a point of a scan the books are right, and the code is what the expansions so far have
left. -/
theorem isMeasured_of_mem_pointsOfScan {blocks : List Block} {point : Point}
    (member : point ∈ pointsOfScan (blocks.map Block.size) blocks) :
    point.IsMeasured ∧ Expansions point.cursor.scan.expanded blocks point.blocks := by
  obtain ⟨moment, isMoment, inBlock⟩ := List.mem_flatMap.mp member
  obtain ⟨currentEq, progress⟩ := Sweep.moments_invariant (ProgressBetween blocks)
    (fun _ _ _ _ _ between stepped => between.step stepped) (.initial blocks) moment isMoment
  rw [currentEq] at inBlock
  exact isMeasured_of_mem_pointsInBlock progress inBlock

/-! ## The table never falls -/

/-- Every entry of the later table is at least as large as that of the earlier one. -/
def Grows (earlier later : List Nat) : Prop :=
  ∀ (id : BlockId) (size : Nat), earlier[id]? = some size →
    ∃ larger, later[id]? = some larger ∧ size ≤ larger

theorem Grows.refl (sizes : List Nat) : Grows sizes sizes :=
  fun _ size found => ⟨size, found, Nat.le_refl size⟩

theorem Grows.trans {first second third : List Nat} (left : Grows first second)
    (right : Grows second third) : Grows first third := by
  intro id size found
  obtain ⟨larger, foundLarger, le⟩ := left id size found
  obtain ⟨largest, foundLargest, le'⟩ := right id larger foundLarger
  exact ⟨largest, foundLargest, Nat.le_trans le le'⟩

/-- A scan goes on: its table does not fall, and neither does the number of its expansions. -/
structure Scan.Advances (earlier later : Scan) : Prop where
  sizes : Grows earlier.sizes later.sizes
  expanded : earlier.expanded ≤ later.expanded

theorem Scan.Advances.refl (scan : Scan) : scan.Advances scan :=
  ⟨.refl _, Nat.le_refl _⟩

theorem Scan.Advances.trans {first second third : Scan} (left : first.Advances second)
    (right : second.Advances third) : first.Advances third :=
  ⟨left.sizes.trans right.sizes, Nat.le_trans left.expanded right.expanded⟩

theorem scanInstr_advances {current : BlockId} {cursor next : Cursor} {instr : Instr}
    (stepped : (scanInstr current cursor instr).outcome = .ok next) :
    cursor.scan.Advances next.scan := by
  unfold scanInstr at stepped
  split at stepped
  · contradiction
  · cases stepped
    exact .refl _
  · cases stepped
    refine ⟨?_, Nat.le_succ _⟩
    intro id size found
    rw [List.getElem?_modify, found]
    refine ⟨if current = id then _ else size, rfl, ?_⟩
    split
    next => exact Nat.le_add_right _ _
    next => exact Nat.le_refl _

theorem advancing_scanInstr (current : BlockId) :
    Sweep.Advancing (scanInstr current) fun earlier later => earlier.scan.Advances later.scan where
  refl cursor := .refl cursor.scan
  trans := .trans
  each := scanInstr_advances

theorem advancing_scanBlock :
    Sweep.Advancing scanBlock fun earlier later => earlier.2.Advances later.2 where
  refl state := .refl state.2
  trans := .trans
  each scanned := by
    obtain ⟨cursor, ran, rfl⟩ := exists_of_map_eq_ok scanned
    exact (advancing_scanInstr _).run ran

section

variable {finished rest : List Block} {current : BlockId} {scan : Scan} {block : Block}

theorem advances_of_mem_pointsInBlock {point : Point}
    (member : point ∈ pointsInBlock finished rest current scan block) :
    scan.Advances point.cursor.scan := by
  obtain ⟨moment, isMoment, rfl⟩ := List.mem_map.mp member
  exact (advancing_scanInstr current).moment moment isMoment

theorem advances_of_scanBlock {next : BlockId × Scan}
    (scanned : (scanBlock (current, scan) block).outcome = .ok next) {point : Point}
    (member : point ∈ pointsInBlock finished rest current scan block) :
    point.cursor.scan.Advances next.2 := by
  obtain ⟨moment, isMoment, rfl⟩ := List.mem_map.mp member
  obtain ⟨cursor, ran, rfl⟩ := exists_of_map_eq_ok scanned
  obtain ⟨after, stepped, toLast⟩ := (advancing_scanInstr current).exists_next ran moment isMoment
  exact (scanInstr_advances stepped).trans toLast

theorem pairwise_pointsInBlock :
    (pointsInBlock finished rest current scan block).Pairwise fun earlier later =>
      earlier.cursor.scan.Advances later.cursor.scan := by
  refine List.pairwise_map.mpr (((advancing_scanInstr current).pairwise block.instrs _).imp ?_)
  rintro earlier later ⟨after, stepped, toLater⟩
  exact (scanInstr_advances stepped).trans toLater

end

section

variable {sizes : List Nat} {blocks : List Block}

theorem grows_of_mem_pointsOfScan {point : Point} (member : point ∈ pointsOfScan sizes blocks) :
    Grows sizes point.cursor.scan.sizes := by
  obtain ⟨moment, isMoment, inBlock⟩ := List.mem_flatMap.mp member
  have toBlock : Grows sizes moment.current.2.sizes :=
    (advancing_scanBlock.moment moment isMoment).sizes
  exact toBlock.trans (advances_of_mem_pointsInBlock inBlock).sizes

theorem advances_of_scanBlocks {scan : Scan}
    (scanned : (scanBlocks sizes blocks).outcome = .ok scan) {point : Point}
    (member : point ∈ pointsOfScan sizes blocks) :
    point.cursor.scan.Advances scan := by
  obtain ⟨moment, isMoment, inBlock⟩ := List.mem_flatMap.mp member
  obtain ⟨last, ran, rfl⟩ := exists_of_map_eq_ok scanned
  obtain ⟨next, stepped, toLast⟩ := advancing_scanBlock.exists_next ran moment isMoment
  exact (advances_of_scanBlock stepped inBlock).trans toLast

theorem pairwise_pointsOfScan :
    (pointsOfScan sizes blocks).Pairwise fun earlier later =>
      Grows earlier.cursor.scan.sizes later.cursor.scan.sizes := by
  refine List.pairwise_flatMap.mpr ⟨?_, ?_⟩
  · intro moment _
    exact pairwise_pointsInBlock.imp Scan.Advances.sizes
  · refine (advancing_scanBlock.pairwise blocks _).imp ?_
    rintro earlier later ⟨next, stepped, toLater⟩ point inEarlier other inLater
    have toNext := advances_of_scanBlock stepped inEarlier
    exact ((toNext.trans toLater).trans (advances_of_mem_pointsInBlock inLater)).sizes

theorem grows_of_scanBlocks {scan : Scan} (scanned : (scanBlocks sizes blocks).outcome = .ok scan) :
    Grows sizes scan.sizes := by
  obtain ⟨last, ran, rfl⟩ := exists_of_map_eq_ok scanned
  exact (advancing_scanBlock.run ran).sizes

end

/-! ## Repeated scans -/

section

variable {sizes : List Nat} {blocks : List Block}

theorem pointsUntilQuiet_of_busy {scan : Scan}
    (scanned : (scanBlocks sizes blocks).outcome = .ok scan) (busy : scan.expanded ≠ 0)
    (limit : Nat) :
    pointsUntilQuiet sizes blocks (limit + 1) =
      pointsOfScan sizes blocks ++
        pointsUntilQuiet scan.sizes (scanBlocks sizes blocks).items limit := by
  rw [pointsUntilQuiet, scanned]
  exact congrArg _ (if_neg busy)

theorem pointsUntilQuiet_of_last
    (last : ∀ scan, (scanBlocks sizes blocks).outcome = .ok scan → scan.expanded = 0)
    (limit : Nat) :
    pointsUntilQuiet sizes blocks (limit + 1) = pointsOfScan sizes blocks := by
  rw [pointsUntilQuiet]
  split
  next scan scanned => rw [if_pos (last scan scanned), List.append_nil]
  next => rw [List.append_nil]

/-- A scan is the last one unless it succeeds and has expanded something. -/
theorem last_or_busy (sizes : List Nat) (blocks : List Block) :
    (∀ scan, (scanBlocks sizes blocks).outcome = .ok scan → scan.expanded = 0) ∨
      ∃ scan, (scanBlocks sizes blocks).outcome = .ok scan ∧ scan.expanded ≠ 0 := by
  cases scanned : (scanBlocks sizes blocks).outcome with
  | error reason => exact .inl nofun
  | ok scan =>
      by_cases quiet : scan.expanded = 0
      · refine .inl ?_
        rintro _ ⟨⟩
        exact quiet
      · exact .inr ⟨scan, rfl, quiet⟩

theorem grows_of_mem_pointsUntilQuiet {limit : Nat} {point : Point}
    (member : point ∈ pointsUntilQuiet sizes blocks limit) :
    Grows sizes point.cursor.scan.sizes := by
  induction limit generalizing sizes blocks with
  | zero => contradiction
  | succ limit ih =>
      rcases last_or_busy sizes blocks with last | ⟨scan, scanned, busy⟩
      · rw [pointsUntilQuiet_of_last last] at member
        exact grows_of_mem_pointsOfScan member
      · rw [pointsUntilQuiet_of_busy scanned busy, List.mem_append] at member
        rcases member with here | later
        · exact grows_of_mem_pointsOfScan here
        · exact (grows_of_scanBlocks scanned).trans (ih later)

theorem pairwise_pointsUntilQuiet (limit : Nat) :
    (pointsUntilQuiet sizes blocks limit).Pairwise fun earlier later =>
      Grows earlier.cursor.scan.sizes later.cursor.scan.sizes := by
  induction limit generalizing sizes blocks with
  | zero => exact .nil
  | succ limit ih =>
      rcases last_or_busy sizes blocks with last | ⟨scan, scanned, busy⟩
      · rw [pointsUntilQuiet_of_last last]
        exact pairwise_pointsOfScan
      · rw [pointsUntilQuiet_of_busy scanned busy, List.pairwise_append]
        refine ⟨pairwise_pointsOfScan, ih, ?_⟩
        intro point here other later
        have toEnd := (advances_of_scanBlocks scanned here).sizes
        exact toEnd.trans (grows_of_mem_pointsUntilQuiet later)

theorem isMeasured_of_mem_pointsUntilQuiet {limit : Nat} {point : Point}
    (member : point ∈ pointsUntilQuiet (blocks.map Block.size) blocks limit) :
    point.IsMeasured := by
  induction limit generalizing blocks with
  | zero => contradiction
  | succ limit ih =>
      rcases last_or_busy (blocks.map Block.size) blocks with last | ⟨scan, scanned, busy⟩
      · rw [pointsUntilQuiet_of_last last] at member
        exact (isMeasured_of_mem_pointsOfScan member).1
      · rw [pointsUntilQuiet_of_busy scanned busy, List.mem_append] at member
        rcases member with here | later
        · exact (isMeasured_of_mem_pointsOfScan here).1
        · rw [(scanBlocks_progress scanned).1] at later
          exact ih later

end

/-! ## The code that is left -/

/-- There is an instruction in the code. -/
def HasCode (blocks : List Block) : Prop :=
  ∃ block ∈ blocks, block.instrs ≠ []

theorem Expands.hasCode {start finish : List Block} (expands : Expands start finish) :
    HasCode finish := by
  cases expands with
  | @expand site instr target long relaxable known outOfReach expanded =>
      refine ⟨_, List.mem_of_getElem? (site.getElem?_fill long), ?_⟩
      rcases longForm_eq_ok expanded with rfl | ⟨code, rfl⟩
      · simp
      · simp

theorem Expansions.hasCode {count : Nat} {start finish : List Block}
    (run : Expansions count start finish) (code : HasCode start) : HasCode finish := by
  induction run with
  | refl blocks => exact code
  | head first rest ih => exact ih first.hasCode

theorem hasCode_of_totalSize_pos {blocks : List Block}
    (positive : 0 < totalSize (blocks.map Block.size)) : HasCode blocks := by
  induction blocks with
  | nil => contradiction
  | cons block rest ih =>
      by_cases empty : block.instrs = []
      · rw [List.map_cons, totalSize_cons, Block.size, empty, Instr.layoutSize_nil,
          Nat.zero_add] at positive
        obtain ⟨other, member, nonempty⟩ := ih positive
        exact ⟨other, List.mem_cons_of_mem block member, nonempty⟩
      · exact ⟨block, List.mem_cons_self, empty⟩

/-- A scan of code has a point. -/
theorem pointsOfScan_ne_nil {sizes : List Nat} {blocks : List Block} (code : HasCode blocks) :
    pointsOfScan sizes blocks ≠ [] := by
  have reaches (state : BlockId × Scan) :
      ∃ moment ∈ Sweep.moments scanBlock state blocks, moment.head.instrs ≠ [] := by
    induction blocks generalizing state with
    | nil =>
        obtain ⟨block, impossible, -⟩ := code
        contradiction
    | cons block rest ih =>
        by_cases empty : block.instrs = []
        · have stepped : scanBlock state block =
              .done [{ block with instrs := [] }] (state.1 + 1, state.2) := by
            rw [scanBlock, empty]
            rfl
          have restCode : HasCode rest := by
            obtain ⟨other, member, nonempty⟩ := code
            rcases List.mem_cons.mp member with rfl | inRest
            · contradiction
            · exact ⟨other, inRest, nonempty⟩
          obtain ⟨moment, member, nonempty⟩ := ih restCode _
          rw [Sweep.moments_cons_ok stepped]
          exact ⟨_, List.mem_cons_of_mem _ (List.mem_map_of_mem member), nonempty⟩
        · exact ⟨_, List.mem_cons_self, empty⟩
  obtain ⟨moment, member, nonempty⟩ := reaches (0, { sizes })
  intro none
  have noPoint := List.flatMap_eq_nil_iff.mp none moment member
  rw [pointsInBlock, List.map_eq_nil_iff] at noPoint
  cases instrs : moment.head.instrs with
  | nil => exact nonempty instrs
  | cons instr following =>
      rw [instrs, Sweep.moments] at noPoint
      contradiction

theorem items_of_scanInstr_error {current : BlockId} {cursor : Cursor} {instr : Instr}
    {reason : CodeError} (failed : (scanInstr current cursor instr).outcome = .error reason) :
    (scanInstr current cursor instr).items = [instr] := by
  unfold scanInstr at failed ⊢
  split at failed
  · rfl
  · contradiction
  · contradiction

/-- The code at the last of some points. -/
def lastBlocks? (points : List Point) : Option (List Block) :=
  points.getLast?.map Point.blocks

theorem lastBlocks?_append {earlier later : List Point} {blocks : List Block}
    (last : lastBlocks? later = some blocks) : lastBlocks? (earlier ++ later) = some blocks := by
  obtain ⟨point, isLast, rfl⟩ := Option.map_eq_some_iff.mp last
  rw [lastBlocks?, List.getLast?_append, isLast]
  rfl

/-- A scan that stops leaves the code of its last point. -/
theorem lastBlocks?_of_scan_error {sizes : List Nat} {blocks : List Block} {reason : CodeError}
    (failed : (scanBlocks sizes blocks).outcome = .error reason) :
    lastBlocks? (pointsOfScan sizes blocks) = some (scanBlocks sizes blocks).items := by
  obtain ⟨blocksBefore, inBlock, blocksEq, blockFailed, blockItems⟩ :=
    Sweep.exists_last_moment (error_of_map_error failed)
  obtain ⟨instrsBefore, atInstr, instrsEq, instrFailed, instrItems⟩ :=
    Sweep.exists_last_moment (error_of_map_error blockFailed)
  rw [items_of_scanInstr_error instrFailed] at instrItems
  have itemsEq : (scanBlocks sizes blocks).items =
      (pointAt inBlock.finished inBlock.rest inBlock.current.1 inBlock.head atInstr).blocks := by
    rw [items_scanBlocks, blockItems, scanBlock, instrItems, pointAt]
    simp
  rw [pointsOfScan, blocksEq, List.flatMap_append, List.flatMap_singleton, itemsEq]
  apply lastBlocks?_append
  rw [pointsInBlock, instrsEq, List.map_append]
  exact lastBlocks?_append rfl

/-- A scan that expands nothing has the same code at all points and leaves it. -/
theorem blocks_of_quiet_scan {blocks : List Block} {scan : Scan}
    (scanned : (scanBlocks (blocks.map Block.size) blocks).outcome = .ok scan)
    (quiet : scan.expanded = 0) :
    (scanBlocks (blocks.map Block.size) blocks).items = blocks ∧
      ∀ point ∈ pointsOfScan (blocks.map Block.size) blocks, point.blocks = blocks := by
  have unchanged {finish : List Block} {count : Nat} (run : Expansions count blocks finish)
      (none : count = 0) : finish = blocks := by
    subst none
    cases run
    rfl
  refine ⟨unchanged (scanBlocks_progress scanned).2.1 quiet, ?_⟩
  intro point member
  have counted := (advances_of_scanBlocks scanned member).expanded
  exact unchanged (isMeasured_of_mem_pointsOfScan member).2 (by omega)

theorem lastBlocks?_of_quiet_scan {blocks : List Block} {scan : Scan} (code : HasCode blocks)
    (scanned : (scanBlocks (blocks.map Block.size) blocks).outcome = .ok scan)
    (quiet : scan.expanded = 0) :
    lastBlocks? (pointsOfScan (blocks.map Block.size) blocks) =
      some (scanBlocks (blocks.map Block.size) blocks).items := by
  obtain ⟨itemsEq, same⟩ := blocks_of_quiet_scan scanned quiet
  rw [itemsEq, lastBlocks?, List.getLast?_eq_some_getLast (pointsOfScan_ne_nil code),
    Option.map_some, same _ (List.getLast_mem _)]

/-- Repeated scans leave the code of their last point. -/
theorem lastBlocks?_pointsUntilQuiet {limit : Nat} {stats : Stats} {function : Function}
    (enough : candidateCount function.blocks < limit) (code : HasCode function.blocks) :
    lastBlocks? (pointsUntilQuiet (function.blocks.map Block.size) function.blocks limit) =
      some ((scanUntilQuiet (function.blocks.map Block.size) stats limit).leaves
        function).blocks := by
  induction limit generalizing stats function with
  | zero => contradiction
  | succ limit ih =>
      rw [scanUntilQuiet, Pass.leaves, EStateM.run_bind,
        run_visitBlocks_scanBody (List.length_map _), Pass.run_sweepBlocks]
      cases scanned : (scanBlocks (function.blocks.map Block.size) function.blocks).outcome with
      | error reason =>
          rw [pointsUntilQuiet_of_last]
          · exact lastBlocks?_of_scan_error scanned
          · rw [scanned]
            intro scan impossible
            contradiction
      | ok scan =>
          obtain ⟨sizesEq, run, -⟩ := scanBlocks_progress scanned
          rw [Pass.run_ofExcept_ok]
          dsimp only
          by_cases quiet : scan.expanded = 0
          · rw [if_pos quiet, pointsUntilQuiet_of_last]
            · exact lastBlocks?_of_quiet_scan code scanned quiet
            · rw [scanned]
              rintro _ ⟨⟩
              exact quiet
          · rw [if_neg quiet, pointsUntilQuiet_of_busy scanned quiet]
            apply lastBlocks?_append
            have counted := run.candidateCount
            have fewer : candidateCount
                (scanBlocks (function.blocks.map Block.size) function.blocks).items < limit := by
              omega
            rw [sizesEq]
            exact @ih _ { function with blocks := _ } fewer (run.hasCode code)

end Relaxation

open Relaxation

/-- The books of a relaxation never drift. At every point the table holds the size of every block
as it stands, the offset is the size of the instructions passed, and the displacement to every
target is the distance in the code. No entry of the table is smaller at a later point, and the code
of the last point is what the relaxation leaves. -/
theorem relaxBranches_measured (function : Function) :
    (∀ point ∈ points function.blocks, point.IsMeasured ∧ ∀ target,
      0 ≤ displacement point.cursor.scan.sizes point.position.block point.cursor.offset target ∧
      displacement point.cursor.scan.sizes point.position.block point.cursor.offset target =
        (Layout.distance point.blocks point.position target : Int)) ∧
    (points function.blocks).Pairwise (fun earlier later =>
      Grows earlier.cursor.scan.sizes later.cursor.scan.sizes) ∧
    (relaxBranches.leaves function).blocks =
      (lastBlocks? (points function.blocks)).getD function.blocks := by
  by_cases small : totalSize (function.blocks.map Block.size) < reach
  · have none : points function.blocks = [] := if_pos small
    have unchanged : relaxBranches.leaves function = function := by
      rw [Pass.leaves, run_relaxBranches, if_pos small]
    rw [none, unchanged]
    exact ⟨List.forall_mem_nil _, .nil, rfl⟩
  · have pointsEq : points function.blocks = pointsUntilQuiet (function.blocks.map Block.size)
        function.blocks (candidateCount function.blocks + 1) := if_neg small
    have code : HasCode function.blocks := by
      refine hasCode_of_totalSize_pos ?_
      rw [reach] at small
      omega
    rw [pointsEq]
    refine ⟨?_, pairwise_pointsUntilQuiet _, ?_⟩
    · intro point member
      have measured := isMeasured_of_mem_pointsUntilQuiet member
      refine ⟨measured, fun target => ?_⟩
      rw [measured.displacement_eq_distance target]
      exact ⟨Int.natCast_nonneg _, rfl⟩
    · rw [lastBlocks?_pointsUntilQuiet (Nat.lt_succ_self _) code, Option.getD_some, Pass.leaves,
        run_relaxBranches, if_neg small]
      rfl

end MachineCode
