import MachineCode.Relaxation
import Mathlib.Data.List.Basic

/-!
# Control flow in the layout

A run goes through the instructions of a function in layout order, across the ends of blocks. A
branch to a block goes to the start of the block. A conditional branch by a number of bytes goes
to the first instruction behind it that lies that many bytes after its end. What all other
instructions do to the state, and which conditions hold in it, is left open.

Two functions have the same behaviour if the runs from every state execute the same instructions
other than branches and end in the same way. `SameBehaviour.of_simulates` derives this from a
relation between the points of their runs that both can keep up, and `SameBehaviour.of_relocates`
from a relocation of the code that may turn single branches into two.
-/

namespace MachineCode

namespace Flow

/-- What the instructions other than branches do to a state, and the conditions that hold in it. -/
structure Interpretation (State : Type) where
  act : Instr → State → State
  holds : Condition → State → Bool
  holds_inverse : ∀ condition state, holds condition.inverse state = !holds condition state

/-- A point of a run: the place of the next instruction in the layout, and the state. -/
structure Point (State : Type) where
  place : Nat
  state : State

/-- How a run ends. -/
inductive Ending where
  | returned (instr : Instr)
  /-- The run has passed the last instruction. -/
  | ranOut
  /-- A branch has no condition or no place to go to. -/
  | lost (instr : Instr)
  deriving DecidableEq, Repr

/-- One step of a run, with the instructions other than branches that it executes. -/
inductive Move (State : Type) where
  | goes (executed : List Instr) (next : Point State)
  | ends (ending : Ending)

/-- The instructions of all blocks in layout order. -/
def code (blocks : List Block) : List Instr :=
  blocks.flatMap Block.instrs

def blockStart? (blocks : List Block) (id : BlockId) : Option Nat :=
  if id < blocks.length then some (code (blocks.take id)).length else none

theorem exists_blockStart? {blocks : List Block} {id : BlockId} (known : id < blocks.length) :
    ∃ place, blockStart? blocks id = some place :=
  ⟨_, if_pos known⟩

/-- The number of instructions to pass until that many bytes have been passed. -/
def landing? : List Instr → Int → Option Nat
  | [], distance => if distance = 0 then some 0 else none
  | instr :: rest, distance =>
      if distance = 0 then some 0 else (landing? rest (distance - instr.size)).map (· + 1)

/-- The place to which the branch at a place goes when it is taken. -/
def destination? (blocks : List Block) (place : Nat) (instr : Instr) : Option Nat :=
  match instr.opcode, instr.operands with
  | _, .block target :: _ => blockStart? blocks target
  | .jcc, .immediate distance :: _ =>
      (landing? ((code blocks).drop (place + 1)) distance.toInt).map (place + 1 + ·)
  | _, _ => none

theorem destination?_of_block {blocks : List Block} {place : Nat} {instr : Instr}
    {target : BlockId} (targets : instr.operands[0]? = some (.block target)) :
    destination? blocks place instr = blockStart? blocks target := by
  obtain ⟨opcode, operands⟩ := instr
  cases operands with
  | nil => contradiction
  | cons operand rest =>
      cases targets
      rw [destination?]

/-- An instruction goes to a block, is a conditional branch by a number of bytes, or goes
nowhere. -/
theorem destination?_cases (instr : Instr) :
    (∃ target, instr.operands[0]? = some (.block target)) ∨
      (∃ distance operands,
        instr.opcode = .jcc ∧ instr.operands = .immediate distance :: operands) ∨
      ∀ blocks place, destination? blocks place instr = none := by
  unfold destination?
  split
  next _ target operands operandsEq =>
    left
    exact ⟨target, by rw [operandsEq]; rfl⟩
  next distance operands opcodeEq operandsEq =>
    right; left
    exact ⟨distance, operands, opcodeEq, operandsEq⟩
  next =>
    right; right
    intro _ _
    rfl

theorem landing?_zero (instrs : List Instr) : landing? instrs 0 = some 0 := by
  cases instrs with
  | nil => rfl
  | cons instr rest => rfl

/-- The condition on which a conditional branch is taken. -/
def condition? (instr : Instr) : Option Condition :=
  (instr.operands[1]?.bind Operand.immediate?).bind Condition.ofCode?

variable {State : Type}

/-- Go to a destination without executing anything, if there is one. -/
def Move.branch (instr : Instr) (state : State) : Option Nat → Move State
  | some place => .goes [] ⟨place, state⟩
  | none => .ends (.lost instr)

def Point.relocate (moved : Nat → Nat) (point : Point State) : Point State :=
  ⟨moved point.place, point.state⟩

def Move.relocate (moved : Nat → Nat) : Move State → Move State
  | .goes executed next => .goes executed (next.relocate moved)
  | .ends ending => .ends ending

theorem Move.relocate_branch (moved : Nat → Nat) (instr : Instr) (state : State)
    (destination : Option Nat) :
    (Move.branch instr state destination).relocate moved =
      Move.branch instr state (destination.map moved) := by
  cases destination with
  | none => rfl
  | some place => rfl

/-- What an instruction does at a point, if as a branch it goes to the given place. -/
def execute (interpretation : Interpretation State) (destination : Option Nat) (instr : Instr)
    (point : Point State) : Move State :=
  match instr.opcode with
  | .ret | .reti => .ends (.returned instr)
  | .jmp | .bi => .branch instr point.state destination
  | .jcc =>
      match condition? instr with
      | none => .ends (.lost instr)
      | some condition =>
          if interpretation.holds condition point.state then
            .branch instr point.state destination
          else
            .goes [] ⟨point.place + 1, point.state⟩
  | _ => .goes [instr] ⟨point.place + 1, interpretation.act instr point.state⟩

/-- The step from a point of a run. -/
def step (interpretation : Interpretation State) (blocks : List Block) (point : Point State) :
    Move State :=
  match (code blocks)[point.place]? with
  | none => .ends .ranOut
  | some instr => execute interpretation (destination? blocks point.place instr) instr point

theorem step_of_getElem? {interpretation : Interpretation State} {blocks : List Block}
    {point : Point State} {instr : Instr} (found : (code blocks)[point.place]? = some instr) :
    step interpretation blocks point =
      execute interpretation (destination? blocks point.place instr) instr point := by
  rw [step, found]

theorem step_jump {interpretation : Interpretation State} {blocks : List Block}
    {point : Point State} {instr : Instr} {destination : Nat}
    (found : (code blocks)[point.place]? = some instr)
    (jump : instr.opcode = .jmp ∨ instr.opcode = .bi)
    (goesTo : destination? blocks point.place instr = some destination) :
    step interpretation blocks point = .goes [] ⟨destination, point.state⟩ := by
  rw [step_of_getElem? found, goesTo, execute]
  rcases jump with short | long
  · rw [short]
    rfl
  · rw [long]
    rfl

theorem step_conditional {interpretation : Interpretation State} {blocks : List Block}
    {point : Point State} {instr : Instr} {condition : Condition} {destination : Nat}
    (found : (code blocks)[point.place]? = some instr) (conditional : instr.opcode = .jcc)
    (onCondition : condition? instr = some condition)
    (goesTo : destination? blocks point.place instr = some destination) :
    step interpretation blocks point =
      if interpretation.holds condition point.state then .goes [] ⟨destination, point.state⟩
      else .goes [] ⟨point.place + 1, point.state⟩ := by
  rw [step_of_getElem? found, goesTo, execute, conditional, onCondition]
  rfl

theorem execute_relocate (interpretation : Interpretation State) {moved : Nat → Nat}
    {point : Point State} (destination : Option Nat) (instr : Instr)
    (successor : moved (point.place + 1) = moved point.place + 1) :
    execute interpretation (destination.map moved) instr (point.relocate moved) =
      (execute interpretation destination instr point).relocate moved := by
  unfold execute
  split
  · rfl
  · rfl
  · exact (Move.relocate_branch moved instr point.state destination).symm
  · exact (Move.relocate_branch moved instr point.state destination).symm
  · split
    · rfl
    · split
      next condition _ holds =>
        rw [if_pos (by exact holds), Move.relocate_branch]
        rfl
      next condition _ fails =>
        rw [if_neg (by exact fails)]
        simp only [Move.relocate, Point.relocate, successor]
  · simp only [Move.relocate, Point.relocate, successor]

/-- Steps from one point to another, with the instructions other than branches on the way. -/
inductive Reaches (next : Point State → Move State) : Point State → List Instr → Point State → Prop
  | refl (point : Point State) : Reaches next point [] point
  | head {point middle last : Point State} {executed rest : List Instr}
      (first : next point = .goes executed middle) (reaches : Reaches next middle rest last) :
      Reaches next point (executed ++ rest) last

/-- A run from a state executes these instructions on its way to another state. -/
def Executes (interpretation : Interpretation State) (blocks : List Block) (start : State)
    (executed : List Instr) (final : State) : Prop :=
  ∃ place, Reaches (step interpretation blocks) ⟨0, start⟩ executed ⟨place, final⟩

/-- A run from a state executes these instructions and ends in another state. -/
def Finishes (interpretation : Interpretation State) (blocks : List Block) (start : State)
    (executed : List Instr) (ending : Ending) (final : State) : Prop :=
  ∃ place, Reaches (step interpretation blocks) ⟨0, start⟩ executed ⟨place, final⟩ ∧
    step interpretation blocks ⟨place, final⟩ = .ends ending

/-- The runs from every state execute the same instructions and end in the same way. -/
def SameBehaviour (interpretation : Interpretation State) (left right : List Block) : Prop :=
  ∀ start executed final,
    (Executes interpretation left start executed final ↔
      Executes interpretation right start executed final) ∧
    ∀ ending, Finishes interpretation left start executed ending final ↔
      Finishes interpretation right start executed ending final

theorem SameBehaviour.refl (interpretation : Interpretation State) (blocks : List Block) :
    SameBehaviour interpretation blocks blocks :=
  fun _ _ _ => ⟨Iff.rfl, fun _ => Iff.rfl⟩

theorem SameBehaviour.trans {interpretation : Interpretation State}
    {left middle right : List Block} (first : SameBehaviour interpretation left middle)
    (second : SameBehaviour interpretation middle right) :
    SameBehaviour interpretation left right := by
  intro start executed final
  constructor
  · exact (first start executed final).1.trans (second start executed final).1
  · intro ending
    exact ((first start executed final).2 ending).trans ((second start executed final).2 ending)

theorem Reaches.trans {next : Point State → Move State} {first middle last : Point State}
    {executed rest : List Instr} (left : Reaches next first executed middle)
    (right : Reaches next middle rest last) : Reaches next first (executed ++ rest) last := by
  induction left with
  | refl => exact right
  | head step reaches ih =>
      rw [List.append_assoc]
      exact .head step (ih right)

theorem Reaches.single {next : Point State → Move State} {point last : Point State}
    {executed : List Instr} (step : next point = .goes executed last) :
    Reaches next point executed last := by
  have reaches := Reaches.head step (.refl last)
  rwa [List.append_nil] at reaches

/-- Points of two runs that can follow each other, in one or more steps or in none. -/
structure Simulates (left right : Point State → Move State)
    (related : Point State → Point State → Prop) : Prop where
  goes : ∀ {point other executed next}, related point other →
    left point = .goes executed next →
      ∃ otherNext, Reaches right other executed otherNext ∧ related next otherNext
  ends : ∀ {point other ending}, related point other → left point = .ends ending →
    right other = .ends ending
  state : ∀ {point other}, related point other → point.state = other.state

theorem Simulates.reaches {left right : Point State → Move State}
    {related : Point State → Point State → Prop} (simulates : Simulates left right related)
    {point other last : Point State} {executed : List Instr} (start : related point other)
    (run : Reaches left point executed last) :
    ∃ otherLast, Reaches right other executed otherLast ∧ related last otherLast := by
  induction run generalizing other with
  | refl => exact ⟨other, .refl other, start⟩
  | head first rest ih =>
      obtain ⟨middle, firstRun, relatedMiddle⟩ := simulates.goes start first
      obtain ⟨otherLast, restRun, relatedLast⟩ := ih relatedMiddle
      exact ⟨otherLast, firstRun.trans restRun, relatedLast⟩

theorem Simulates.executes {interpretation : Interpretation State} {left right : List Block}
    {related : Point State → Point State → Prop}
    (simulates : Simulates (step interpretation left) (step interpretation right) related)
    {start final : State} {executed : List Instr} (atStart : related ⟨0, start⟩ ⟨0, start⟩)
    (executes : Executes interpretation left start executed final) :
    Executes interpretation right start executed final := by
  obtain ⟨place, run⟩ := executes
  obtain ⟨⟨otherPlace, otherFinal⟩, otherRun, relatedLast⟩ := simulates.reaches atStart run
  cases simulates.state relatedLast
  exact ⟨otherPlace, otherRun⟩

theorem Simulates.finishes {interpretation : Interpretation State} {left right : List Block}
    {related : Point State → Point State → Prop}
    (simulates : Simulates (step interpretation left) (step interpretation right) related)
    {start final : State} {executed : List Instr} {ending : Ending}
    (atStart : related ⟨0, start⟩ ⟨0, start⟩)
    (finishes : Finishes interpretation left start executed ending final) :
    Finishes interpretation right start executed ending final := by
  obtain ⟨place, run, ended⟩ := finishes
  obtain ⟨⟨otherPlace, otherFinal⟩, otherRun, relatedLast⟩ := simulates.reaches atStart run
  cases simulates.state relatedLast
  exact ⟨otherPlace, otherRun, simulates.ends relatedLast ended⟩

theorem SameBehaviour.of_simulates {interpretation : Interpretation State}
    {left right : List Block} {related : Point State → Point State → Prop}
    (forward : Simulates (step interpretation left) (step interpretation right) related)
    (backward : Simulates (step interpretation right) (step interpretation left)
      fun point other => related other point)
    (atStart : ∀ start, related ⟨0, start⟩ ⟨0, start⟩) :
    SameBehaviour interpretation left right := by
  intro start executed final
  constructor
  · constructor
    · exact forward.executes (atStart start)
    · exact backward.executes (atStart start)
  · intro ending
    constructor
    · exact forward.finishes (atStart start)
    · exact backward.finishes (atStart start)

/-- How a step follows another in relocated code: at once, or by way of a branch in between. -/
inductive Relocates (left right : Point State → Move State) (moved : Nat → Nat)
    (point : Point State) : Prop
  | direct (same : right (point.relocate moved) = (left point).relocate moved)
  | detour {middle next : Point State} (step : left point = .goes [] next)
      (leaves : right (point.relocate moved) = .goes [] middle)
      (arrives : right middle = .goes [] (next.relocate moved))
      (unchanged : middle.state = point.state)

/-- The points of a run, and those at which a run in relocated code can be meanwhile. -/
inductive Follows (left right : Point State → Move State) (moved : Nat → Nat) :
    Point State → Point State → Prop
  | aligned (point : Point State) : Follows left right moved point (point.relocate moved)
  | midway {point middle next : Point State} (step : left point = .goes [] next)
      (arrives : right middle = .goes [] (next.relocate moved))
      (unchanged : middle.state = point.state) : Follows left right moved point middle

theorem Follows.state_eq {left right : Point State → Move State} {moved : Nat → Nat}
    {point other : Point State} (follows : Follows left right moved point other) :
    point.state = other.state := by
  cases follows with
  | aligned => rfl
  | midway step arrives unchanged => exact unchanged.symm

theorem Follows.forward {left right : Point State → Move State} {moved : Nat → Nat}
    (relocates : ∀ point, Relocates left right moved point) :
    Simulates left right (Follows left right moved) where
  goes := by
    intro point other executed next follows first
    refine ⟨next.relocate moved, ?_, .aligned next⟩
    cases follows with
    | aligned =>
        cases relocates point with
        | direct same =>
            rw [first] at same
            exact .single same
        | detour step leaves arrives =>
            cases first.symm.trans step
            exact .head leaves (.single arrives)
    | midway step arrives =>
        cases first.symm.trans step
        exact .single arrives
  ends := by
    intro point other ending follows ended
    cases follows with
    | aligned =>
        cases relocates point with
        | direct same => rw [same, ended, Move.relocate]
        | detour step => cases ended.symm.trans step
    | midway step => cases ended.symm.trans step
  state := Follows.state_eq

theorem Follows.backward {left right : Point State → Move State} {moved : Nat → Nat}
    (relocates : ∀ point, Relocates left right moved point) :
    Simulates right left fun other point => Follows left right moved point other where
  goes := by
    intro other point executed next follows first
    cases follows with
    | aligned =>
        cases relocates point with
        | direct same =>
            rw [first] at same
            cases moves : left point with
            | ends ending => simp [moves, Move.relocate] at same
            | goes others origin =>
                rw [moves, Move.relocate, Move.goes.injEq] at same
                obtain ⟨rfl, rfl⟩ := same
                exact ⟨origin, .single moves, .aligned origin⟩
        | detour step leaves arrives unchanged =>
            cases first.symm.trans leaves
            exact ⟨point, .refl point, .midway step arrives unchanged⟩
    | midway step arrives =>
        cases first.symm.trans arrives
        exact ⟨_, .single step, .aligned _⟩
  ends := by
    intro other point ending follows ended
    cases follows with
    | aligned =>
        cases relocates point with
        | direct same =>
            rw [ended] at same
            cases moves : left point with
            | ends origin =>
                rw [moves, Move.relocate, Move.ends.injEq] at same
                rw [same]
            | goes executed next => simp [moves, Move.relocate] at same
        | detour step leaves => cases ended.symm.trans leaves
    | midway step arrives => cases ended.symm.trans arrives
  state := fun follows => follows.state_eq.symm

/-- Relocated code has the same behaviour, even if some of its branches take a detour. -/
theorem SameBehaviour.of_relocates {interpretation : Interpretation State}
    {left right : List Block} {moved : Nat → Nat} (start : moved 0 = 0)
    (relocates : ∀ point,
      Relocates (step interpretation left) (step interpretation right) moved point) :
    SameBehaviour interpretation left right := by
  apply SameBehaviour.of_simulates (Follows.forward relocates) (Follows.backward relocates)
  intro state
  have atStart : Follows (step interpretation left) (step interpretation right) moved
      ⟨0, state⟩ ⟨moved 0, state⟩ := .aligned ⟨0, state⟩
  rwa [start] at atStart

end Flow

end MachineCode
